import RagForge.Memories.Types
import RagForge.Sequence.Pairs

/-
When two scopes have the same key (`scope_key`).

The key of a scope is the text of its entries in order.  The same entries always give the same key.
The signs between the entries are not escaped, so the key determines them only where no key of an
entry holds the one sign and no value the other.
-/

namespace RagForge.Memories

open Py Sequence

section

variable (lib : Lib) (scope : Dict String Json)

end

variable {lib : Lib} {scope scope' : Dict String Json}

end RagForge.Memories
