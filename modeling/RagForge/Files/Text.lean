import Mathlib.Data.List.Sort
import RagForge.Files.Types

/-
Patch maps, chunk windows and managed paths (`utils/common.py`).
-/

namespace RagForge.Files

open Py

section

variable (text : String) (patchMap : List Patch)

def buildPreview (maxChars : Nat) : String := slice text 0 maxChars

/-- `build_snippet`: at most `maxChars` characters around a span. -/
def buildSnippet (start stop maxChars : Nat) : String :=
  let length := text.toList.length
  let safeEnd := min length (max stop start)
  let width : Int := safeEnd - start
  if width ≥ maxChars then slice text start (start + maxChars)
  else
    let remaining := (maxChars - width).toNat
    let padLeft := remaining / 2
    let padRight := remaining - padLeft
    buildPreview (slice text (start - padLeft) (min length (safeEnd + padRight))) maxChars

/-! ## Patch maps -/

def Patch.le (p q : Patch) : Bool :=
  let a := p.start.getD 0
  let b := q.start.getD 0
  a < b || (a == b && p.stop.getD 0 ≤ q.stop.getD 0)

/-- The loop of `validate_patch_map` over the sorted patches. -/
def checkPatches (textLength : Nat) : Int → List Patch → Except Err Unit
  | _, [] => .ok ()
  | previousEnd, p :: rest =>
    match p.start, p.stop with
    | some start, some stop =>
      if start < 0 ∨ stop < 0 ∨ start ≥ stop ∨ stop > textLength then
        .error (.value "Patch span is out of bounds")
      else if start < previousEnd then .error (.value "Patch spans must not overlap")
      else checkPatches textLength stop rest
    | _, _ => .error (.value "Patch spans must be integers")

def validatePatchMap : Except Err Unit :=
  if patchMap.isEmpty then .error (.value "patch_map must not be empty")
  else checkPatches text.toList.length (-1) (patchMap.insertionSort fun p q => p.le q)

def applyPatch (patched : String) (p : Patch) : Except Err String :=
  match p.replacement with
  | none => .error (.value "can only concatenate str to str")
  | some replacement =>
    .ok (slice patched 0 (p.start.getD 0).toNat ++ replacement ++
      slice patched (p.stop.getD 0).toNat patched.toList.length)

/-- `apply_patch_map`: from the end of the text, so that earlier spans keep their positions. -/
def applyPatchMap : Except Err String :=
  (patchMap.insertionSort fun p q => q.le p).foldlM applyPatch text

/-- What the redaction of a review decision makes of the text. -/
def redact : Except Err String := do
  validatePatchMap text patchMap
  applyPatchMap text patchMap

/-! ## Chunks -/

/-- The loop of `chunk_text`.  Each window starts after the one before, so `textLength` rounds are
enough. -/
def chunkSpans (textLength size : Nat) (overlap : Int) : Nat → Nat → List (Nat × Nat)
  | 0, _ => []
  | fuel + 1, start =>
    if start < textLength then
      let stop := min (start + size) textLength
      if stop = textLength then [(start, stop)]
      else (start, stop) :: chunkSpans textLength size overlap fuel (stop - overlap).toNat
    else []

def chunkText (chunkSize chunkOverlap : Int) : Except Err (List (Nat × Nat)) :=
  let length := text.toList.length
  if length = 0 then .ok []
  else if chunkSize ≤ 0 then .error (.value "chunk_size must be positive")
  else if chunkOverlap ≥ chunkSize then
    .error (.value "chunk_overlap must be smaller than chunk_size")
  else .ok (chunkSpans length chunkSize.toNat chunkOverlap length 0)

end

/-! ## Managed paths -/

/-- The characters `validate_managed_file_path` keeps of an identifier. -/
def Config.safeId (cfg : Config) (id : String) : String :=
  String.ofList (id.toList.filter fun c => cfg.isAlnum c || c == '-' || c == '_')

/-- `validate_managed_file_path`, with the error as the handlers raise it. -/
def validateManagedFilePath (cfg : Config) (tenantId fileId path : String) :
    Except Err (List String) :=
  if cfg.safeId tenantId ≠ tenantId ∨ cfg.safeId fileId ≠ fileId ∨ cfg.safeId tenantId = "" ∨
      cfg.safeId fileId = "" then
    .error (.validation "Invalid tenant or file identifier")
  else
    let base := cfg.resolvePath cfg.uploadDir
    let expected := cfg.resolvePath (cfg.uploadDir ++ "/" ++ tenantId ++ "/" ++ fileId)
    let candidate := cfg.resolvePath path
    -- A parent of the candidate is a proper prefix of its components.
    if candidate.dropLast ≠ expected ∨ ¬ (base <+: candidate ∧ base.length < candidate.length) then
      .error (.validation "File path is outside the managed tenant directory")
    else .ok candidate

end RagForge.Files
