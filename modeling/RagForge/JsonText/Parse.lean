import RagForge.JsonText.Print

/-
Reading JSON texts.

The reader follows `json.loads`: white space around every token, the last value of a repeated key,
control characters refused inside strings.  A text is a sequence of Unicode scalar values, so an
escaped surrogate that has no partner is refused.  The readers take fuel, of which `parse` has
enough for every document its text can hold.
-/

namespace RagForge.JsonText

open Py (Dict)

variable {ν : Type}

def isSpace (c : Char) : Bool := " \t\n\r".toList.contains c

def skip (t : List Char) : List Char := t.dropWhile isSpace

/-! ## Strings -/

def hexVal (c : Char) : Option Nat :=
  if '0' ≤ c ∧ c ≤ '9' then some (c.toNat - 48)
  else if 'a' ≤ c ∧ c ≤ 'f' then some (c.toNat - 87)
  else if 'A' ≤ c ∧ c ≤ 'F' then some (c.toNat - 55)
  else none

def readHex4 : List Char → Option (Nat × List Char)
  | a :: b :: c :: d :: rest => do
      let a ← hexVal a
      let b ← hexVal b
      let c ← hexVal c
      let d ← hexVal d
      some (a * 4096 + b * 256 + c * 16 + d, rest)
  | _ => none

def readLow (high : Nat) : List Char → Option (Char × List Char)
  | '\\' :: 'u' :: rest => do
      let (low, rest) ← readHex4 rest
      if 0xdc00 ≤ low ∧ low ≤ 0xdfff then
        some (Char.ofNat (0x10000 + (high - 0xd800) * 1024 + (low - 0xdc00)), rest)
      else none
  | _ => none

def readUnicode (rest : List Char) : Option (Char × List Char) := do
  let (n, rest) ← readHex4 rest
  if 0xd800 ≤ n ∧ n ≤ 0xdbff then readLow n rest
  else if 0xdc00 ≤ n ∧ n ≤ 0xdfff then none
  else some (Char.ofNat n, rest)

def readEscape : List Char → Option (Char × List Char)
  | '"' :: rest => some ('"', rest)
  | '\\' :: rest => some ('\\', rest)
  | '/' :: rest => some ('/', rest)
  | 'b' :: rest => some ('\x08', rest)
  | 'f' :: rest => some ('\x0c', rest)
  | 'n' :: rest => some ('\n', rest)
  | 'r' :: rest => some ('\r', rest)
  | 't' :: rest => some ('\t', rest)
  | 'u' :: rest => readUnicode rest
  | _ => none

def readChar : List Char → Option (Char × List Char)
  | [] => none
  | c :: rest =>
    if c = '\\' then readEscape rest else if c.toNat < 0x20 then none else some (c, rest)

def readStr : Nat → List Char → Option (List Char × List Char)
  | 0, _ => none
  | _ + 1, '"' :: rest => some ([], rest)
  | fuel + 1, t => do
      let (c, rest) ← readChar t
      let (cs, rest) ← readStr fuel rest
      some (c :: cs, rest)

/-! ## Documents -/

/-- The dictionary of the pairs that were read: a repeated key keeps its last value. -/
def toDict (pairs : List (String × Doc ν)) : Dict String (Doc ν) :=
  pairs.foldl (fun d p => d.set p.1 p.2) []

def readNum (N : Numerals ν) (t : List Char) : Option (Doc ν × List Char) :=
  if t.takeWhile isNumChar = [] then none
  else (N.read (t.takeWhile isNumChar)).map fun n => (.num n, t.dropWhile isNumChar)

mutual

def readDoc (N : Numerals ν) : Nat → List Char → Option (Doc ν × List Char)
  | 0, _ => none
  | fuel + 1, t =>
    match t with
    | 'n' :: 'u' :: 'l' :: 'l' :: rest => some (.null, rest)
    | 't' :: 'r' :: 'u' :: 'e' :: rest => some (.bool true, rest)
    | 'f' :: 'a' :: 'l' :: 's' :: 'e' :: rest => some (.bool false, rest)
    | '"' :: rest => do
        let (cs, rest) ← readStr fuel rest
        some (.str (String.ofList cs), rest)
    | '[' :: rest =>
      match skip rest with
      | ']' :: rest => some (.arr [], rest)
      | t => do
          let (xs, rest) ← readItems N fuel t
          some (.arr xs, rest)
    | '{' :: rest =>
      match skip rest with
      | '}' :: rest => some (.obj [], rest)
      | t => do
          let (pairs, rest) ← readPairs N fuel t
          some (.obj (toDict pairs), rest)
    | t => readNum N t

def readItems (N : Numerals ν) : Nat → List Char → Option (List (Doc ν) × List Char)
  | 0, _ => none
  | fuel + 1, t => do
      let (x, rest) ← readDoc N fuel t
      match skip rest with
      | ']' :: rest => some ([x], rest)
      | ',' :: rest => do
          let (xs, rest) ← readItems N fuel (skip rest)
          some (x :: xs, rest)
      | _ => none

def readPairs (N : Numerals ν) : Nat → List Char → Option (List (String × Doc ν) × List Char)
  | 0, _ => none
  | fuel + 1, t =>
    match t with
    | '"' :: rest => do
        let (k, rest) ← readStr fuel rest
        match skip rest with
        | ':' :: rest => do
            let (v, rest) ← readDoc N fuel (skip rest)
            match skip rest with
            | '}' :: rest => some ([(String.ofList k, v)], rest)
            | ',' :: rest => do
                let (pairs, rest) ← readPairs N fuel (skip rest)
                some ((String.ofList k, v) :: pairs, rest)
            | _ => none
        | _ => none
    | _ => none

end

def parse (N : Numerals ν) (t : List Char) : Option (Doc ν) := do
  let (doc, rest) ← readDoc N (2 * t.length + 2) (skip t)
  if skip rest = [] then some doc else none

end RagForge.JsonText
