import Mathlib.Data.List.Sort
import RagForge.Py.Value

/-
JSON documents and their texts.

Documents are generic in their numbers: a `Numerals` structure says how a number is written and
read.  A text is printed compactly or with a space after each comma and colon, and with or without
the characters outside ASCII escaped.  Characters that may not stand in a string are always escaped.
-/

namespace RagForge.JsonText

open Py (Dict)

/-- A JSON document with numbers `ν`. -/
inductive Doc (ν : Type)
  | null
  | bool (b : Bool)
  | num (n : ν)
  | str (s : String)
  | arr (xs : List (Doc ν))
  | obj (fields : List (String × Doc ν))

def isNumChar (c : Char) : Bool := c.isDigit || "+-.eE".toList.contains c

/-- How numbers are written, and that they are read back. -/
structure Numerals (ν : Type) where
  print : ν → List Char
  read : List Char → Option ν
  read_print : ∀ n, read (print n) = some n
  print_ne_nil : ∀ n, print n ≠ []
  print_chars : ∀ n, ∀ c ∈ print n, isNumChar c = true

structure Style where
  ascii : Bool
  spaced : Bool

variable {ν : Type}

/-! ## Strings -/

def hex4 (n : Nat) : List Char :=
  [(n / 4096 % 16).digitChar, (n / 256 % 16).digitChar, (n / 16 % 16).digitChar,
    (n % 16).digitChar]

def unit (n : Nat) : List Char := '\\' :: 'u' :: hex4 n

/-- A character as one code unit or as a surrogate pair. -/
def unicodeEscape (n : Nat) : List Char :=
  if n < 0x10000 then unit n
  else unit (0xd800 + (n - 0x10000) / 1024) ++ unit (0xdc00 + (n - 0x10000) % 1024)

def escape (ascii : Bool) (c : Char) : List Char :=
  if c = '"' then ['\\', '"']
  else if c = '\\' then ['\\', '\\']
  else if c = '\n' then ['\\', 'n']
  else if c = '\r' then ['\\', 'r']
  else if c = '\t' then ['\\', 't']
  else if c = '\x0c' then ['\\', 'f']
  else if c = '\x08' then ['\\', 'b']
  else if c.toNat < 0x20 || (ascii && 0x7f ≤ c.toNat) then unicodeEscape c.toNat
  else [c]

def printStr (ascii : Bool) (s : String) : List Char :=
  '"' :: (s.toList.flatMap (escape ascii) ++ ['"'])

/-! ## Documents -/

namespace Style

def comma (y : Style) : List Char := if y.spaced then [',', ' '] else [',']

def colon (y : Style) : List Char := if y.spaced then [':', ' '] else [':']

theorem comma_length_pos (y : Style) : 0 < y.comma.length := by
  unfold comma
  split <;> exact Nat.succ_pos _

/-- `separators=(",", ":")` with `ensure_ascii=False`. -/
def compact : Style := ⟨false, false⟩

end Style

mutual

def print (N : Numerals ν) (y : Style) : Doc ν → List Char
  | .null => "null".toList
  | .bool true => "true".toList
  | .bool false => "false".toList
  | .num n => N.print n
  | .str s => printStr y.ascii s
  | .arr xs => '[' :: (printItems N y xs ++ [']'])
  | .obj fields => '{' :: (printFields N y fields ++ ['}'])

def printItems (N : Numerals ν) (y : Style) : List (Doc ν) → List Char
  | [] => []
  | [x] => print N y x
  | x :: rest => print N y x ++ (y.comma ++ printItems N y rest)

def printFields (N : Numerals ν) (y : Style) : List (String × Doc ν) → List Char
  | [] => []
  | [(k, v)] => printStr y.ascii k ++ (y.colon ++ print N y v)
  | (k, v) :: rest =>
    printStr y.ascii k ++ (y.colon ++ (print N y v ++ (y.comma ++ printFields N y rest)))

end

theorem printItems_cons_cons (N : Numerals ν) (y : Style) (x z : Doc ν) (xs : List (Doc ν)) :
    printItems N y (x :: z :: xs) = print N y x ++ (y.comma ++ printItems N y (z :: xs)) := by
  rw [printItems]
  exact List.cons_ne_nil z xs

theorem printFields_cons_cons (N : Numerals ν) (y : Style) (k : String) (v : Doc ν)
    (p : String × Doc ν) (fields : List (String × Doc ν)) :
    printFields N y ((k, v) :: p :: fields) =
      printStr y.ascii k ++ (y.colon ++ (print N y v ++ (y.comma ++ printFields N y
        (p :: fields)))) := by
  rw [printFields]
  exact List.cons_ne_nil p fields

mutual

/-- No dictionary of the document has a key twice. -/
def Doc.valid : Doc ν → Bool
  | .null | .bool _ | .num _ | .str _ => true
  | .arr xs => validItems xs
  | .obj fields => decide (fields.map Prod.fst).Nodup && validFields fields

def validItems : List (Doc ν) → Bool
  | [] => true
  | x :: rest => x.valid && validItems rest

def validFields : List (String × Doc ν) → Bool
  | [] => true
  | (_, v) :: rest => v.valid && validFields rest

end

theorem validFields_iff {fields : List (String × Doc ν)} :
    validFields fields = true ↔ ∀ p ∈ fields, p.2.valid = true := by
  induction fields with
  | nil => simp [validFields]
  | cons p rest ih =>
    rw [validFields, Bool.and_eq_true, ih]
    simp

abbrev Object (ν : Type) : Type :=
  { fields : List (String × Doc ν) // (Doc.obj fields).valid = true }

def Object.doc (o : Object ν) : Doc ν := .obj o.val

end RagForge.JsonText
