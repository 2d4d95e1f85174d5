import ChipEight.Text.Literal

/-!
Structured values in writing: `Name { field: value }`, `Name(value)`, `[a, b]`, on one line or with one item
a line.
-/

namespace ChipEight

/-- A value to be written. `partly` marks a record with fields that are not shown. -/
inductive Datum where
  | atom (text : String)
  | list (items : List Datum)
  | wrapped (name : String) (inner : Datum)
  | record (name : String) (fields : List (String × Datum)) (partly : Bool)
  deriving Inhabited

namespace Datum

def nat (n : Nat) : Datum := .atom (toString n)

def text (s : String) : Datum := .atom (literal s)

def full (name : String) (fields : List (String × Datum)) : Datum := .record name fields false

mutual

def line : Datum → String
  | .atom t => t
  | .list items => "[" ++ ", ".intercalate (lineItems items) ++ "]"
  | .wrapped name inner => name ++ "(" ++ inner.line ++ ")"
  | .record name fields partly =>
      name ++ " \x7b " ++ ", ".intercalate (lineFields fields ++ if partly then [".."] else []) ++ " \x7d"

def lineItems : List Datum → List String
  | [] => []
  | d :: ds => d.line :: lineItems ds

def lineFields : List (String × Datum) → List String
  | [] => []
  | (name, d) :: fs => (name ++ ": " ++ d.line) :: lineFields fs

end

/-- The lines of all items, four columns in, between `opening` and `closing`; these two share a line if there are
no items. -/
def block (opening closing : String) (inner : List (List String)) : List String :=
  if inner.isEmpty then [opening ++ closing]
  else opening :: (inner.flatten.map ("    " ++ ·)) ++ [closing]

/-- `label` before the first line and `mark` after the last. -/
def framed (label mark : String) : List String → List String
  | [] => []
  | [l] => [label ++ l ++ mark]
  | l :: ls => (label ++ l) :: ls.dropLast ++ [ls.getLastD "" ++ mark]

mutual

/-- The value with one item a line; each item ends in a comma. -/
def lines : Datum → List String
  | .atom t => [t]
  | .list items => block "[" "]" (itemLines items)
  | .wrapped name inner => block (name ++ "(") ")" [framed "" "," inner.lines]
  | .record name fields partly =>
      block (name ++ " \x7b") "\x7d" (fieldLines fields ++ if partly then [[".."]] else [])

def itemLines : List Datum → List (List String)
  | [] => []
  | d :: ds => framed "" "," d.lines :: itemLines ds

def fieldLines : List (String × Datum) → List (List String)
  | [] => []
  | (name, d) :: fs => framed (name ++ ": ") "," d.lines :: fieldLines fs

end

def pretty (d : Datum) : String := "\n".intercalate d.lines

end Datum

end ChipEight
