import ChipEight.Text.Unprintable

/-! Text between double quotes, with escapes for what cannot stand there as itself. -/

namespace ChipEight

def escape (c : Char) : String :=
  match c with
  | '"' => "\\\""
  | '\\' => "\\\\"
  | '\n' => "\\n"
  | '\r' => "\\r"
  | '\t' => "\\t"
  | '\x00' => "\\0"
  | c =>
      if unprintable c then "\\u\x7b" ++ String.ofList (Nat.toDigits 16 c.toNat) ++ "\x7d"
      else c.toString

def literal (s : String) : String := "\"" ++ String.join (s.toList.map escape) ++ "\""

end ChipEight
