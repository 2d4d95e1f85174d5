/-! Hexadecimal numerals with a least number of digits; a longer number is never cut. -/

namespace ChipEight

/-- Upper-case hexadecimal digits of `n`, led by zeros up to `width` of them. -/
def hexDigits (width n : Nat) : List Char :=
  ((Nat.toDigits 16 n).map Char.toUpper).leftpad width '0'

/-- Digits alone, as in `00E0`. -/
def hexPlain (width n : Nat) : String := String.ofList (hexDigits width n)

/-- Digits after `0x`, as in `0x200`. -/
def hex (width n : Nat) : String := "0x" ++ hexPlain width n

example : hex 3 0x200 = "0x200" ∧ hex 3 0x5 = "0x005" ∧ hex 3 0xABCD = "0xABCD" := by decide

end ChipEight
