/-!
Numbers of 53 significant bits. A result that has more goes to the nearest such number, and from halfway between
two of them to the even one.
-/

namespace ChipEight

/-- The number `digits / 2 ^ places`. -/
structure Rounded where
  digits : Nat
  places : Nat
  deriving DecidableEq, Repr

namespace Rounded

/-- The whole number of 53 significant bits that is nearest to `n`. -/
def nearest (n : Nat) : Nat :=
  let unit := 1 <<< (n.log2 - 52)
  let below := n / unit
  let rest := n % unit
  if 2 * rest < unit ∨ 2 * rest = unit ∧ below % 2 = 0 then below * unit else (below + 1) * unit

theorem nearest_of_lt {n : Nat} (h : n < 1 <<< 53) : nearest n = n := by
  have : n.log2 - 52 = 0 := by
    by_cases h0 : n = 0
    · simp [h0]
    · have := (Nat.log2_lt h0).2 (Nat.one_shiftLeft 53 ▸ h)
      omega
  simp [nearest, this, Nat.mod_one]

def ofNat (n : Nat) : Rounded := ⟨nearest n, 0⟩

/-- Rounds a number that lies at `digits / 2 ^ places` or, if not `isExact`, between there and the next place.
That settles the result where `digits` has more than 53 significant bits. -/
def ofDigits (digits places : Nat) (isExact : Bool) : Rounded :=
  ⟨nearest (2 * digits + (!isExact).toNat), places + 1⟩

def floor (a : Rounded) : Nat := a.digits >>> a.places

def mul (a b : Rounded) : Rounded := ⟨nearest (a.digits * b.digits), a.places + b.places⟩

/-- The quotient, from 55 bits of it or more. -/
def div (a b : Rounded) : Rounded :=
  let dividend := a.digits <<< b.places
  let divisor := b.digits <<< a.places
  let places := 55 + divisor.log2 - dividend.log2
  let scaled := dividend <<< places
  ofDigits (scaled / divisor) places (scaled % divisor == 0)

/-- The square root, from 56 bits of it or more; `more` makes the number of places even. -/
def sqrt (a : Rounded) : Rounded :=
  let more := 112 + a.places % 2
  let square := a.digits <<< more
  ofDigits square.sqrt ((a.places + more) / 2) (square.sqrt * square.sqrt == square)

end Rounded

end ChipEight
