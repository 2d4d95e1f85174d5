/-!
Operations that are not defined everywhere. Where nothing is said about it, a difference of numbers stops at zero, a sum
of words wraps round, and a word shifted too far is empty. Each operation here says so instead when it is asked for more
than it can give, and gives the plain result when it is not.
-/

namespace ChipEight

/-- What an operation was asked for that it cannot give. -/
inductive Misuse where
  /-- `a - b`, which is negative. -/
  | difference (a b : Nat)
  /-- `a + b`, which is more than `most`. -/
  | sum (most a b : Nat)
  /-- All the bits of a word of `width` bits shifted out, or more. -/
  | shift (width places : Nat)
  /-- Element `i` of `size`. -/
  | element (size i : Nat)
  /-- The only element, of `size`. -/
  | only (size : Nat)
  deriving DecidableEq, Repr

abbrev Guarded := Except Misuse

namespace Guarded

variable {α β : Type} {n : Nat}

def minus (a b : Nat) : Guarded Nat := if b ≤ a then .ok (a - b) else .error (.difference a b)

/-- `a + b`, as long as that is no more than `most`. -/
def plus (most a b : Nat) : Guarded Nat := if a + b ≤ most then .ok (a + b) else .error (.sum most a b)

/-- A number of places that a word of `width` bits may be shifted by. -/
def places (width k : Nat) : Guarded Nat := if k < width then .ok k else .error (.shift width k)

def get (v : Vector α n) (i : Nat) : Guarded α := if h : i < n then .ok v[i] else .error (.element n i)

def set (v : Vector α n) (i : Nat) (a : α) : Guarded (Vector α n) :=
  if h : i < n then .ok (v.set i a) else .error (.element n i)

/-- The element of a list that has just one. -/
def only : List α → Guarded α
  | [a] => .ok a
  | l => .error (.only l.length)

/-! ## Inside their domains -/

@[simp] theorem ok_bind (a : α) (f : α → Guarded β) : (Except.ok a >>= f : Guarded β) = f a := rfl

@[simp] theorem pure_eq_ok (a : α) : (pure a : Guarded α) = .ok a := rfl

theorem minus_of_le {a b : Nat} (h : b ≤ a) : minus a b = .ok (a - b) := if_pos h

theorem plus_of_le {most a b : Nat} (h : a + b ≤ most) : plus most a b = .ok (a + b) := if_pos h

theorem places_of_lt {width k : Nat} (h : k < width) : places width k = .ok k := if_pos h

theorem get_of_lt {v : Vector α n} {i : Nat} (h : i < n) : get v i = .ok v[i] := dif_pos h

theorem set_of_lt {v : Vector α n} {i : Nat} (h : i < n) (a : α) : set v i a = .ok (v.set i a) := dif_pos h

end Guarded

end ChipEight
