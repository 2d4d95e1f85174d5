import ChipEight.Fault
import ChipEight.Font
import ChipEight.Instr

/-!
Memory: a byte at each of 4096 addresses, the font at the bottom. A range of bytes is used as a whole or not at
all.
-/

namespace ChipEight

structure Ram where
  bytes : Address → UInt8
  origin : UInt16

namespace Ram

/-- `length` bytes from `address` all lie in memory. -/
abbrev Fits (address : UInt16) (length : Nat) : Prop := address.toNat + length ≤ 4096

/-- `i` is one of `length` places from `address`. -/
abbrev Covers (address : UInt16) (length : Nat) (i : Address) : Prop :=
  address.toNat ≤ i ∧ i < address.toNat + length

def slice? (m : Ram) (address : UInt16) (length : Nat) : Option (List UInt8) :=
  if h : Fits address length then some (List.ofFn fun i : Fin length => m.bytes ⟨address.toNat + i, by omega⟩)
  else none

def read (m : Ram) (address : UInt16) : Except Fault UInt8 :=
  if h : address.toNat < 4096 then .ok (m.bytes ⟨address.toNat, h⟩) else .error (.unreadable address 1)

/-- Each byte of a range becomes `f` of its place in the range and itself, if the range fits. -/
def edit? (m : Ram) (address : UInt16) (length : Nat) (f : Nat → UInt8 → UInt8) : Option Ram :=
  let bytes (i : Address) := if Covers address length i then f (i - address.toNat) (m.bytes i) else m.bytes i
  if Fits address length then some { m with bytes } else none

def write (m : Ram) (data : Array UInt8) (address : UInt16) : Except Fault Ram :=
  match m.edit? address data.size (fun i b => data[i]?.getD b) with
  | some m => .ok m
  | none => .error (.doesNotFit address data.size)

def load (m : Ram) (program : Array UInt8) : Except Fault Ram := m.write program m.origin

/-- Zeros under the font, with programs to go to 0x200. -/
def fresh : Ram := ⟨fun i => font[i.val]?.getD 0, 0x200⟩

def toList (m : Ram) : List UInt8 := List.ofFn m.bytes

/-! ## What the bytes are -/

theorem slice?_eq_none_iff {m : Ram} {address length} :
    m.slice? address length = none ↔ ¬ Fits address length := by
  unfold slice?; split <;> simp_all

theorem edit?_eq_none_iff {m : Ram} {address length f} :
    m.edit? address length f = none ↔ ¬ Fits address length := by
  unfold edit?; split <;> simp_all

theorem bytes_edit {m m' : Ram} {address length f} (h : m.edit? address length f = some m') (i : Address) :
    m'.bytes i = if Covers address length i then f (i - address.toNat) (m.bytes i) else m.bytes i := by
  unfold edit? at h
  split at h
  · cases h; rfl
  · cases h

theorem origin_edit {m m' : Ram} {address length f} (h : m.edit? address length f = some m') :
    m'.origin = m.origin := by
  unfold edit? at h
  split at h
  · cases h; rfl
  · cases h

theorem write_eq_error_iff {m : Ram} {data address e} :
    m.write data address = .error e ↔ ¬ Fits address data.size ∧ e = .doesNotFit address data.size := by
  unfold write
  cases h : m.edit? address data.size (fun i b => data[i]?.getD b) with
  | none => have := edit?_eq_none_iff.1 h; simp_all [eq_comm]
  | some m' =>
      have : Fits address data.size := by
        by_cases hf : Fits address data.size
        · exact hf
        · rw [edit?_eq_none_iff.2 hf] at h; cases h
      simp_all

end Ram

end ChipEight
