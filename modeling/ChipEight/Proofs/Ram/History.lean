import ChipEight.Ram
import Mathlib.Data.List.Basic
import Mathlib.Data.List.Induction

/-!
Memory after any history. However operations overlap, and whichever of them are refused, each byte is what the last
operation that got at it put there.
-/

namespace ChipEight

open Ram (Fits Covers)

inductive RamOp where
  | write (data : Array UInt8) (address : UInt16)
  | load (program : Array UInt8)
  /-- Change a range in place: each byte becomes `f` of its place in the range and itself. -/
  | edit (address : UInt16) (length : Nat) (f : Nat → UInt8 → UInt8)
  /-- From now on programs go to `address`. -/
  | setOrigin (address : UInt16)

namespace RamOp

/-- The range that an operation is to change while programs go to `origin`. -/
def range? (origin : UInt16) : RamOp → Option (UInt16 × Nat)
  | write data address => some (address, data.size)
  | load program => some (origin, program.size)
  | edit address length _ => some (address, length)
  | setOrigin _ => none

def nextOrigin (origin : UInt16) : RamOp → UInt16
  | setOrigin address => address
  | _ => origin

/-- What a refusal reports. That of a change in place reports nothing. -/
def fault? (origin : UInt16) : RamOp → Option Fault
  | write data address => some (.doesNotFit address data.size)
  | load program => some (.doesNotFit origin program.size)
  | edit .. | setOrigin _ => none

/-- Place `k` of the range held `old` and is to hold `new`. -/
def Puts : RamOp → Nat → UInt8 → UInt8 → Prop
  | write data _, k, _, new => data[k]? = some new
  | load program, k, _, new => program[k]? = some new
  | edit _ _ f, k, old, new => f k old = new
  | setOrigin _, _, _, _ => False

def originAfter (ops : List RamOp) : UInt16 := ops.foldl nextOrigin 0x200

def Reaches (origin : UInt16) (i : Address) (op : RamOp) : Prop :=
  ∃ address length, op.range? origin = some (address, length) ∧ Fits address length ∧ Covers address length i

/-- None of the operations, made in turn, gets at address `i`; programs go to `origin` at first. -/
def Untouched (i : Address) : UInt16 → List RamOp → Prop
  | _, [] => True
  | origin, op :: ops => ¬ op.Reaches origin i ∧ Untouched i (op.nextOrigin origin) ops

/-- After a history, address `i` holds `b`: the last operation that got at it put that there, or none did and the
byte is of the font or zero. -/
inductive Holds (i : Address) : List RamOp → UInt8 → Prop where
  | untouched {ops : List RamOp} {b : UInt8} : Untouched i 0x200 ops →
      (if i.val < 80 then font[i.val]? = some b else b = 0) → Holds i ops b
  | put {before later : List RamOp} {op : RamOp} {address : UInt16} {length : Nat} {old b : UInt8} :
      Holds i before old → op.range? (originAfter before) = some (address, length) → Fits address length →
      Covers address length i → op.Puts (i - address.toNat) old b →
      Untouched i (op.nextOrigin (originAfter before)) later → Holds i (before ++ op :: later) b

theorem nextOrigin_of_range {origin : UInt16} {op : RamOp} {range : UInt16 × Nat} (h : op.range? origin = some range) :
    op.nextOrigin origin = origin := by
  cases op with
  | setOrigin => cases h
  | _ => rfl

theorem Untouched.snoc {i : Address} {origin : UInt16} {ops : List RamOp} {op : RamOp} (h : Untouched i origin ops)
    (hop : ¬ op.Reaches (ops.foldl nextOrigin origin) i) : Untouched i origin (ops ++ [op]) := by
  induction ops generalizing origin with
  | nil => exact ⟨hop, trivial⟩
  | cons first ops ih => exact ⟨h.1, ih h.2 hop⟩

theorem Holds.snoc {i : Address} {ops : List RamOp} {b : UInt8} {op : RamOp} (h : Holds i ops b)
    (hop : ¬ op.Reaches (originAfter ops) i) : Holds i (ops ++ [op]) b := by
  cases h with
  | untouched h hb => exact .untouched (h.snoc hop) hb
  | @put before later last _ _ _ _ hbefore hrange hfits hcovers hputs h =>
      have horigin : originAfter (before ++ last :: later) =
          later.foldl nextOrigin (last.nextOrigin (originAfter before)) := by
        rw [originAfter, List.foldl_append]
        rfl
      rw [horigin] at hop
      rw [List.append_assoc]
      exact .put hbefore hrange hfits hcovers hputs (h.snoc hop)

end RamOp

namespace Ram

open RamOp

def perform (m : Ram) : RamOp → Except (Option Fault) Ram
  | .write data address => (m.write data address).mapError some
  | .load program => (m.load program).mapError some
  | .edit address length f => (m.edit? address length f).elim (.error none) .ok
  | .setOrigin address => .ok { m with origin := address }

/-- A refused operation leaves memory as it was. -/
def performed (m : Ram) (op : RamOp) : Ram := (m.perform op).toOption.getD m

def after (m : Ram) (ops : List RamOp) : Ram := ops.foldl performed m

/-! ## One operation -/

section

variable {m m' : Ram} {op : RamOp} {address : UInt16} {length : Nat}

/-- Every operation with a range is a change in place of that range. -/
theorem perform_of_range (h : op.range? m.origin = some (address, length)) :
    ∃ f, m.perform op = (m.edit? address length f).elim (.error (op.fault? m.origin)) .ok ∧
      ∀ k < length, ∀ old, op.Puts k old (f k old) := by
  cases op with
  | write data address =>
      cases h
      refine ⟨fun k b => data[k]?.getD b, ?_, ?_⟩
      · rw [perform, write]
        cases m.edit? address data.size (fun k b => data[k]?.getD b) <;> rfl
      · intro k hk old
        simp [Puts, hk]
  | load program =>
      cases h
      refine ⟨fun k b => program[k]?.getD b, ?_, ?_⟩
      · rw [perform, Ram.load, write]
        cases m.edit? m.origin program.size (fun k b => program[k]?.getD b) <;> rfl
      · intro k hk old
        simp [Puts, hk]
  | edit address length f =>
      cases h
      exact ⟨f, rfl, fun _ _ _ => rfl⟩
  | setOrigin => cases h

/-- The ways in which an operation can go. -/
inductive Outcome (m : Ram) (op : RamOp) : Except (Option Fault) Ram → Prop where
  | moved : op.range? m.origin = none → Outcome m op (.ok { m with origin := op.nextOrigin m.origin })
  | done {address : UInt16} {length : Nat} {m' : Ram} : op.range? m.origin = some (address, length) →
      Fits address length → m'.origin = op.nextOrigin m.origin →
      (∀ i, Covers address length i → op.Puts (i - address.toNat) (m.bytes i) (m'.bytes i)) →
      (∀ i, ¬ Covers address length i → m'.bytes i = m.bytes i) → Outcome m op (.ok m')
  | refused {address : UInt16} {length : Nat} : op.range? m.origin = some (address, length) →
      ¬ Fits address length → Outcome m op (.error (op.fault? m.origin))

theorem perform_outcome (m : Ram) (op : RamOp) : Outcome m op (m.perform op) := by
  rcases hrange : op.range? m.origin with _ | ⟨address, length⟩
  · cases op with
    | setOrigin => exact .moved rfl
    | _ => cases hrange
  · obtain ⟨f, hperform, hputs⟩ := perform_of_range hrange
    rw [hperform]
    cases hedit : m.edit? address length f with
    | none => exact .refused hrange (edit?_eq_none_iff.mp hedit)
    | some m' =>
        have hfits : Fits address length := Decidable.byContradiction fun hfits => by
          rw [edit?_eq_none_iff.mpr hfits] at hedit
          cases hedit
        refine .done hrange hfits ((origin_edit hedit).trans (nextOrigin_of_range hrange).symm) ?_ ?_
        · intro i hi
          rw [bytes_edit hedit, if_pos hi]
          exact hputs _ (by omega) _
        · intro i hi
          rw [bytes_edit hedit, if_neg hi]

theorem perform_ok_iff (m : Ram) (op : RamOp) : (∃ m', m.perform op = .ok m') ↔
    ∀ address length, op.range? m.origin = some (address, length) → Fits address length := by
  have h := m.perform_outcome op
  generalize m.perform op = r at h
  cases h with
  | moved hrange => exact iff_of_true ⟨_, rfl⟩ fun _ _ h => nomatch hrange.symm.trans h
  | done hrange hfits =>
      refine iff_of_true ⟨_, rfl⟩ fun _ _ h => ?_
      cases hrange.symm.trans h
      exact hfits
  | refused hrange hfits => exact iff_of_false nofun fun h => hfits (h _ _ hrange)

theorem fault_of_perform {refusal : Option Fault} (h : m.perform op = .error refusal) :
    refusal = op.fault? m.origin ∧ m.performed op = m := by
  have ho := m.perform_outcome op
  rw [performed, h]
  rw [h] at ho
  cases ho
  exact ⟨rfl, rfl⟩

theorem origin_performed (m : Ram) (op : RamOp) : (m.performed op).origin = op.nextOrigin m.origin := by
  have h := m.perform_outcome op
  rw [performed]
  generalize m.perform op = r at h ⊢
  cases h with
  | moved => rfl
  | done _ _ horigin => exact horigin
  | refused hrange => exact (nextOrigin_of_range hrange).symm

theorem bytes_performed_of_reaches {i : Address} (h : op.range? m.origin = some (address, length))
    (hfits : Fits address length) (hi : Covers address length i) :
    op.Puts (i - address.toNat) (m.bytes i) ((m.performed op).bytes i) := by
  have ho := m.perform_outcome op
  rw [performed]
  generalize m.perform op = r at ho ⊢
  cases ho with
  | moved hrange => cases hrange.symm.trans h
  | done hrange _ _ hputs =>
      cases hrange.symm.trans h
      exact hputs i hi
  | refused hrange hnot =>
      cases hrange.symm.trans h
      exact absurd hfits hnot

theorem bytes_performed_of_not_reaches {i : Address} (h : ¬ op.Reaches m.origin i) :
    (m.performed op).bytes i = m.bytes i := by
  have ho := m.perform_outcome op
  rw [performed]
  generalize m.perform op = r at ho ⊢
  cases ho with
  | moved => rfl
  | done hrange hfits _ _ hkept => exact hkept i fun hi => h ⟨_, _, hrange, hfits, hi⟩
  | refused => rfl

end

/-! ## A history -/

theorem after_snoc (m : Ram) (ops : List RamOp) (op : RamOp) : m.after (ops ++ [op]) = (m.after ops).performed op :=
  List.foldl_concat ..

theorem origin_after (m : Ram) (ops : List RamOp) : (m.after ops).origin = ops.foldl nextOrigin m.origin := by
  induction ops generalizing m with
  | nil => rfl
  | cons op ops ih =>
      rw [List.foldl_cons, ← origin_performed]
      exact ih (m.performed op)

theorem bytes_after_of_untouched {m : Ram} {i : Address} {ops : List RamOp} (h : Untouched i m.origin ops) :
    (m.after ops).bytes i = m.bytes i := by
  induction ops generalizing m with
  | nil => rfl
  | cons op ops ih =>
      rw [← bytes_performed_of_not_reaches h.1]
      exact ih (origin_performed m op ▸ h.2)

theorem bytes_fresh (i : Address) {b : UInt8} (h : if i.val < 80 then font[i.val]? = some b else b = 0) :
    fresh.bytes i = b := by
  show font[i.val]?.getD 0 = b
  split at h
  · rw [h, Option.getD_some]
  · rename_i hi
    rw [h, Array.getElem?_eq_none (by rw [size_font]; omega), Option.getD_none]

theorem puts_unique {op : RamOp} {k : Nat} {old b b' : UInt8} (h : op.Puts k old b) (h' : op.Puts k old b') :
    b = b' := by
  cases op with
  | write => exact Option.some.inj (h.symm.trans h')
  | load => exact Option.some.inj (h.symm.trans h')
  | edit => exact h.symm.trans h'
  | setOrigin => cases h

theorem bytes_of_holds {i : Address} {ops : List RamOp} {b : UInt8} (h : Holds i ops b) :
    (fresh.after ops).bytes i = b := by
  induction h with
  | untouched h hb => exact (bytes_after_of_untouched h).trans (bytes_fresh i hb)
  | @put before later op address length old b _ hrange hfits hcovers hputs hlater ih =>
      have horigin : (fresh.after before).origin = originAfter before := origin_after fresh before
      have hafter : fresh.after (before ++ op :: later) = ((fresh.after before).performed op).after later := by
        rw [after, List.foldl_append]
        rfl
      rw [← horigin] at hrange hlater
      rw [hafter, bytes_after_of_untouched (origin_performed _ op ▸ hlater)]
      have hput := bytes_performed_of_reaches hrange hfits hcovers
      rw [ih] at hput
      exact puts_unique hput hputs

theorem holds_fresh (i : Address) : Holds i [] (fresh.bytes i) := by
  refine .untouched trivial ?_
  show if i.val < 80 then font[i.val]? = some (font[i.val]?.getD 0) else font[i.val]?.getD 0 = 0
  split
  · rename_i hi
    have hsize : i.val < font.size := size_font ▸ hi
    rw [Array.getElem?_eq_getElem hsize, Option.getD_some]
  · rename_i hi
    rw [Array.getElem?_eq_none (by rw [size_font]; omega), Option.getD_none]

theorem holds_bytes (ops : List RamOp) (i : Address) : Holds i ops ((fresh.after ops).bytes i) := by
  induction ops using List.reverseRecOn with
  | nil => exact holds_fresh i
  | append_singleton ops op ih =>
      have horigin : (fresh.after ops).origin = originAfter ops := origin_after fresh ops
      rw [after_snoc]
      by_cases h : op.Reaches (originAfter ops) i
      · obtain ⟨address, length, hrange, hfits, hcovers⟩ := h
        have hput := bytes_performed_of_reaches (horigin.symm ▸ hrange) hfits hcovers
        exact .put ih hrange hfits hcovers hput trivial
      · rw [bytes_performed_of_not_reaches (horigin.symm ▸ h)]
        exact ih.snoc h

/-! ## Reading -/

theorem getElem?_toList (m : Ram) (k : Nat) : m.toList[k]? = if h : k < 4096 then some (m.bytes ⟨k, h⟩) else none :=
  List.getElem?_ofFn

theorem read_eq (m : Ram) (address : UInt16) :
    m.read address = (m.toList[address.toNat]?).elim (.error (.unreadable address 1)) .ok := by
  rw [getElem?_toList, read]
  split <;> rfl

theorem slice?_eq (m : Ram) (address : UInt16) (length : Nat) : m.slice? address length =
    if Fits address length then some ((m.toList.drop address.toNat).take length) else none := by
  unfold slice?
  by_cases hfits : Fits address length
  · rw [dif_pos hfits, if_pos hfits]
    refine congrArg some (List.ext_getElem? fun k => ?_)
    rw [List.getElem?_take, List.getElem?_drop, List.getElem?_ofFn, getElem?_toList]
    by_cases hk : k < length
    · rw [dif_pos hk, if_pos hk, dif_pos (by omega)]
    · rw [dif_neg hk, if_neg hk]
  · rw [dif_neg hfits, if_neg hfits]

/-! ## Ranges in machine words -/

/-- Where a range ends, counted in 64 bits, unless the count wraps round. -/
def wordEnd? (address : UInt16) (length : UInt64) : Option UInt64 :=
  let stop := address.toUInt64 + length
  if stop < length then none else some stop

theorem fits_iff_wordEnd? (address : UInt16) (length : UInt64) :
    Fits address length.toNat ↔ ∃ stop, wordEnd? address length = some stop ∧ stop ≤ 4096 := by
  have haddress := address.toNat_lt
  have hlength := length.toNat_lt
  have hstop : (address.toUInt64 + length).toNat = (address.toNat + length.toNat) % 2 ^ 64 := by
    rw [UInt64.toNat_add, UInt16.toNat_toUInt64]
  unfold wordEnd?
  simp only [UInt64.lt_iff_toNat_lt, hstop]
  split
  · -- The count has wrapped round, so the range is longer than memory.
    refine ⟨fun hfits => ?_, nofun⟩
    omega
  · simp only [Option.some.injEq, exists_eq_left', UInt64.le_iff_toNat_le, hstop, UInt64.reduceToNat]
    omega

/-- Memory after any history of operations. An operation succeeds exactly if its range ends by the end of memory, and
whether it does can be told in 64-bit words. A refused one changes nothing and reports its own range. There are 4096
bytes, each of them what the last operation that got at it put there or, if there is none, of the font or zero. Reading
a byte or a range gives just these bytes, under the same condition. -/
theorem holds_iff_bytes (ops : List RamOp) :
    let m := fresh.after ops
    m.origin = originAfter ops ∧
    (∀ op, (∃ m', m.perform op = .ok m') ↔
      ∀ address length, op.range? m.origin = some (address, length) → address.toNat + length ≤ 4096) ∧
    (∀ op refusal, m.perform op = .error refusal → refusal = op.fault? m.origin ∧ m.performed op = m) ∧
    (∀ (address : UInt16) (length : UInt64), address.toNat + length.toNat ≤ 4096 ↔
      ∃ stop, wordEnd? address length = some stop ∧ stop ≤ 4096) ∧
    m.toList.length = 4096 ∧
    (∀ i b, Holds i ops b ↔ m.toList[i.val]? = some b) ∧
    (∀ address, m.read address = (m.toList[address.toNat]?).elim (.error (.unreadable address 1)) .ok) ∧
    ∀ address length, m.slice? address length =
      if address.toNat + length ≤ 4096 then some ((m.toList.drop address.toNat).take length) else none := by
  intro m
  refine ⟨origin_after fresh ops, m.perform_ok_iff, fun _ _ => fault_of_perform, fits_iff_wordEnd?, List.length_ofFn, ?_,
    m.read_eq, m.slice?_eq⟩
  intro i b
  rw [getElem?_toList, dif_pos i.isLt, Option.some.injEq]
  constructor
  · exact bytes_of_holds
  · intro hb
    exact hb ▸ holds_bytes ops i

end Ram

end ChipEight
