import ChipEight.Proofs.Screen.Recorded

/-!
What a screen is told to do, and how far that gets: orders are carried out one after the other, and the first that fails
is the last.
-/

namespace ChipEight

/-- A call before it is answered. -/
inductive ScreenOrder where
  | clear
  | toggle (x y : Nat)
  | render
  deriving DecidableEq

def ScreenOrder.flip (p : Nat × Nat) : ScreenOrder := toggle p.1 p.2

/-- What an answer says went wrong. -/
def errorOf? {ε α : Type} : Except ε α → Option ε
  | .error e => some e
  | .ok _ => none

theorem mapError_eq_elim {ε δ : Type} (f : ε → δ) (r : Except ε Unit) :
    r.mapError f = (errorOf? r).elim (.ok ()) fun e => .error (f e) := by
  cases r with
  | error e => rfl
  | ok u => rfl

namespace ScreenCall

def order : ScreenCall → ScreenOrder
  | clear => .clear
  | toggle x y _ => .toggle x.toNat y.toNat
  | render _ => .render

def failure? : ScreenCall → Option ScreenFault
  | clear => none
  | toggle _ _ answer => errorOf? answer
  | render answer => errorOf? answer

/-- Clearing never fails. -/
theorem failure?_of_clear {c : ScreenCall} (h : c.order = .clear) : c.failure? = none := by
  cases c with
  | clear => rfl
  | _ => cases h

end ScreenCall

def firstFailure? (calls : List ScreenCall) : Option ScreenFault := calls.findSome? ScreenCall.failure?

theorem firstFailure?_cons_of_none {c : ScreenCall} (h : c.failure? = none) (calls : List ScreenCall) :
    firstFailure? (c :: calls) = firstFailure? calls := by
  rw [firstFailure?, List.findSome?_cons, h]
  rfl

theorem firstFailure?_cons_of_some {c : ScreenCall} {e : ScreenFault} (h : c.failure? = some e) (calls : List ScreenCall) :
    firstFailure? (c :: calls) = some e := by
  rw [firstFailure?, List.findSome?_cons, h]

theorem firstFailure?_singleton (c : ScreenCall) : firstFailure? [c] = c.failure? := by
  cases h : c.failure? with
  | none => exact firstFailure?_cons_of_none h []
  | some e => exact firstFailure?_cons_of_some h []

theorem firstFailure?_append (calls later : List ScreenCall) :
    firstFailure? (calls ++ later) = (firstFailure? calls).or (firstFailure? later) :=
  List.findSome?_append

/-- The calls that come of orders: one for each, in order, and none after one that has failed. -/
inductive Follows : List ScreenOrder → List ScreenCall → Prop where
  | nil : Follows [] []
  | failed {c : ScreenCall} {e : ScreenFault} {plan : List ScreenOrder} : c.failure? = some e →
      Follows (c.order :: plan) [c]
  | cons {c : ScreenCall} {plan : List ScreenOrder} {calls : List ScreenCall} : c.failure? = none → Follows plan calls →
      Follows (c.order :: plan) (c :: calls)

namespace Follows

variable {plan more : List ScreenOrder} {calls later : List ScreenCall}

theorem singleton (c : ScreenCall) : Follows [c.order] [c] := by
  cases h : c.failure? with
  | none => exact .cons h .nil
  | some e => exact .failed h

theorem append (h : Follows plan calls) (hok : firstFailure? calls = none) (hmore : Follows more later) :
    Follows (plan ++ more) (calls ++ later) := by
  induction h with
  | nil => exact hmore
  | failed hc =>
      rw [firstFailure?_cons_of_some hc] at hok
      cases hok
  | cons hc _ ih =>
      rw [firstFailure?_cons_of_none hc] at hok
      exact .cons hc (ih hok)

theorem append_of_failed (h : Follows plan calls) {e : ScreenFault} (hfailed : firstFailure? calls = some e)
    (more : List ScreenOrder) : Follows (plan ++ more) calls := by
  induction h with
  | nil => cases hfailed
  | failed hc => exact .failed hc
  | cons hc _ ih =>
      rw [firstFailure?_cons_of_none hc] at hfailed
      exact .cons hc (ih hfailed)

theorem order_mem (h : Follows plan calls) {c : ScreenCall} (hc : c ∈ calls) : c.order ∈ plan := by
  induction h with
  | nil => cases hc
  | failed _ =>
      obtain rfl := List.mem_singleton.mp hc
      exact List.mem_cons_self
  | cons _ _ ih =>
      obtain rfl | hc := List.mem_cons.mp hc
      · exact List.mem_cons_self
      · exact List.mem_cons_of_mem _ (ih hc)

theorem eq_nil (h : Follows [] calls) : calls = [] := by
  cases h
  rfl

/-- What comes last in a plan is asked just if all before it succeeds. -/
theorem countP_render {flips : List (Nat × Nat)} (h : Follows (flips.map .flip ++ [.render]) calls) :
    calls.countP (·.order = .render) = (calls.all fun c => c.order = .render || c.failure?.isNone).toNat := by
  induction flips generalizing calls with
  | nil =>
      generalize hplan : [].map ScreenOrder.flip ++ [.render] = plan at h
      cases h with
      | nil => cases hplan
      | @failed c _ _ _ =>
          have hc : c.order = .render := (List.cons.inj hplan).1.symm
          simp [hc]
      | @cons c _ _ _ hrest =>
          obtain ⟨hc, rfl⟩ := List.cons.inj hplan
          obtain rfl := hrest.eq_nil
          simp [hc.symm]
  | cons p flips ih =>
      generalize hplan : (p :: flips).map ScreenOrder.flip ++ [.render] = plan at h
      cases h with
      | nil => cases hplan
      | @failed c _ _ hfailed =>
          have hc : c.order = .flip p := (List.cons.inj hplan).1.symm
          simp [hc, ScreenOrder.flip, hfailed]
      | @cons c _ _ hok hrest =>
          obtain ⟨hc, rfl⟩ := List.cons.inj hplan
          have hc : c.order ≠ .render := hc ▸ nofun
          simp [hc, hok, ih hrest]

/-- Nothing is asked after a failure. -/
theorem pairwise (h : Follows plan calls) : calls.Pairwise fun earlier _ => earlier.failure? = none := by
  induction h with
  | nil => exact .nil
  | failed _ => exact List.pairwise_singleton _ _
  | cons hc _ ih => exact .cons (fun _ _ => hc) ih

end Follows

end ChipEight
