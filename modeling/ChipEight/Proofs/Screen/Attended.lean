import ChipEight.Proofs.Link.Moves
import ChipEight.Proofs.Screen.Mirror

/-!
A window in front of a viewer who may do anything between any two steps of the producer. It mirrors the bare picture
all the same, and every render comes to its end.
-/

namespace ChipEight

/-- A window with all that its viewer is going to do: one list of moves before each step of the producer, none after
the lists have run out. -/
structure Attended where
  window : Window := {}
  plan : List (List ViewerMove) := []

namespace Attended

def attend (a : Attended) : Attended where
  window := { a.window with link := (a.plan.headD []).foldl Link.view a.window.link }
  plan := a.plan.tail

def advance (a : Attended) : List Event × Attended :=
  let a := a.attend
  let (events, link) := a.window.link.advance
  (events, { a with window := { a.window with link } })

def advances : Nat → Attended → List Event × Attended
  | 0, a => ([], a)
  | n + 1, a =>
      let (first, a) := a.advance
      let (rest, a) := advances n a
      (first ++ rest, a)

/-- The steps of `Window.render`, with the viewer in between. -/
def render (a : Attended) : Shown Attended :=
  let a := a.attend
  let (begun, window) := a.window.beginRender
  let (sent, a) := advances 3 { a with window }
  ⟨.ok (), begun ++ sent, a⟩

end Attended

instance : Screen Attended where
  clear a := let a := a.attend; { a with window := Screen.clear a.window }
  toggle a x y :=
    let a := a.attend
    let (r, window) := Screen.toggle a.window x y
    (r, { a with window })
  render := Attended.render
  isClosed a := let a := a.attend; (a.window.isClosed, a)

/-! ## The viewer cannot keep a render from ending -/

/-- What a producer tries in one step of a render: to put its frame on the link, or to take the stale one off. -/
inductive Attempt where
  | send
  | evict
  deriving DecidableEq

def Phase.attempt? : Phase → Option Attempt
  | .idle => none
  | .sending _ => some .send
  | .evicting _ => some .evict

namespace Link

variable {l : Link} {f : Frame}

/-- Only a try to take a frame off can count one as thrown away. -/
theorem dropped_advance (l : Link) : l.dropped ≤ l.advance.2.dropped ∧
    l.advance.2.dropped ≤ l.dropped + l.phase.attempt?.toList.count .evict := by
  unfold advance
  cases l.phase with
  | idle => exact ⟨Nat.le_refl _, Nat.le_refl _⟩
  | sending f => cases l.slot <;> exact ⟨Nat.le_refl _, Nat.le_refl _⟩
  | evicting f => cases l.slot <;> simp [Phase.attempt?]

theorem advance_sending (h : l.phase = .sending f) (hs : l.slot = none) : l.advance.2.phase = .idle := by
  simp [advance, h, hs]

theorem advance_sending_full {old : Frame} (h : l.phase = .sending f) (hs : l.slot = some old) :
    l.advance.2.phase = .evicting f := by
  simp [advance, h, hs]

/-- After a try to take the stale frame off there is none, whether there still was one or not. -/
theorem advance_evicting (h : l.phase = .evicting f) :
    l.advance.2.phase = .sending f ∧ l.advance.2.slot = none := by
  cases hs : l.slot <;> simp [advance, h, hs]

end Link

namespace Attended

/-- The window once it has taken up its picture for a render. -/
def begun (a : Attended) : Attended := { a.attend with window := a.attend.window.beginRender.2 }

/-- What the producer tries in its next `n` steps. -/
def attempts : Nat → Attended → List Attempt
  | 0, _ => []
  | n + 1, a => a.window.link.phase.attempt?.toList ++ attempts n a.advance.2

/-- However many steps the producer takes, it makes these attempts and no others, and then its render is over. -/
structure Settles (a : Attended) (tries : List Attempt) : Prop where
  attempts_eq : ∀ n, attempts n a = tries.take n
  idle : ∀ n, tries.length ≤ n → (advances n a).2.window.link.phase = .idle
  le_dropped : ∀ n, a.window.link.dropped ≤ (advances n a).2.window.link.dropped
  dropped_le : ∀ n, (advances n a).2.window.link.dropped ≤ a.window.link.dropped + tries.count .evict

variable {a : Attended} {f : Frame} {t : Attempt} {tries : List Attempt}

theorem viewed_attend (a : Attended) : a.window.link.Viewed a.attend.window.link := a.window.link.viewed_foldl _

theorem idle_advance (h : a.window.link.phase = .idle) : a.advance.2.window.link = a.attend.window.link :=
  congrArg Prod.snd (Link.advance_idle ((viewed_attend a).phase.trans h))

theorem settles_idle (h : a.window.link.phase = .idle) : a.Settles [] := by
  have hsteps : ∀ n, attempts n a = [] ∧ (advances n a).2.window.link.phase = .idle ∧
      (advances n a).2.window.link.dropped = a.window.link.dropped := by
    intro n
    induction n generalizing a with
    | zero => exact ⟨rfl, h, rfl⟩
    | succ n ih =>
        have hlink := idle_advance h
        have hviewed := viewed_attend a
        obtain ⟨htries, hidle, hdropped⟩ := ih (hlink ▸ hviewed.phase.trans h)
        refine ⟨?_, hidle, hdropped.trans (hlink ▸ hviewed.dropped)⟩
        rw [attempts, h, htries]
        rfl
  exact {
    attempts_eq := fun n => (hsteps n).1.trans List.take_nil.symm
    idle := fun n _ => (hsteps n).2.1
    le_dropped := fun n => Nat.le_of_eq (hsteps n).2.2.symm
    dropped_le := fun n => Nat.le_of_eq (hsteps n).2.2 }

theorem Settles.cons (h : a.advance.2.Settles tries) (ht : a.window.link.phase.attempt? = some t) :
    a.Settles (t :: tries) := by
  obtain ⟨hmore, hless⟩ := a.attend.window.link.dropped_advance
  have hviewed := viewed_attend a
  rw [hviewed.phase, ht, hviewed.dropped] at hless
  rw [hviewed.dropped] at hmore
  have hadvance : a.advance.2.window.link = a.attend.window.link.advance.2 := rfl
  rw [← hadvance] at hmore hless
  have hcount : (t :: tries).count .evict = [t].count .evict + tries.count .evict := by
    rw [← List.singleton_append, List.count_append]
  exact {
    attempts_eq := by
      intro n
      cases n with
      | zero => rfl
      | succ n =>
          rw [attempts, ht, h.attempts_eq n]
          rfl
    idle := by
      intro n hn
      cases n with
      | zero => cases hn
      | succ n => exact h.idle n (Nat.le_of_succ_le_succ hn)
    le_dropped := by
      intro n
      cases n with
      | zero => exact Nat.le_refl _
      | succ n => exact Nat.le_trans hmore (h.le_dropped n)
    dropped_le := by
      intro n
      cases n with
      | zero => exact Nat.le_add_right _ _
      | succ n =>
          have hrest : (advances (n + 1) a).2.window.link.dropped ≤ _ := h.dropped_le n
          rw [hcount]
          simp only [Option.toList_some] at hless
          omega }

/-- With nothing on the link, the first try succeeds. -/
theorem settles_sending_empty (h : a.window.link.phase = .sending f) (hs : a.window.link.slot = none) :
    a.Settles [.send] := by
  have hviewed := viewed_attend a
  have hslot : a.attend.window.link.slot = none := by
    rcases hviewed.slot with hs' | hs'
    · exact hs'.trans hs
    · exact hs'
  have hidle : a.advance.2.window.link.phase = .idle := Link.advance_sending (hviewed.phase.trans h) hslot
  exact (settles_idle hidle).cons (by rw [h]; rfl)

/-- Whoever took the stale frame, the next try succeeds: the viewer puts nothing on the link. -/
theorem settles_evicting (h : a.window.link.phase = .evicting f) : a.Settles [.evict, .send] := by
  obtain ⟨hphase, hslot⟩ := Link.advance_evicting ((viewed_attend a).phase.trans h)
  exact (settles_sending_empty hphase hslot).cons (by rw [h]; rfl)

theorem settles_sending (h : a.window.link.phase = .sending f) :
    a.Settles [.send] ∨ a.Settles [.send, .evict, .send] := by
  have hattempt : a.window.link.phase.attempt? = some .send := by rw [h]; rfl
  have hphase := (viewed_attend a).phase.trans h
  -- what was on the link before does not decide it: the viewer may have taken that right before the try
  cases hs : a.attend.window.link.slot with
  | none =>
      have hidle : a.advance.2.window.link.phase = .idle := Link.advance_sending hphase hs
      exact .inl ((settles_idle hidle).cons hattempt)
  | some old =>
      have hfull : a.advance.2.window.link.phase = .evicting f := Link.advance_sending_full hphase hs
      exact .inr ((settles_evicting hfull).cons hattempt)

theorem exists_settles (a : Attended) : ∃ tries : List Attempt, tries.length ≤ 3 ∧ a.Settles tries := by
  cases h : a.window.link.phase with
  | idle => exact ⟨[], by decide, settles_idle h⟩
  | sending f =>
      rcases settles_sending h with h | h
      · exact ⟨_, by decide, h⟩
      · exact ⟨_, by decide, h⟩
  | evicting f => exact ⟨_, by decide, settles_evicting h⟩

/-- Whatever the viewer does meanwhile, a render comes to its end. -/
theorem idle_render (a : Attended) : (Screen.render a).screen.window.link.phase = .idle := by
  obtain ⟨tries, hlength, hsettles⟩ := a.begun.exists_settles
  exact hsettles.idle 3 hlength

theorem render_of_plan_nil (w : Window) :
    (Screen.render ({ window := w } : Attended)).screen = { window := (Screen.render w).screen } := rfl

/-! ## The picture -/

theorem frame_advances (n : Nat) (a : Attended) : (advances n a).2.window.frame = a.window.frame := by
  induction n generalizing a with
  | zero => rfl
  | succ n ih => exact ih a.advance.2

theorem mirrors : Screen.Mirrors (fun _ : Attended => True) (·.window.frame) where
  clear _ _ := ⟨rfl, trivial⟩
  toggle _ _ _ _ := ⟨rfl, trivial⟩
  render a _ := ⟨rfl, (frame_advances 3 { a.attend with window := a.attend.window.beginRender.2 }).symm, trivial⟩

end Attended

end ChipEight
