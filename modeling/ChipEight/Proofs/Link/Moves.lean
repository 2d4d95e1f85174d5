import ChipEight.Window.Basic

/-!
The two sides of a link, move by move. A producer draws, begins to render, and then takes the steps of that render
one at a time; the viewer may act before any of them. Moves that a side cannot make as things stand do nothing.
-/

namespace ChipEight

inductive ViewerMove where
  | take
  | finish (f : Finish)
  deriving DecidableEq

inductive ProducerMove where
  | toggle (x y : UInt16)
  | clear
  | render
  /-- The next step of the render under way. -/
  | advance
  /-- Lets go of the link. -/
  | hangUp
  deriving DecidableEq

inductive Move where
  | producer (m : ProducerMove)
  | viewer (m : ViewerMove)
  deriving DecidableEq

/-- The frame that a render under way is to send. -/
def Phase.frame? : Phase → Option Frame
  | .idle => none
  | .sending f | .evicting f => some f

theorem Link.advance_hungUp (l : Link) : l.advance.2.hungUp = l.hungUp := by
  unfold advance
  split
  · rfl
  · split <;> rfl
  · split <;> rfl

theorem Link.advance_finish? (l : Link) : l.advance.2.finish? = l.finish? := by
  unfold advance
  split
  · rfl
  · split <;> rfl
  · split <;> rfl

theorem Link.forall_mem_advance {P : Event → Prop} (hreplaced : ∀ n, P (.frameReplaced n)) (l : Link) :
    ∀ e ∈ l.advance.1, P e := by
  unfold advance
  split
  · exact List.forall_mem_nil _
  · split <;> exact List.forall_mem_nil _
  · split
    · exact List.forall_mem_nil _
    · exact List.forall_mem_singleton.mpr (hreplaced _)

def Link.view (l : Link) : ViewerMove → Link
  | .take => if l.isFinished then l else l.receive.2
  | .finish f => l.finish f

/-- All that a viewer can do to a link is to take the frame off it and to end. -/
structure Link.Viewed (l l' : Link) : Prop where
  phase : l'.phase = l.phase
  hungUp : l'.hungUp = l.hungUp
  dropped : l'.dropped = l.dropped
  slot : l'.slot = l.slot ∨ l'.slot = none

namespace Link

theorem Viewed.refl (l : Link) : Viewed l l := ⟨rfl, rfl, rfl, .inl rfl⟩

theorem Viewed.trans {l l' l'' : Link} (h : Viewed l l') (h' : Viewed l' l'') : Viewed l l'' where
  phase := h'.phase.trans h.phase
  hungUp := h'.hungUp.trans h.hungUp
  dropped := h'.dropped.trans h.dropped
  slot := by
    rcases h'.slot with hs | hs
    · rw [hs]
      exact h.slot
    · exact .inr hs

theorem viewed_view (l : Link) (m : ViewerMove) : Viewed l (l.view m) := by
  cases m with
  | take =>
      simp only [view, receive]
      split
      · exact .refl l
      · split
        · exact ⟨rfl, rfl, rfl, .inr rfl⟩
        · exact .refl l
  | finish f => exact ⟨rfl, rfl, rfl, .inl rfl⟩

theorem viewed_foldl (l : Link) (moves : List ViewerMove) : Viewed l (moves.foldl view l) := by
  induction moves generalizing l with
  | nil => exact .refl l
  | cons m moves ih => exact (l.viewed_view m).trans (ih (l.view m))

end Link

namespace Window

@[simp] theorem toggle_link (w : Window) (x y : UInt16) : (Screen.toggle w x y).2.link = w.link := rfl

@[simp] theorem clear_link (w : Window) : (Screen.clear w).link = w.link := rfl

/-- The producer is between two calls: it can be asked for the next one. -/
abbrev IsFree (w : Window) : Prop := w.link.phase = .idle ∧ w.link.hungUp = false

def produce (w : Window) : ProducerMove → Window
  | .toggle x y => if w.IsFree then (Screen.toggle w x y).2 else w
  | .clear => if w.IsFree then Screen.clear w else w
  | .render => if w.IsFree then w.beginRender.2 else w
  | .advance => { w with link := w.link.advance.2 }
  | .hangUp => if w.IsFree then { w with link := w.link.hangUp } else w

theorem produce_finish? (w : Window) (m : ProducerMove) : (w.produce m).link.finish? = w.link.finish? := by
  cases m with
  | toggle x y => simp only [produce]; split <;> rfl
  | clear => simp only [produce]; split <;> rfl
  | render =>
      simp only [produce]
      split
      · simp only [beginRender]
        split <;> rfl
      · rfl
  | advance => exact w.link.advance_finish?
  | hangUp => simp only [produce]; split <;> rfl

theorem produce_of_hungUp {w : Window} (hh : w.link.hungUp = true) (hp : w.link.phase = .idle) (m : ProducerMove) :
    w.produce m = w := by
  have hf : ¬ w.IsFree := fun hf => by rw [hf.2] at hh; cases hh
  cases m with
  | advance => simp [produce, Link.advance_idle hp]
  | _ => exact if_neg hf

theorem idle_of_produce_hungUp {w : Window} (hh : w.link.hungUp = false) {m : ProducerMove}
    (h : (w.produce m).link.hungUp = true) : (w.produce m).link.phase = .idle := by
  cases m with
  | hangUp =>
      simp only [produce] at h ⊢
      split
      · rename_i hf
        exact hf.1
      · rename_i hf
        rw [if_neg hf, hh] at h
        cases h
  | advance =>
      simp only [produce, Link.advance_hungUp, hh] at h
      cases h
  | render =>
      simp only [produce] at h
      split at h
      · simp [beginRender, Link.offer, hh] at h
      · simp [hh] at h
  | toggle x y =>
      simp only [produce] at h
      split at h <;> simp [hh] at h
  | clear =>
      simp only [produce] at h
      split at h <;> simp [hh] at h

def move (w : Window) : Move → Window
  | .producer m => w.produce m
  | .viewer m => { w with link := w.link.view m }

theorem move_render {w : Window} (h : w.IsFree) : w.move (.producer .render) = w.beginRender.2 := if_pos h

/-- With nobody in between, rendering is its first move and the steps that follow. -/
theorem render_eq_moves {w : Window} (h : w.IsFree) :
    (Screen.render w).screen =
      [.producer .render, .producer .advance, .producer .advance, .producer .advance].foldl move w := by
  rw [List.foldl_cons, move_render h]
  rfl

end Window

end ChipEight
