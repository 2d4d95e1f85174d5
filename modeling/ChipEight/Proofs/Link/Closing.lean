import ChipEight.Proofs.Link.Moves
import Mathlib.Data.List.Induction

/-!
A window after its viewer has ended. It says so once, at the first render that finds the viewer gone, and otherwise goes
on as it would before a viewer that takes nothing.
-/

namespace ChipEight

namespace Link

variable {l : Link}

/-- The link as it would be if the viewer had not ended. -/
def reopened (l : Link) : Link := { l with finish? := none }

theorem reopened_advance (l : Link) : l.reopened.advance = (l.advance.1, l.advance.2.reopened) := by
  obtain ⟨slot, phase⟩ := l
  cases phase with
  | idle => rfl
  | sending f => cases slot <;> rfl
  | evicting f => cases slot <;> rfl

theorem isFinished_view (l : Link) (m : ViewerMove) :
    (l.view m).isFinished = true ↔ l.isFinished = true ∨ ∃ f, m = .finish f := by
  cases m with
  | take =>
      simp only [view, receive]
      split
      · rename_i h
        simp [h]
      · split <;> simp [isFinished]
  | finish f => cases h : l.finish? <;> simp [view, finish, isFinished, h]

/-- A viewer that has ended does nothing more. -/
theorem view_of_isFinished (h : l.isFinished = true) (m : ViewerMove) : l.view m = l := by
  cases m with
  | take => exact if_pos h
  | finish f =>
      obtain ⟨f', hf⟩ := Option.isSome_iff_exists.mp h
      cases l
      simp only at hf
      subst hf
      rfl

/-- A render that finds a frame on the link says that it replaces it. -/
theorem settle_offer_events (l : Link) (f : Frame) :
    (l.offer f).settle.1 = l.slot.toList.map fun _ => .frameReplaced (l.dropped + 1) := by
  cases h : l.slot <;> simp [settle, offer, advances, advance, h]

theorem canvasClosed_not_mem_advance (l : Link) : .canvasClosed ∉ l.advance.1 :=
  fun h => l.forall_mem_advance (P := (· ≠ .canvasClosed)) (fun _ => nofun) _ h rfl

end Link

def Move.isProducer : Move → Bool
  | .producer _ => true
  | .viewer _ => false

namespace Window

variable {w : Window}

/-! ## Runs of many moves -/

def run (w : Window) (moves : List Move) : Window := moves.foldl move w

theorem run_snoc (w : Window) (moves : List Move) (m : Move) : w.run (moves ++ [m]) = (w.run moves).move m :=
  List.foldl_append

/-- What a window logs at a move. -/
def logged (w : Window) : Move → List Event
  | .producer .render => if w.IsFree then w.beginRender.1 else []
  | .producer .advance => w.link.advance.1
  | _ => []

def log (w : Window) : List Move → List Event
  | [] => []
  | m :: moves => w.logged m ++ (w.move m).log moves

theorem logged_render (h : w.IsFree) : w.logged (.producer .render) = w.beginRender.1 := if_pos h

/-- With nobody in between, the moves of a render log what rendering logs. -/
theorem events_render (h : w.IsFree) : (Screen.render w).events =
    w.log [.producer .render, .producer .advance, .producer .advance, .producer .advance] := by
  rw [log, logged_render h, move_render h]
  rfl

theorem joined_move (w : Window) (m : Move) : (w.move m).joined = w.joined := by
  cases m with
  | producer m =>
      cases m with
      | advance => rfl
      | _ => simp only [move, produce]; split <;> rfl
  | viewer m => rfl

theorem joined_run (w : Window) (moves : List Move) : (w.run moves).joined = w.joined := by
  induction moves generalizing w with
  | nil => rfl
  | cons m moves ih => exact (ih (w.move m)).trans (w.joined_move m)

/-! ## The end of the viewer -/

/-- The viewer has ended in these moves. -/
def Ended (moves : List Move) : Prop := ∃ f, .viewer (.finish f) ∈ moves

theorem isFinished_move (w : Window) (m : Move) :
    (w.move m).link.isFinished = true ↔ w.link.isFinished = true ∨ ∃ f, m = .viewer (.finish f) := by
  cases m with
  | producer m => simp [move, Link.isFinished, produce_finish?]
  | viewer m => simp [move, Link.isFinished_view]

theorem isFinished_run (w : Window) (moves : List Move) :
    (w.run moves).link.isFinished = true ↔ w.link.isFinished = true ∨ Ended moves := by
  induction moves generalizing w with
  | nil => simp [run, Ended]
  | cons m moves ih =>
      have hrest := ih (w.move m)
      rw [isFinished_move, or_assoc] at hrest
      refine hrest.trans (or_congr_right ?_)
      simp only [Ended, List.mem_cons, exists_or, eq_comm]

theorem isClosed_run (moves : List Move) : (run {} moves).isClosed = true ↔ Ended moves := by
  rw [isClosed, joined_run, Bool.false_or, isFinished_run]
  exact or_iff_right nofun

/-! ## The warning -/

/-- A render was begun after the viewer had ended. -/
def RenderedLate (moves : List Move) : Prop :=
  ∃ before after, moves = before ++ .producer .render :: after ∧ Ended before ∧ (run {} before).IsFree

theorem renderedLate_snoc (moves : List Move) (m : Move) : RenderedLate (moves ++ [m]) ↔
    RenderedLate moves ∨ (m = .producer .render ∧ (run {} moves).IsFree ∧ Ended moves) := by
  constructor
  · rintro ⟨before, after, heq, hended, hfree⟩
    -- the late render is the last move, or the last move comes after it
    rcases List.eq_nil_or_concat after with rfl | ⟨after, last, rfl⟩
    · obtain ⟨rfl, hm⟩ := List.append_inj' heq rfl
      exact .inr ⟨List.singleton_inj.mp hm, hfree, hended⟩
    · rw [List.concat_eq_append, ← List.cons_append, ← List.append_assoc] at heq
      exact .inl ⟨before, after, (List.append_inj' heq rfl).1, hended, hfree⟩
  · rintro (⟨before, after, rfl, hended, hfree⟩ | ⟨rfl, hfree, hended⟩)
    · exact ⟨before, after ++ [m], by simp, hended, hfree⟩
    · exact ⟨moves, [], rfl, hended, hfree⟩

/-- Only a render that begins can warn, or remember that it did. -/
theorem logged_of_not_begun {m : Move} (h : ¬ (m = .producer .render ∧ w.IsFree)) :
    .canvasClosed ∉ w.logged m ∧ (w.move m).warned = w.warned := by
  cases m with
  | viewer m => exact ⟨List.not_mem_nil, rfl⟩
  | producer m =>
      cases m with
      | render =>
          have hfree : ¬ w.IsFree := fun hfree => h ⟨rfl, hfree⟩
          have hlogged : w.logged (.producer .render) = [] := if_neg hfree
          have hmove : w.move (.producer .render) = w := if_neg hfree
          rw [hlogged, hmove]
          exact ⟨List.not_mem_nil, rfl⟩
      | advance => exact ⟨w.link.canvasClosed_not_mem_advance, rfl⟩
      | _ =>
          refine ⟨List.not_mem_nil, ?_⟩
          simp only [move, produce]
          split <;> rfl

theorem canvasClosed_mem_logged (w : Window) (m : Move) : .canvasClosed ∈ w.logged m ↔
    (m = .producer .render ∧ w.IsFree) ∧ w.isClosed = true ∧ w.warned = false := by
  by_cases h : m = .producer .render ∧ w.IsFree
  · obtain ⟨rfl, hfree⟩ := h
    rw [logged_render hfree, and_iff_right ⟨rfl, hfree⟩]
    cases hc : w.isClosed <;> cases hw : w.warned <;> simp [beginRender, hc, hw]
  · exact iff_of_false (logged_of_not_begun h).1 fun hm => h hm.1

theorem warned_move (w : Window) (m : Move) : (w.move m).warned = true ↔
    w.warned = true ∨ (m = .producer .render ∧ w.IsFree) ∧ w.isClosed = true := by
  by_cases h : m = .producer .render ∧ w.IsFree
  · obtain ⟨rfl, hfree⟩ := h
    rw [move_render hfree, and_iff_right ⟨rfl, hfree⟩, beginRender, Bool.or_eq_true]
  · rw [(logged_of_not_begun h).2]
    exact (or_iff_left fun hm => h hm.1).symm

/-- The warning is remembered from the first late render on. -/
theorem warned_run (moves : List Move) : (run {} moves).warned = true ↔ RenderedLate moves := by
  induction moves using List.reverseRecOn with
  | nil => exact iff_of_false nofun fun ⟨_, _, heq, _⟩ => by simp at heq
  | append_singleton moves m ih => rw [run_snoc, warned_move, ih, isClosed_run, renderedLate_snoc, and_assoc]

theorem count_logged (w : Window) (m : Move) :
    (w.logged m).count .canvasClosed + w.warned.toNat = (w.move m).warned.toNat := by
  by_cases h : m = .producer .render ∧ w.IsFree
  · obtain ⟨rfl, hfree⟩ := h
    rw [logged_render hfree, move_render hfree]
    cases hc : w.isClosed <;> cases hw : w.warned <;> simp [beginRender, hc, hw]
  · obtain ⟨hsilent, hwarned⟩ := logged_of_not_begun h
    rw [List.count_eq_zero.mpr hsilent, hwarned, Nat.zero_add]

theorem count_log (w : Window) (moves : List Move) :
    (w.log moves).count .canvasClosed + w.warned.toNat = (w.run moves).warned.toNat := by
  induction moves generalizing w with
  | nil => exact Nat.zero_add _
  | cons m moves ih =>
      have hfirst := w.count_logged m
      have hrest : _ = (w.run (m :: moves)).warned.toNat := ih (w.move m)
      rw [log, List.count_append]
      omega

/-! ## Going on without a viewer -/

/-- The window as it would be if the viewer had not ended. -/
def reopened (w : Window) : Window := { w with warned := false, link := w.link.reopened }

section

variable (hjoined : w.joined = false)

include hjoined

/-- Before a viewer that has not ended, a render begins alike, but without a warning. -/
theorem reopened_beginRender : w.reopened.beginRender =
    (w.beginRender.1.filter (· ≠ .canvasClosed), w.beginRender.2.reopened) := by
  have hopen : w.reopened.isClosed = false := by
    simp [isClosed, reopened, Link.reopened, Link.isFinished, hjoined]
  unfold beginRender
  rw [hopen]
  refine Prod.ext ?_ ?_
  · rw [Bool.false_and, if_neg Bool.false_ne_true]
    split <;> simp
  · simp only [reopened, Bool.or_false]
    cases hhung : w.link.hungUp <;> simp [Link.reopened, Link.offer, hhung]

theorem reopened_produce (m : ProducerMove) : (w.produce m).reopened = w.reopened.produce m := by
  cases m with
  | advance => simp only [produce, reopened, Link.reopened_advance]
  | render =>
      by_cases hfree : w.IsFree
      · have hfree' : w.reopened.IsFree := hfree
        rw [produce, if_pos hfree, produce, if_pos hfree', reopened_beginRender hjoined]
      · have hfree' : ¬ w.reopened.IsFree := hfree
        rw [produce, if_neg hfree, produce, if_neg hfree']
  | _ =>
      by_cases hfree : w.IsFree
      · have hfree' : w.reopened.IsFree := hfree
        simp only [produce, if_pos hfree, if_pos hfree']
        rfl
      · have hfree' : ¬ w.reopened.IsFree := hfree
        simp only [produce, if_neg hfree, if_neg hfree']

theorem logged_reopened (m : ProducerMove) :
    w.reopened.logged (.producer m) = (w.logged (.producer m)).filter (· ≠ .canvasClosed) := by
  cases m with
  | render =>
      by_cases hfree : w.IsFree
      · have hfree' : w.reopened.IsFree := hfree
        rw [logged_render hfree, logged_render hfree', reopened_beginRender hjoined]
      · have hfree' : ¬ w.reopened.IsFree := hfree
        simp only [logged, if_neg hfree, if_neg hfree']
        rfl
  | advance =>
      simp only [logged, reopened, Link.reopened_advance]
      refine (List.filter_eq_self.mpr fun e he => ?_).symm
      have hne : e ≠ .canvasClosed := fun h => w.link.canvasClosed_not_mem_advance (h ▸ he)
      exact decide_eq_true hne
  | _ => rfl

/-- After the viewer has ended, the moves of the producer do what they would have done before a viewer that takes
nothing, and the log says the same but for the warning. -/
theorem run_reopened (hfinished : w.link.isFinished = true) (later : List Move) :
    (w.run later).reopened = w.reopened.run (later.filter Move.isProducer) ∧
    (w.log later).filter (· ≠ .canvasClosed) = w.reopened.log (later.filter Move.isProducer) := by
  induction later generalizing w with
  | nil => exact ⟨rfl, rfl⟩
  | cons m later ih =>
      cases m with
      | viewer m =>
          have hmove : w.move (.viewer m) = w := by
            rw [move, Link.view_of_isFinished hfinished]
          obtain ⟨hrun, hlog⟩ := ih hjoined hfinished
          have hrun' : w.run (.viewer m :: later) = w.run later := congrArg (run · later) hmove
          have hlog' : w.log (.viewer m :: later) = w.log later := congrArg (log · later) hmove
          rw [hrun', hlog']
          exact ⟨hrun, hlog⟩
      | producer m =>
          have hjoined' : (w.produce m).joined = false := (w.joined_move (.producer m)).trans hjoined
          have hfinished' : (w.produce m).link.isFinished = true := by
            rw [Link.isFinished, produce_finish?]
            exact hfinished
          obtain ⟨hrun, hlog⟩ := ih hjoined' hfinished'
          rw [reopened_produce hjoined] at hrun hlog
          refine ⟨hrun, ?_⟩
          have hlog' : w.log (.producer m :: later) = w.logged (.producer m) ++ (w.produce m).log later := rfl
          rw [hlog', List.filter_append, hlog, ← logged_reopened hjoined]
          rfl

end

/-- A window tells that its viewer has ended when it is asked, from then on, and of itself once: at the first render
after the end. Whatever happens after the end, it answers and goes on as it would before a viewer that takes nothing.
The next render throws a frame away that the viewer has left behind, and counts it. -/
theorem end_told_once (moves : List Move) :
    let w := run {} moves
    ((Screen.isClosed w).1 = true ↔ Ended moves) ∧ (Screen.isClosed w).2 = w ∧
    (RenderedLate moves → (log {} moves).count .canvasClosed = 1) ∧
    (¬ RenderedLate moves → .canvasClosed ∉ log {} moves) ∧
    (∀ m, .canvasClosed ∈ w.logged m ↔
      (m = .producer .render ∧ w.IsFree) ∧ Ended moves ∧ ¬ RenderedLate moves) ∧
    (Ended moves →
      (∀ later : List Move,
        let after := w.run later
        let live := w.reopened.run (later.filter Move.isProducer)
        (∀ x y, (Screen.toggle after x y).1 = (Screen.toggle live x y).1) ∧
        (Screen.render after).result = (Screen.render live).result ∧
        after.reopened = live ∧ after.link.slot.toList.length ≤ 1 ∧
        (w.log later).filter (· ≠ .canvasClosed) = w.reopened.log (later.filter Move.isProducer)) ∧
      ∀ old, w.IsFree → w.link.slot = some old →
        (Screen.render w).result = .ok () ∧
        (Screen.render w).screen.link = { w.link with slot := some w.frame, dropped := w.link.dropped + 1 } ∧
        .frameReplaced (w.link.dropped + 1) ∈ (Screen.render w).events) := by
  intro w
  have hwarned : w.warned = true ↔ RenderedLate moves := warned_run moves
  have hcount : (log {} moves).count .canvasClosed = w.warned.toNat := count_log {} moves
  refine ⟨isClosed_run moves, rfl, ?_, ?_, ?_, fun hended => ⟨?_, ?_⟩⟩
  · intro hlate
    rw [hcount, hwarned.mpr hlate]
    rfl
  · intro hlate
    rw [← List.count_eq_zero, hcount, Bool.eq_false_iff.mpr (hwarned.not.mpr hlate)]
    rfl
  · intro m
    rw [canvasClosed_mem_logged, isClosed_run, ← Bool.not_eq_true, hwarned]
  · intro later after live
    have hjoined : w.joined = false := joined_run {} moves
    have hfinished : w.link.isFinished = true := (isFinished_run {} moves).mpr (.inr hended)
    obtain ⟨hrun, hlog⟩ := run_reopened hjoined hfinished later
    have hlive : after.reopened = live := hrun
    rw [← hlive]
    refine ⟨fun _ _ => rfl, rfl, rfl, ?_, hlog⟩
    cases after.link.slot <;> simp
  · intro old hfree hold
    have hbegun : w.beginRender.2.link = w.link.offer w.frame := if_neg (by simp [hfree.2])
    have hlink : (Screen.render w).screen.link = w.beginRender.2.link.settle.2 := rfl
    have hevents : (Screen.render w).events = w.beginRender.1 ++ w.beginRender.2.link.settle.1 := rfl
    refine ⟨rfl, ?_, ?_⟩
    · rw [hlink, hbegun, Link.settle_offer, hold, ← hfree.1]
      rfl
    · rw [hevents, hbegun, Link.settle_offer_events, hold]
      exact List.mem_append_right _ (List.mem_singleton.mpr rfl)

end Window

end ChipEight
