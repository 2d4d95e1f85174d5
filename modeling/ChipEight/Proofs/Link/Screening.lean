import ChipEight.Canvas.Viewer
import ChipEight.Proofs.Link.Ledger

/-!
The viewer's loop at the far end of a link, and the producer at the near one, each making its moves whenever it likes.
As long as nobody quits, the loop outlives the producer and ends on the picture that was rendered last.
-/

namespace ChipEight

inductive PaintCause where
  | opening
  | receipt
  | resize
  deriving DecidableEq

/-- What a viewer does, as it can be seen from outside. -/
inductive Deed where
  | received (f : Frame)
  | painted (cause : PaintCause) (f : Frame)
  deriving DecidableEq

namespace Deed

@[simp] def received? : Deed → Option Frame
  | received f => some f
  | painted _ _ => none

@[simp] def painted? : Deed → Option Frame
  | received _ => none
  | painted _ f => some f

@[simp] def paintedOnReceipt? : Deed → Option Frame
  | painted .receipt f => some f
  | _ => none

/-- The frame that came last, the blank one before any. -/
def latest (deeds : List Deed) : Frame := (deeds.filterMap received?).getLastD .blank

@[simp] theorem latest_received (deeds : List Deed) (f : Frame) : latest (deeds ++ [received f]) = f := by
  simp [latest]

@[simp] theorem latest_painted (deeds : List Deed) (cause : PaintCause) (f : Frame) :
    latest (deeds ++ [painted cause f]) = latest deeds := by
  simp [latest, List.filterMap_cons]

def PaintsLatest (deeds : List Deed) : Prop :=
  ∀ before cause f after, deeds = before ++ painted cause f :: after → f = latest before

theorem PaintsLatest.snoc {deeds : List Deed} {d : Deed} (h : PaintsLatest deeds)
    (hd : ∀ f ∈ d.painted?, f = latest deeds) : PaintsLatest (deeds ++ [d]) := by
  intro before cause f after he
  rcases List.eq_nil_or_concat after with rfl | ⟨after, d', rfl⟩
  · obtain ⟨rfl, hf⟩ := List.append_inj' he rfl
    exact hd f (by simp [List.singleton_inj.mp hf, painted?])
  · rw [List.concat_eq_append, ← List.cons_append, ← List.append_assoc] at he
    exact h before cause f after (List.append_inj' he rfl).1

end Deed

/-! ## The viewer's moves -/

namespace Showing

variable {s : Showing}

theorem look_of_frame {f : Frame} (ho : s.viewer.isOpen = true) (hs : s.window.link.slot = some f) :
    s.look = ([f], { window := { s.window with link := s.window.link.receive.2 }
                     viewer := { s.viewer with shown := f } }) := by
  simp [look, ho, Link.receive, hs, Viewer.receive, leave]

theorem look_of_empty (ho : s.viewer.isOpen = true) (hs : s.window.link.slot = none)
    (hh : s.window.link.hungUp = false) : s.look = ([], s) := by
  simp [look, ho, Link.receive, hs, hh, Viewer.receive, leave]

theorem look_of_hungUp (ho : s.viewer.isOpen = true) (hs : s.window.link.slot = none)
    (hh : s.window.link.hungUp = true) :
    s.look = ([], { window := { s.window with link := s.window.link.finish .ok }
                    viewer := { s.viewer with isOpen := false } }) := by
  simp [look, ho, Link.receive, hs, hh, Viewer.receive, leave]

theorem respond_eq {event : Option TerminalEvent} (hq : ∀ k, event = some (.key k) → k.isQuit = false) :
    ∃ painted : List Frame, s.respond event = (painted, s) ∧ (painted = [] ∨ painted = [s.viewer.shown]) := by
  cases ho : s.viewer.isOpen with
  | false => exact ⟨[], by simp [respond, ho], .inl rfl⟩
  | true =>
      rcases event with _ | k | _
      · exact ⟨[], by simp [respond, ho, Viewer.handle, leave], .inl rfl⟩
      · exact ⟨[], by simp [respond, ho, Viewer.handle, leave, hq k rfl], .inl rfl⟩
      · exact ⟨[s.viewer.shown], by simp [respond, ho, Viewer.handle, leave], .inr rfl⟩

end Showing

/-! ## Both sides at work -/

inductive Act where
  | producer (m : ProducerMove)
  | look
  | respond (event : Option TerminalEvent)
  deriving DecidableEq

/-- A window in front of its viewer, with the account of the link and the deeds of the viewer. -/
structure Screening where
  showing : Showing := {}
  /-- The viewer has looked for a frame and is to look for an event. -/
  looked : Bool := false
  ledger : Ledger := {}
  deeds : List Deed := [.painted .opening .blank]

namespace Screening

abbrev link (s : Screening) : Link := s.showing.window.link

/-- A move that its side cannot make as things stand does nothing: a viewer looks for frames and for events by turns,
until it ends. -/
def act (s : Screening) : Act → Screening
  | .producer m =>
      { s with
        showing := { s.showing with window := s.showing.window.produce m }
        ledger := s.ledger.produce s.showing.window m }
  | .look =>
      if s.looked = false ∧ s.showing.viewer.isOpen = true then
        { showing := s.showing.look.2
          looked := true
          ledger := s.ledger.take s.link
          deeds := s.deeds ++ s.link.slot.toList.map .received ++ s.showing.look.1.map (.painted .receipt) }
      else s
  | .respond event =>
      if s.looked = true ∧ s.showing.viewer.isOpen = true then
        { s with
          showing := (s.showing.respond event).2
          looked := false
          deeds := s.deeds ++ (s.showing.respond event).1.map (.painted .resize) }
      else s

def run (s : Screening) (acts : List Act) : Screening := acts.foldl act s

/-- How the two sides stand at every moment, if nobody quits. -/
structure Orderly (s : Screening) : Prop where
  balanced : s.ledger.Balanced s.link
  idle : s.link.hungUp = true → s.link.phase = .idle
  finish?_eq : s.link.finish? = if s.showing.viewer.isOpen then none else some .ok
  ended : s.showing.viewer.isOpen = false → s.link.hungUp = true ∧ s.link.slot = none
  received_eq : s.deeds.filterMap Deed.received? = s.ledger.taken.map (·.1)
  paintedOnReceipt_eq : s.deeds.filterMap Deed.paintedOnReceipt? = s.ledger.taken.map (·.1)
  shown_eq : s.showing.viewer.shown = Deed.latest s.deeds
  last_painted : (s.deeds.filterMap Deed.painted?).getLast? = some s.showing.viewer.shown
  paintsLatest : Deed.PaintsLatest s.deeds

namespace Orderly

variable {s : Screening}

theorem start : Orderly {} where
  balanced := .start
  idle _ := rfl
  finish?_eq := rfl
  ended := nofun
  received_eq := rfl
  paintedOnReceipt_eq := rfl
  shown_eq := rfl
  last_painted := rfl
  paintsLatest := by
    intro before cause f after he
    cases before with
    | nil => simp at he; simp [← he.1.2, Deed.latest]
    | cons d before => simp at he

theorem producer (h : Orderly s) (m : ProducerMove) : Orderly (s.act (.producer m)) := by
  cases hh : s.link.hungUp with
  | true =>
      -- after the hang-up the producer is out of the game
      have hs : s.act (.producer m) = s := by
        simp only [act, Window.produce_of_hungUp hh (h.idle hh), Ledger.produce_of_hungUp _ hh (h.idle hh)]
      rw [hs]
      exact h
  | false => exact {
      balanced := h.balanced.produce m
      idle := Window.idle_of_produce_hungUp hh
      finish?_eq := (Window.produce_finish? _ m).trans h.finish?_eq
      ended := by
        intro ho
        have := (h.ended ho).1
        rw [hh] at this
        cases this
      received_eq := by
        simp only [act, Ledger.taken_produce]
        exact h.received_eq
      paintedOnReceipt_eq := by
        simp only [act, Ledger.taken_produce]
        exact h.paintedOnReceipt_eq
      shown_eq := h.shown_eq
      last_painted := h.last_painted
      paintsLatest := h.paintsLatest }

theorem look_frame (h : Orderly s) (hl : s.looked = false) (ho : s.showing.viewer.isOpen = true) {f : Frame}
    (hs : s.link.slot = some f) : Orderly (s.act .look) := by
  have hfin := h.finish?_eq
  have ht : s.ledger.take s.link = { s.ledger with taken := s.ledger.taken ++ [(f, s.ledger.posted)] } :=
    Ledger.take_of_some hs
  have hr : s.link.receive.2 = { s.link with slot := none } := by simp only [Link.receive, hs]
  have ha : s.act .look =
      { showing := ⟨{ s.showing.window with link := s.link.receive.2 }, { s.showing.viewer with shown := f }⟩
        looked := true
        ledger := s.ledger.take s.link
        deeds := s.deeds ++ [.received f] ++ [.painted .receipt f] } := by
    simp only [act, hl, ho, and_self, ↓reduceIte, Showing.look_of_frame ho hs, hs]
    rfl
  rw [ha]
  exact {
    balanced := h.balanced.take
    idle := by simpa only [hr] using h.idle
    finish?_eq := by simpa only [hr] using hfin
    ended := fun he => by simp [ho] at he
    received_eq := by simp [ht, h.received_eq, List.filterMap_cons]
    paintedOnReceipt_eq := by simp [ht, h.paintedOnReceipt_eq, List.filterMap_cons]
    shown_eq := by rw [Deed.latest_painted, Deed.latest_received]
    last_painted := by simp [List.filterMap_cons]
    paintsLatest := by
      refine (h.paintsLatest.snoc ?_).snoc ?_
      · intro f' hf'
        cases hf'
      · intro f' hf'
        rw [Deed.latest_received]
        exact (Option.some.inj hf').symm }

theorem look_hungUp (h : Orderly s) (hl : s.looked = false) (ho : s.showing.viewer.isOpen = true)
    (hs : s.link.slot = none) (hh : s.link.hungUp = true) : Orderly (s.act .look) := by
  have hfin := h.finish?_eq
  rw [ho] at hfin
  have ht : s.ledger.take s.link = s.ledger := Ledger.take_of_none hs
  have ha : s.act .look =
      { showing := ⟨{ s.showing.window with link := s.link.finish .ok }, { s.showing.viewer with isOpen := false }⟩
        looked := true
        ledger := s.ledger
        deeds := s.deeds } := by
    simp [act, hl, ho, Showing.look_of_hungUp ho hs hh, hs, ht]
  rw [ha]
  exact {
    balanced := h.balanced.of_eq rfl rfl rfl
    idle := h.idle
    finish?_eq := by simp [Link.finish, hfin]
    ended := fun _ => ⟨hh, hs⟩
    received_eq := h.received_eq
    paintedOnReceipt_eq := h.paintedOnReceipt_eq
    shown_eq := h.shown_eq
    last_painted := h.last_painted
    paintsLatest := h.paintsLatest }

theorem look (h : Orderly s) : Orderly (s.act .look) := by
  by_cases hc : s.looked = false ∧ s.showing.viewer.isOpen = true
  · obtain ⟨hl, ho⟩ := hc
    cases hs : s.link.slot with
    | some f => exact h.look_frame hl ho hs
    | none =>
        cases hh : s.link.hungUp with
        | true => exact h.look_hungUp hl ho hs hh
        | false =>
            have ht : s.ledger.take s.link = s.ledger := Ledger.take_of_none hs
            have ha : s.act .look = { s with looked := true } := by
              simp [act, hl, ho, Showing.look_of_empty ho hs hh, hs, ht]
            rw [ha]
            exact ⟨h.balanced, h.idle, h.finish?_eq, h.ended, h.received_eq, h.paintedOnReceipt_eq, h.shown_eq,
              h.last_painted, h.paintsLatest⟩
  · have ha : s.act .look = s := if_neg hc
    rw [ha]
    exact h

theorem respond (h : Orderly s) {event : Option TerminalEvent}
    (hq : ∀ k, event = some (.key k) → k.isQuit = false) : Orderly (s.act (.respond event)) := by
  by_cases hc : s.looked = true ∧ s.showing.viewer.isOpen = true
  · obtain ⟨painted, hr, hp⟩ := Showing.respond_eq (s := s.showing) hq
    have ha : s.act (.respond event) =
        { s with looked := false, deeds := s.deeds ++ painted.map (.painted .resize) } := by
      simp only [act, if_pos hc, hr]
    rw [ha]
    rcases hp with rfl | rfl
    · rw [List.map_nil, List.append_nil]
      exact ⟨h.balanced, h.idle, h.finish?_eq, h.ended, h.received_eq, h.paintedOnReceipt_eq, h.shown_eq,
        h.last_painted, h.paintsLatest⟩
    · exact {
        balanced := h.balanced
        idle := h.idle
        finish?_eq := h.finish?_eq
        ended := h.ended
        received_eq := by simp [h.received_eq, List.filterMap_cons]
        paintedOnReceipt_eq := by simp [h.paintedOnReceipt_eq, List.filterMap_cons]
        shown_eq := h.shown_eq.trans (Deed.latest_painted _ _ _).symm
        last_painted := by simp
        paintsLatest := by
          refine h.paintsLatest.snoc ?_
          intro f hf
          have hf : s.showing.viewer.shown = f := Option.some.inj hf
          rw [← hf, h.shown_eq] }
  · have ha : s.act (.respond event) = s := if_neg hc
    rw [ha]
    exact h

theorem act (h : Orderly s) {a : Act} (hq : ∀ k, a = .respond (some (.key k)) → k.isQuit = false) :
    Orderly (s.act a) := by
  cases a with
  | producer m => exact h.producer m
  | look => exact h.look
  | respond event =>
      refine h.respond ?_
      intro k hk
      exact hq k (by rw [hk])

theorem run (h : Orderly s) {acts : List Act} (hq : ∀ k, .respond (some (.key k)) ∈ acts → k.isQuit = false) :
    Orderly (s.run acts) := by
  induction acts generalizing s with
  | nil => exact h
  | cons a acts ih =>
      refine ih (h.act ?_) ?_
      · intro k hk
        exact hq k (by simp [hk])
      · intro k hk
        exact hq k (List.mem_cons_of_mem _ hk)

/-- A loop that has ended found no frame after the hang-up, so the viewer has had the newest one. -/
theorem latest_of_finish? (h : Orderly s) (hf : s.link.finish? = some .ok) :
    Deed.latest s.deeds = s.ledger.rendered.getLastD .blank := by
  have ho : s.showing.viewer.isOpen = false := by
    cases ho : s.showing.viewer.isOpen with
    | false => rfl
    | true => simp [h.finish?_eq, ho] at hf
  obtain ⟨hh, hs⟩ := h.ended ho
  have hp := h.idle hh
  have hl : s.ledger.rendered.length = s.ledger.sent := by simpa [Phase.frame?, hp] using h.balanced.rendered_eq
  unfold Deed.latest
  rw [h.received_eq]
  cases hr : s.ledger.rendered.getLast? with
  | none =>
      have hnil : s.ledger.rendered = [] := List.getLast?_eq_none_iff.mp hr
      have ht : s.ledger.taken = [] := by simpa [hnil] using h.balanced.taken.sublist
      rw [ht, hnil]
      rfl
  | some f =>
      have hf : s.ledger.rendered[s.ledger.posted]? = some f := by
        rw [← hr, List.getLast?_eq_getElem?, hl]
        rfl
      have hlast : s.ledger.taken.getLast? = some (f, s.ledger.posted) := by
        refine h.balanced.taken.getLast?_eq (h.balanced.newest hp hs f hf) ?_
        intro e he
        have := h.balanced.older e (List.mem_append_left _ he)
        unfold Ledger.posted
        omega
      simp [List.getLastD_eq_getLast?, hr, hlast]

end Orderly

/-- As long as nobody quits, the last picture is not lost, whoever moves when. The viewer does not end before the
producer has hung up. It paints each frame once when it comes, in the order of rendering, and whatever it paints is
the frame that came last. When it has ended, it has painted the picture of the last render. -/
theorem ends_on_last_rendered (acts : List Act) (hq : ∀ k, .respond (some (.key k)) ∈ acts → k.isQuit = false) :
    let s := run {} acts
    (s.link.finish? ≠ none → s.link.hungUp = true) ∧
    (∀ before cause f after, s.deeds = before ++ .painted cause f :: after → f = Deed.latest before) ∧
    s.deeds.filterMap Deed.paintedOnReceipt? = s.deeds.filterMap Deed.received? ∧
    (s.deeds.filterMap Deed.received? = s.ledger.taken.map (·.1) ∧
      s.ledger.taken.Sublist s.ledger.rendered.zipIdx) ∧
    (s.link.finish? = some .ok →
      (s.deeds.filterMap Deed.painted?).getLast? = some (s.ledger.rendered.getLastD .blank)) := by
  intro s
  have h : s.Orderly := .run .start hq
  refine ⟨?_, h.paintsLatest, h.paintedOnReceipt_eq.trans h.received_eq.symm, ⟨h.received_eq, ?_⟩, ?_⟩
  · intro hf
    rw [h.finish?_eq] at hf
    cases ho : s.showing.viewer.isOpen with
    | false => exact (h.ended ho).1
    | true => simp [ho] at hf
  · exact h.balanced.taken.sublist
  · intro hf
    rw [h.last_painted, h.shown_eq, h.latest_of_finish? hf]

/-- Two pictures, the second of them still on the link when the producer hangs up. -/
theorem ends_on_last_rendered_left_on_link :
    let acts : List Act := [.producer .render, .producer .advance, .look, .respond (some .resize),
      .producer (.toggle 3 4), .producer .render, .look, .producer .advance, .respond (some (.key ⟨.char 'x', {}⟩)),
      .producer .hangUp, .look, .respond none, .look]
    let s := run {} acts
    (∀ k, .respond (some (.key k)) ∈ acts → k.isQuit = false) ∧ s.link.finish? = some .ok ∧
      s.ledger.rendered = [.blank, (Frame.blank.toggle 3 4).2] ∧
      (s.deeds.filterMap Deed.painted?).getLast? = some (Frame.blank.toggle 3 4).2 := by
  intro acts s
  have hq : ∀ k, .respond (some (.key k)) ∈ acts → k.isQuit = false := by
    intro k hk
    have : k = ⟨.char 'x', {}⟩ := by simpa [acts] using hk
    rw [this]
    rfl
  have hf : s.link.finish? = some .ok := by decide
  have hr : s.ledger.rendered = [.blank, (Frame.blank.toggle 3 4).2] := by rfl
  refine ⟨hq, hf, hr, ?_⟩
  have h := (ends_on_last_rendered acts hq).2.2.2.2 hf
  rw [hr] at h
  exact h

end Screening

end ChipEight
