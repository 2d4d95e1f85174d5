import ChipEight.Proofs.Link.Closing
import ChipEight.Proofs.Screen.Attended
import Mathlib.Logic.Function.Iterate

/-!
A render never waits for the viewer. It tries to send at most twice and throws at most one frame away: nobody else puts
frames on the link, so that once the stale one is gone, whoever took it, there is room. Before a viewer that takes
nothing, all renders but the first throw one away.
-/

namespace ChipEight

namespace Link

theorem reopened_view {m : ViewerMove} (h : m ≠ .take) (l : Link) : (l.view m).reopened = l.reopened := by
  cases m with
  | take => exact absurd rfl h
  | finish f => rfl

theorem reopened_foldl {moves : List ViewerMove} (h : .take ∉ moves) (l : Link) :
    (moves.foldl view l).reopened = l.reopened := by
  induction moves generalizing l with
  | nil => rfl
  | cons m moves ih =>
      have hm : m ≠ .take := fun hm => h (hm ▸ List.mem_cons_self)
      have hmoves : .take ∉ moves := fun htake => h (List.mem_cons_of_mem _ htake)
      exact (ih hmoves (l.view m)).trans (reopened_view hm l)

end Link

namespace Attended

variable {a : Attended} {f : Frame}

theorem link_begun (hopen : a.window.link.hungUp = false) :
    a.begun.window.link = a.attend.window.link.offer a.window.frame := by
  have hattend : a.attend.window.link.hungUp = false := (viewed_attend a).hungUp.trans hopen
  simp only [begun, Window.beginRender, hattend]
  rfl

/-! ## A viewer that takes nothing -/

/-- The viewer is not going to take a frame, though it may end. -/
def TakesNothing (a : Attended) : Prop := ∀ moves ∈ a.plan, .take ∉ moves

theorem TakesNothing.attend (h : a.TakesNothing) :
    a.attend.TakesNothing ∧ a.attend.window.link.reopened = a.window.link.reopened := by
  refine ⟨fun moves hm => h moves (List.mem_of_mem_tail hm), ?_⟩
  have hhead : .take ∉ a.plan.headD [] := by
    cases hp : a.plan with
    | nil => exact List.not_mem_nil
    | cons moves plan => exact h moves (hp ▸ List.mem_cons_self)
  exact Link.reopened_foldl hhead a.window.link

/-- Such a viewer makes no difference to what a producer does to the link. -/
theorem TakesNothing.advances (h : a.TakesNothing) (n : Nat) :
    (advances n a).2.TakesNothing ∧
    (advances n a).2.window.link.reopened = (a.window.link.reopened.advances n).2 := by
  induction n generalizing a with
  | zero => exact ⟨h, rfl⟩
  | succ n ih =>
      obtain ⟨hattend, hlink⟩ := h.attend
      have hadvance : a.advance.2.TakesNothing := hattend
      obtain ⟨hrest, hlinks⟩ := ih hadvance
      refine ⟨hrest, hlinks.trans ?_⟩
      have hstep : a.advance.2.window.link.reopened = a.window.link.reopened.advance.2 := by
        rw [← hlink, Link.reopened_advance]
        rfl
      rw [hstep]
      rfl

theorem TakesNothing.render (h : a.TakesNothing) (hopen : a.window.link.hungUp = false) :
    let rendered := (Screen.render a).screen
    rendered.TakesNothing ∧ rendered.window.link.hungUp = false ∧
    rendered.window.link.slot = some a.window.frame ∧
    rendered.window.link.dropped = a.window.link.dropped + a.window.link.slot.toList.length := by
  intro rendered
  obtain ⟨hattend, hlink⟩ := h.attend
  have hbegun : a.begun.TakesNothing := hattend
  obtain ⟨hrest, hsettle⟩ := hbegun.advances 3
  have hoffer : a.begun.window.link.reopened = a.window.link.reopened.offer a.window.frame := by
    rw [link_begun hopen, ← hlink]
    rfl
  have hrendered : rendered.window.link.reopened = (a.window.link.reopened.offer a.window.frame).settle.2 := by
    rw [← hoffer]
    exact hsettle
  rw [Link.settle_offer] at hrendered
  have hhungUp := congrArg Link.hungUp hrendered
  have hslot := congrArg Link.slot hrendered
  have hdropped := congrArg Link.dropped hrendered
  exact ⟨hrest, hhungUp.trans hopen, hslot, hdropped⟩

/-- The window after rendering `n` times in a row. -/
def renders (n : Nat) (a : Attended) : Attended := (fun a : Attended => (Screen.render a).screen)^[n] a

theorem dropped_renders (h : a.TakesNothing) (hopen : a.window.link.hungUp = false) (n : Nat) :
    (renders (n + 1) a).window.link.dropped =
      a.window.link.dropped + a.window.link.slot.toList.length + n := by
  -- each render leaves its own frame on the link for the next to throw away, so the window must vary
  induction n generalizing a with
  | zero => exact (h.render hopen).2.2.2
  | succ n ih =>
      obtain ⟨hrest, hopen', hslot, hdropped⟩ := h.render hopen
      have hlater := ih hrest hopen'
      rw [hslot, hdropped] at hlater
      have hrenders : renders (n + 2) a = renders (n + 1) (Screen.render a).screen := rfl
      rw [hrenders, hlater, Nat.add_assoc, Nat.add_comm _ n]
      rfl

/-! ## Any viewer -/

/-- Whatever is on the link and whatever the viewer does between the steps of the producer, a render sends at the first
try, or at a second try after one to take the stale frame off, and is over then. It never fails, and throws one frame
away at the most. Before a viewer that takes nothing, each of several renders in a row throws away what the one before
it has sent. -/
theorem render_never_waits (a : Attended) (hopen : a.window.link.hungUp = false) :
    let rendered := Screen.render a
    (∃ tries : List Attempt, (tries = [.send] ∨ tries = [.send, .evict, .send]) ∧
      (∀ n, attempts n a.begun = tries.take n) ∧
      ∀ n, tries.length ≤ n → (advances n a.begun).2.window.link.phase = .idle) ∧
    rendered.result = .ok () ∧ rendered.screen = (advances 3 a.begun).2 ∧
    (rendered.screen.window.link.dropped = a.window.link.dropped ∨
      rendered.screen.window.link.dropped = a.window.link.dropped + 1) ∧
    (a.TakesNothing → a.window.link.slot = none →
      ∀ n, (renders n a).window.link.dropped = a.window.link.dropped + (n - 1)) := by
  intro rendered
  have hlink := link_begun hopen
  have hphase : a.begun.window.link.phase = .sending a.window.frame := congrArg Link.phase hlink
  have hdropped : a.begun.window.link.dropped = a.window.link.dropped :=
    (congrArg Link.dropped hlink).trans (viewed_attend a).dropped
  obtain ⟨tries, htries, hsettles⟩ : ∃ tries : List Attempt,
      (tries = [.send] ∨ tries = [.send, .evict, .send]) ∧ a.begun.Settles tries := by
    rcases settles_sending hphase with h | h
    · exact ⟨_, .inl rfl, h⟩
    · exact ⟨_, .inr rfl, h⟩
  refine ⟨⟨tries, htries, hsettles.attempts_eq, hsettles.idle⟩, rfl, rfl, ?_, ?_⟩
  · have hmore := hsettles.le_dropped 3
    have hless := hsettles.dropped_le 3
    have hcount : tries.count .evict ≤ 1 := by
      rcases htries with rfl | rfl <;> decide
    have hrendered : rendered.screen = (advances 3 a.begun).2 := rfl
    rw [← hrendered, hdropped] at hmore hless
    omega
  · intro htakes hslot n
    cases n with
    | zero => rfl
    | succ n =>
        rw [dropped_renders htakes hopen, hslot]
        rfl

/-- The viewer takes the stale frame after the first try to send has failed, and before the producer throws it away;
and a viewer that only looks on. -/
theorem render_never_waits_overtaken :
    let a : Attended := { window := { link := { slot := some .blank } }, plan := [[], [], [.take]] }
    a.window.link.hungUp = false ∧ attempts 9 a.begun = [.send, .evict, .send] ∧
      (advances 9 a.begun).2.window.link.phase = .idle ∧ (Screen.render a).screen.window.link.dropped = 0 ∧
      (renders 1000 ({} : Attended)).window.link.dropped = 999 := by
  intro a
  have hopen : a.window.link.hungUp = false := rfl
  obtain ⟨⟨tries, htries, hattempts, hidle⟩, -, -, -, -⟩ := render_never_waits a hopen
  have hlong : tries = [.send, .evict, .send] := by
    rcases htries with rfl | rfl
    · have htwo : attempts 2 a.begun = [.send, .evict] := by decide
      rw [hattempts 2] at htwo
      cases htwo
    · rfl
  subst hlong
  obtain ⟨-, -, -, -, hrenders⟩ := render_never_waits {} rfl
  exact ⟨hopen, hattempts 9, hidle 9 (by decide), by decide, hrenders nofun rfl 1000⟩

end Attended

end ChipEight
