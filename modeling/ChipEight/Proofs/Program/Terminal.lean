import ChipEight.Proofs.Program.Ending

/-!
Runs with a terminal and without one. On a terminal the viewer never fails, so that a run which ends is all that the
program has to tell of; without one the viewer has failed from the start, and that is told too.
-/

namespace ChipEight

/-! ## The window alone -/

theorem Link.advances_finish? (n : Nat) (l : Link) : (advances n l).2.finish? = l.finish? := by
  induction n generalizing l with
  | zero => rfl
  | succ n ih => exact (ih l.advance.2).trans l.advance_finish?

namespace Window

/-- Its viewer's end and whether that has been waited for. -/
def ending (w : Window) : Bool × Option Finish := (w.joined, w.link.finish?)

theorem steady_ending : Screen.Steady ending where
  clear _ := rfl
  toggle _ _ _ := rfl
  render w := by
    have hsettled : (Screen.render w).screen.link.finish? = w.beginRender.2.link.finish? := Link.advances_finish? 3 _
    have hbegun : w.beginRender.2.link.finish? = w.link.finish? := by
      simp only [beginRender]
      split <;> rfl
    exact congrArg (w.joined, ·) (hsettled.trans hbegun)
  poll _ := rfl

theorem quiet : Screen.Quiet Window := fun w => Attended.quiet { window := w }

end Window

/-! ## The viewer on a terminal -/

namespace Showing

/-- The viewer has not been waited for, and if it has ended then well. -/
structure Sound (s : Showing) : Prop where
  unjoined : s.window.joined = false
  finish?_eq : s.window.link.finish? = if s.viewer.isOpen then none else some .ok

variable {s : Showing}

namespace Sound

theorem start : Sound {} := ⟨rfl, rfl⟩

theorem of_ending {w w' : Window} {v : Viewer} (h : Sound ⟨w, v⟩) (hw : w'.ending = w.ending) : Sound ⟨w', v⟩ where
  unjoined := (congrArg Prod.fst hw).trans h.unjoined
  finish?_eq := (congrArg Prod.snd hw).trans h.finish?_eq

theorem hangUp (h : s.Sound) : s.hangUp.Sound := ⟨h.unjoined, h.finish?_eq⟩

theorem leave {w : Window} {v : Viewer} (hw : w.joined = false) (hf : w.link.finish? = none) :
    (Showing.leave ⟨w, v⟩).Sound := by
  unfold Showing.leave
  split
  · rename_i ho
    exact ⟨hw, hf.trans (if_pos ho).symm⟩
  · rename_i ho
    refine ⟨hw, ?_⟩
    simp only [Link.finish, hf]
    exact (if_neg ho).symm

theorem look (h : s.Sound) : s.look.2.Sound := by
  unfold Showing.look
  split
  · rename_i ho
    have hf : s.window.link.finish? = none := h.finish?_eq.trans (if_pos ho)
    have hreceived : s.window.link.receive.2.finish? = none := by
      unfold Link.receive
      split <;> exact hf
    exact leave h.unjoined hreceived
  · exact h

theorem respond (h : s.Sound) (event : Option TerminalEvent) : (s.respond event).2.Sound := by
  unfold Showing.respond
  split
  · rename_i ho
    exact leave h.unjoined (h.finish?_eq.trans (if_pos ho))
  · exact h

theorem turns (h : s.Sound) (events : List (Option TerminalEvent)) : (s.turns events).2.Sound := by
  induction events generalizing s with
  | nil => exact h
  | cons event events ih => exact ih (h.look.respond event)

theorem close (h : s.Sound) : s.close.2.Sound := h.hangUp.turns _

end Sound

/-- Two turns are enough for the viewer to see that the window has hung up. -/
theorem isOpen_close (s : Showing) : s.close.2.viewer.isOpen = false := by
  cases ho : s.viewer.isOpen <;> cases hs : s.window.link.slot <;>
    simp [close, Showing.hangUp, Link.hangUp, turns, turn, look, respond, Link.receive, Viewer.receive, Viewer.handle,
      leave, ho, hs]

end Showing

namespace Program

variable {budget : Nat} {o : Options} {program : Array UInt8} {ran : Except Stopped Unit}

/-- So far the viewer that a run in a window has is sound, and the log tells of no end. -/
structure Undecided (s : Session Window) (v : Viewer) : Prop where
  sound : Showing.Sound ⟨s.machine.screen, v⟩
  log : Event.Ongoing s.log.toList

theorem undecided_run (budget : Nat) (o : Options) (program : Array UInt8) :
    Undecided (run budget o ({} : Window) program).2 {} where
  sound := Showing.Sound.start.of_ending (kept_run (Window.steady_ending.kept (false, none)) rfl)
  log := kept_run Window.quiet.kept (List.forall_mem_nil _)

theorem undecided_settle {s : Session Window} (h : Undecided s {}) (budget : Nat) (keys : List Key) :
    Undecided (settle budget keys s).2.1 (settle budget keys s).2.2 := by
  let showing := (Showing.turns ⟨s.machine.screen, {}⟩ (keys.map fun k => some (.key k))).2
  let resumed : Session Window := { s with machine := { s.machine with screen := showing.window } }
  have hshowing : showing.Sound := h.sound.turns _
  have hending : (resumed.untilClosed budget).2.machine.screen.ending = showing.window.ending :=
    (Window.steady_ending.kept _).untilClosed budget rfl
  have hlog : Event.Ongoing (resumed.untilClosed budget).2.log.toList := Window.quiet.kept.untilClosed budget h.log
  exact ⟨hshowing.of_ending hending, hlog⟩

/-- On a terminal a run that comes to its end, before any key is read or after, is told of as it ended. -/
theorem onTerminal_tells {terminal : Size} {keys : List Key} {ended : Option (Except Stopped Unit)}
    {s s' : Session Window} {viewer : Viewer} (hdisplay : o.display = .window)
    (hrun : run budget o ({} : Window) program = (ended, s))
    (hsettled : (if ended.isSome then (ended, s, {}) else settle budget keys s) = (some ran, s', viewer)) :
    ∃ exit, onTerminal budget o terminal keys program = some exit ∧ exit.Tells .screen ran .ok := by
  have hs : Undecided s {} := by
    have h := undecided_run budget o program
    rwa [hrun] at h
  have hs' : Undecided s' viewer := by
    split at hsettled
    · cases hsettled
      exact hs
    · have h := undecided_settle hs budget keys
      rwa [hsettled] at h
  let closed := (Showing.close ⟨s'.machine.screen, viewer⟩).2
  have hclosed : closed.Sound := hs'.sound.close
  have hf : closed.window.link.finish? = some .ok := by
    rw [hclosed.finish?_eq, Showing.isOpen_close]
    rfl
  obtain ⟨exit, hexit, htells⟩ :
      ∃ exit, Exit.ofWindow? .screen ran s' closed.window = some exit ∧ exit.Tells .screen ran .ok :=
    tells_of_ofWindow hs'.log hclosed.unjoined hf
  let picture := paintFrame terminal o.scale Options.title closed.viewer.shown
  have hpictured : onTerminal budget o terminal keys program =
      (Exit.ofWindow? .screen ran s' closed.window).map ({ · with picture := some (picture.within terminal) }) := by
    rw [onTerminal, hdisplay]
    simp only [hrun, hsettled]
    rw [Option.map_eq_bind]
    rfl
  -- The picture is no part of what is told.
  rw [hpictured, hexit]
  exact ⟨_, rfl, htells.ok_iff, htells.stopped, htells.closedBadly, htells.joined, htells.unwarned⟩

/-- Where there is no terminal, that there is none is told too, after what became of the run. -/
theorem withoutTerminal_tells {s : Session Window} (hdisplay : o.display = .window)
    (hran : run budget o ({ link := ({} : Link).finish (.io OsError.noSuchDevice.message) } : Window) program =
      (some ran, s)) :
    ∃ exit, withoutTerminal budget o program = some exit ∧
      exit.Tells (fun _ => .noTerminal .noSuchDevice) ran (.io OsError.noSuchDevice.message) := by
  let window : Window := { link := ({} : Link).finish (.io OsError.noSuchDevice.message) }
  have hending : (run budget o window program).2.machine.screen.ending = window.ending :=
    kept_run (Window.steady_ending.kept _) rfl
  have hlog : Event.Ongoing (run budget o window program).2.log.toList :=
    kept_run Window.quiet.kept (List.forall_mem_nil _)
  rw [hran] at hending hlog
  rw [withoutTerminal, hdisplay]
  simp only [hran]
  exact tells_of_ofWindow hlog (congrArg Prod.fst hending) (congrArg Prod.snd hending)

end Program

end ChipEight
