import ChipEight.Program
import ChipEight.Proofs.Machine.Command
import ChipEight.Proofs.Screen.Attended
import ChipEight.Proofs.Screen.Recorded

/-!
How a run in a window ends, and how that is told. The run can fail and so can the viewer; each failure is told once, and
the viewer is waited for once.
-/

namespace ChipEight

open Screen (Answers)

/-! ## Lines of the log -/

namespace Event

/-- Says that a run or a viewer has ended. -/
def tellsEnd : Event → Bool
  | canvasJoined | canvasEndedBadly _ | stopped _ | stateAtStop _ | closedBadly _ => true
  | _ => false

/-- A log, or a part of one, that tells of no end. -/
abbrev Ongoing (log : List Event) : Prop := ∀ e ∈ log, e.tellsEnd = false

theorem ongoing_append {log more : List Event} : Ongoing (log ++ more) ↔ Ongoing log ∧ Ongoing more :=
  List.forall_mem_append

theorem ongoing_singleton {e : Event} (h : e.tellsEnd = false) : Ongoing [e] := List.forall_mem_singleton.mpr h

/-- The lines of one level in a log. -/
def lines (level : Level) (log : List Event) : List String := (log.filter (·.level = level)).map line

theorem lines_append (level : Level) (log more : List Event) :
    lines level (log ++ more) = lines level log ++ lines level more := by
  rw [lines, List.filter_append, List.map_append]
  rfl

theorem lines_eq_nil {level : Level} {log : List Event} (h : ∀ e ∈ log, e.level ≠ level) : lines level log = [] := by
  rw [lines, List.filter_eq_nil_iff.mpr fun e he => by simpa using h e he]
  rfl

theorem lines_error_of_ongoing {log : List Event} (h : Ongoing log) : lines .error log = [] := by
  refine lines_eq_nil fun e he => ?_
  have hongoing := h e he
  cases e with
  | stopped | closedBadly => cases hongoing
  | _ => exact nofun

theorem line_eq {e : Event} {intro rest : String} (hfields : e.fields = []) (hmessage : e.message = intro ++ rest) :
    e.line = e.level.name ++ " " ++ intro ++ rest := by
  rw [line, hfields, hmessage, ← String.append_assoc]
  exact String.append_empty

theorem line_canvasEndedBadly (cause : ScreenFault) :
    (canvasEndedBadly cause).line = "WARN canvas thread ended badly: " ++ cause.message := by
  rw [line_eq rfl rfl]
  rfl

theorem line_stopped (cause : Fault) : (stopped cause).line =
    (if cause.isScreenFailure then "ERROR display failed: " else "ERROR program stopped: ") ++ cause.message := by
  rw [line_eq rfl rfl]
  split <;> rfl

theorem line_closedBadly (cause : Failure) :
    (closedBadly cause).line = "ERROR display failed to close: " ++ cause.message := by
  rw [line_eq rfl rfl]
  rfl

end Event

/-! ## The end of a window -/

/-- Joining a viewer that crashed is an error before it can be logged. -/
def Finish.joinEvents (f : Finish) : List Event := if f = .crashed then [] else [.canvasJoined]

theorem Finish.result_eq_ok (f : Finish) : f.result = .ok () ↔ f = .ok := by cases f <;> simp [result]

/-- What becomes of a window that has not waited for its viewer yet, when that has ended so. -/
structure Window.JoinedOnce (f : Finish) (w : Window) : Prop where
  /-- To stop it is to wait for the viewer. To stop it again does nothing, and there is nothing to say when it is let
  go of. -/
  stop : ∃ p, w.stop? = some p ∧ p.result = f.result ∧ p.window.joined = true ∧
    p.window.stop? = some ⟨.ok (), [], p.window⟩ ∧ p.window.drop? = some []
  /-- To let go of it unstopped is to stop it, and then a bad end is a warning. -/
  drop : ∃ events, w.drop? = some events ∧ Event.lines .warn events = match f.result with
    | .ok () => []
    | .error cause => ["WARN canvas thread ended badly: " ++ cause.message]

namespace Window

variable {w : Window} {f : Finish}

theorem stop_of_finish (hw : w.joined = false) (hf : w.link.finish? = some f) :
    w.stop? = some ⟨f.result, f.joinEvents, { w with link := w.link.hangUp, joined := true }⟩ := by
  have hhung : w.link.hangUp.finish? = some f := hf
  simp only [stop?, hw, hhung]
  rfl

theorem stop_of_joined (hw : w.joined = true) : w.stop? = some ⟨.ok (), [], { w with link := w.link.hangUp }⟩ := by
  rw [stop?, if_pos hw]

theorem joinedOnce (hw : w.joined = false) (hf : w.link.finish? = some f) : w.JoinedOnce f where
  stop := ⟨_, stop_of_finish hw hf, rfl, rfl, stop_of_joined rfl, rfl⟩
  drop := by
    rw [drop?, stop_of_finish hw hf]
    refine ⟨_, rfl, ?_⟩
    cases f with
    | ok => rfl
    | io text => exact congrArg ([·]) (Event.line_canvasEndedBadly (.io text))
    | crashed => exact congrArg ([·]) (Event.line_canvasEndedBadly .crashed)

theorem shutdown_of_finish (hw : w.joined = false) (hf : w.link.finish? = some f) :
    w.shutdown? = some (f.result, f.joinEvents) := by
  rw [shutdown?, stop_of_finish hw hf]
  exact congrArg (fun events => some (f.result, events)) f.joinEvents.append_nil

end Window

/-! ## The end of a program -/

namespace Program

/-- How the exit of a program tells of a run that ended so, in a window whose viewer ended so. -/
structure Exit.Tells (blame : ScreenFault → Failure) (ran : Except Stopped Unit) (f : Finish) (exit : Exit) : Prop where
  ok_iff : exit.result = .ok () ↔ ran = .ok () ∧ f = .ok
  /-- The fault of the run comes first. The log has one line for it, and one more if the viewer ended badly too. -/
  stopped : ∀ last, ran = .error last → exit.result = .error (.fault last.cause) ∧
    Event.lines .error exit.log =
      ((if last.cause.isScreenFailure then "ERROR display failed: " else "ERROR program stopped: ") ++
        last.cause.message) ::
      match f.result with
      | .ok () => []
      | .error cause => ["ERROR display failed to close: " ++ (blame cause).message]
  /-- A bad end of the viewer alone is the result, and no error in the log. -/
  closedBadly : ran = .ok () → Event.lines .error exit.log = [] ∧
    ∀ cause, f.result = .error cause → exit.result = .error (blame cause)
  /-- The viewer is waited for once. If it crashed, that is not logged. -/
  joined : exit.log.count .canvasJoined = if f = .crashed then 0 else 1
  unwarned : ∀ cause, .canvasEndedBadly cause ∉ exit.log

variable {blame : ScreenFault → Failure} {ran : Except Stopped Unit} {f : Finish}

theorem lines_error_of_log {log told : List Event} (hlog : Event.Ongoing log) :
    Event.lines .error (log ++ (f.joinEvents ++ told)) = Event.lines .error told := by
  have hjoin : Event.lines .error f.joinEvents = [] := by cases f <;> rfl
  rw [Event.lines_append, Event.lines_append, Event.lines_error_of_ongoing hlog, hjoin]
  rfl

/-- What is told in the end is not about the viewer's thread. -/
theorem count_conclude (ran : Except Stopped Unit) (closed : Except Failure Unit) :
    (conclude ran closed).2.count .canvasJoined = 0 ∧
    ∀ cause, (conclude ran closed).2.count (.canvasEndedBadly cause) = 0 := by
  rcases ran with last | _ <;> rcases closed with cause | _ <;> exact ⟨rfl, fun _ => rfl⟩

theorem Exit.tells {log : List Event} (hlog : Event.Ongoing log) :
    let concluded := conclude ran (f.result.mapError blame)
    Exit.Tells blame ran f { result := concluded.1, log := log ++ (f.joinEvents ++ concluded.2) } where
  ok_iff := by
    rw [← f.result_eq_ok]
    rcases ran with last | _ <;> rcases f.result with cause | _
    · exact iff_of_false (by rintro ⟨⟩) (by rintro ⟨⟨⟩, -⟩)
    · exact iff_of_false (by rintro ⟨⟩) (by rintro ⟨⟨⟩, -⟩)
    · exact iff_of_false (by rintro ⟨⟩) (by rintro ⟨-, ⟨⟩⟩)
    · exact iff_of_true rfl ⟨rfl, rfl⟩
  stopped := by
    rintro last rfl
    simp only
    rw [lines_error_of_log hlog, ← Event.line_stopped]
    rcases f.result with cause | _
    · exact ⟨rfl, congrArg ([_, ·]) (Event.line_closedBadly (blame cause))⟩
    · exact ⟨rfl, rfl⟩
  closedBadly := by
    rintro rfl
    refine ⟨lines_error_of_log hlog, ?_⟩
    intro cause hf
    rw [hf]
    rfl
  joined := by
    have hbefore : log.count .canvasJoined = 0 :=
      List.count_eq_zero.mpr fun h => by cases hlog _ h
    have hjoin : f.joinEvents.count .canvasJoined = if f = .crashed then 0 else 1 := by cases f <;> rfl
    obtain ⟨htold, -⟩ := count_conclude ran (f.result.mapError blame)
    rw [List.count_append, List.count_append, hbefore, hjoin, htold, Nat.zero_add, Nat.add_zero]
  unwarned := by
    intro cause h
    obtain h | h | h := by simpa only [List.mem_append] using h
    · cases hlog _ h
    · cases f <;> simp [Finish.joinEvents] at h
    · exact List.count_eq_zero.mp ((count_conclude ran (f.result.mapError blame)).2 cause) h

theorem tells_of_ofWindow {s : Session Window} {w : Window} (hlog : Event.Ongoing s.log.toList)
    (hw : w.joined = false) (hf : w.link.finish? = some f) :
    ∃ exit, Exit.ofWindow? blame ran s w = some exit ∧ exit.Tells blame ran f := by
  have hopened : Event.Ongoing (Window.openingEvents ++ s.log.toList) :=
    Event.ongoing_append.mpr ⟨Event.ongoing_singleton rfl, hlog⟩
  refine ⟨_, ?_, Exit.tells hopened⟩
  rw [Exit.ofWindow?, closeWindow?, Window.shutdown_of_finish hw hf]
  rfl

end Program

/-! ## While a run goes on -/

/-- Nothing asked of a screen changes this part of it. -/
structure Screen.Steady {σ α : Type} [Screen σ] (part : σ → α) : Prop where
  clear : ∀ s : σ, part (Screen.clear s) = part s
  toggle : ∀ (s : σ) x y, part (Screen.toggle s x y).2 = part s
  render : ∀ s : σ, part (Screen.render s).screen = part s
  poll : ∀ s : σ, part (Screen.isClosed s).2 = part s

/-- Whatever is asked of a screen of which this holds, it goes on holding. -/
structure Screen.Keeps {σ : Type} [Screen σ] (P : σ → Prop) : Prop where
  clear : ∀ {s : σ}, P s → P (Screen.clear s)
  toggle : ∀ {s : σ} x y, P s → P (Screen.toggle s x y).2
  render : ∀ {s : σ}, P s → P (Screen.render s).screen
  poll : ∀ {s : σ}, P s → P (Screen.isClosed s).2

/-- A screen that tells of no end when it is shown. -/
abbrev Screen.Quiet (σ : Type) [Screen σ] : Prop := ∀ s : σ, Event.Ongoing (Screen.render s).events

namespace Screen

variable {σ α : Type} [Screen σ] {part : σ → α} {P : σ → Prop}

theorem Keeps.of_answers (h : Keeps P) {s s' : σ} {calls : List ScreenCall} (ha : Answers s calls s') (hs : P s) :
    P s' := by
  induction ha with
  | nil => exact hs
  | clear _ ih => exact ih (h.clear hs)
  | @toggle s u _ x y _ _ ht _ ih =>
      have hu := h.toggle x y hs
      rw [ht] at hu
      exact ih hu
  | render _ _ ih => exact ih (h.render hs)

theorem Keeps.kept (h : Keeps P) : Session.Kept fun s : Session σ => P s.machine.screen where
  load {s} program hs := by
    obtain ⟨ram, hram⟩ := s.machine.exists_ram_of_load program s.machine.ram.origin
    have hscreen : (s.machine.load program s.machine.ram.origin).2.screen = s.machine.screen := by rw [hram]
    exact hscreen.symm ▸ hs
  loaded _ hs := hs
  poll hs := h.poll hs
  step {s} hs := by
    obtain ⟨calls, hcalls, -⟩ := s.machine.step_answered
    exact h.of_answers hcalls hs
  gone hs := hs

theorem Steady.keeps (h : Steady part) (a : α) : Keeps fun s => part s = a where
  clear hs := (h.clear _).trans hs
  toggle x y hs := (h.toggle _ x y).trans hs
  render hs := (h.render _).trans hs
  poll hs := (h.poll _).trans hs

theorem Steady.kept (h : Steady part) (a : α) : Session.Kept fun s : Session σ => part s.machine.screen = a :=
  (h.keeps a).kept

theorem Quiet.ongoing_step (h : Quiet σ) (m : Machine σ) : Event.Ongoing m.step.events := by
  intro e he
  obtain ⟨pc, word, rfl⟩ | ⟨screen, he⟩ := Machine.event_of_step he
  · rfl
  · exact h screen e he

theorem Quiet.kept (h : Quiet σ) : Session.Kept fun s : Session σ => Event.Ongoing s.log.toList where
  load _ hs := hs
  loaded bytes hs := by
    rw [Session.note, Array.toList_push]
    exact Event.ongoing_append.mpr ⟨hs, Event.ongoing_singleton rfl⟩
  poll hs := hs
  step {s} hs := by
    rw [Session.step, Array.toList_appendList]
    exact Event.ongoing_append.mpr ⟨hs, h.ongoing_step s.machine⟩
  gone hs := by
    rw [Session.note, Array.toList_push]
    exact Event.ongoing_append.mpr ⟨hs, Event.ongoing_singleton rfl⟩

end Screen

theorem Window.forall_mem_beginRender {P : Event → Prop} (hclosed : P .canvasClosed) (w : Window) :
    ∀ e ∈ w.beginRender.1, P e := by
  unfold beginRender
  split
  · exact List.forall_mem_singleton.mpr hclosed
  · exact List.forall_mem_nil _

namespace Attended

theorem joined_advances (n : Nat) (a : Attended) : (advances n a).2.window.joined = a.window.joined := by
  induction n generalizing a with
  | zero => rfl
  | succ n ih => exact ih a.advance.2

theorem steady_joined : Screen.Steady fun a : Attended => a.window.joined where
  clear _ := rfl
  toggle _ _ _ := rfl
  render a := joined_advances 3 { a.attend with window := a.attend.window.beginRender.2 }
  poll _ := rfl

theorem forall_mem_advances {P : Event → Prop} (hreplaced : ∀ n, P (.frameReplaced n)) (n : Nat) (a : Attended) :
    ∀ e ∈ (advances n a).1, P e := by
  induction n generalizing a with
  | zero => exact List.forall_mem_nil _
  | succ n ih => exact List.forall_mem_append.mpr ⟨a.attend.window.link.forall_mem_advance hreplaced, ih a.advance.2⟩

/-- A window logs that its viewer has gone and that it has replaced a frame, and nothing else. -/
theorem forall_mem_render {P : Event → Prop} (hclosed : P .canvasClosed) (hreplaced : ∀ n, P (.frameReplaced n))
    (a : Attended) : ∀ e ∈ (Screen.render a).events, P e :=
  List.forall_mem_append.mpr ⟨a.attend.window.forall_mem_beginRender hclosed,
    forall_mem_advances hreplaced 3 { a.attend with window := a.attend.window.beginRender.2 }⟩

theorem quiet : Screen.Quiet Attended := forall_mem_render rfl fun _ => rfl

/-- The window once it has hung up and its viewer has made these moves. -/
def close (a : Attended) (moves : List ViewerMove) : Window :=
  { a.window with link := moves.foldl Link.view a.window.link.hangUp }

end Attended

/-! ## Runs in a window -/

namespace Program

variable {budget : Nat} {o : Options} {program : Array UInt8}

theorem kept_run {σ : Type} [Screen σ] {P : Session σ → Prop} (h : Session.Kept P) {screen : σ}
    (hs : P (ready o screen)) : P (run budget o screen program).2 := by
  unfold run
  cases o.cycles with
  | none => exact h.run program budget hs
  | some n =>
      have hloaded := h.load program hs
      rcases hload : (ready o screen).loadProgram program with ⟨e | _, loaded⟩ <;> rw [hload] at hloaded
      · simp only [hload]
        exact hloaded
      · have hstepped := h.steps n hloaded
        simp only [hload]
        rcases hsteps : loaded.steps n with ⟨e | _, s⟩ <;> rw [hsteps] at hstepped <;> exact hstepped

/-- Runs in a window in front of a viewer that does what is planned while the program runs, and the rest once the window
has hung up. -/
def attended? (budget : Nat) (o : Options) (plan : List (List ViewerMove)) (rest : List ViewerMove)
    (program : Array UInt8) : Option Exit :=
  match o.display with
  | .window =>
      let (ran, s) := run budget o ({ plan } : Attended) program
      let window := s.machine.screen.close rest
      ran.bind fun ran => Exit.ofWindow? .screen ran ⟨s.machine.on window, s.log⟩ window
  | _ => windowless? budget o program

/-- Once a run in a window has ended, and its viewer has ended too, in whatever way and at whatever moment, the program
comes to its exit. The exit tells of both ends, each once, and the window has waited for the viewer just once. -/
theorem failures_told_once {plan : List (List ViewerMove)} {rest : List ViewerMove} {ran : Except Stopped Unit}
    {f : Finish} {s : Session Attended} (hdisplay : o.display = .window)
    (hran : run budget o ({ plan } : Attended) program = (some ran, s))
    (hf : (s.machine.screen.close rest).link.finish? = some f) :
    (∃ exit, attended? budget o plan rest program = some exit ∧ exit.Tells .screen ran f) ∧
    (s.machine.screen.close rest).joined = false ∧
    ∀ w : Window, w.joined = false → w.link.finish? = some f → w.JoinedOnce f := by
  have hjoined : (run budget o ({ plan } : Attended) program).2.machine.screen.window.joined = false :=
    kept_run (Attended.steady_joined.kept false) rfl
  have hlog : Event.Ongoing (run budget o ({ plan } : Attended) program).2.log.toList :=
    kept_run Attended.quiet.kept (List.forall_mem_nil _)
  rw [hran] at hjoined hlog
  refine ⟨?_, hjoined, fun w hw hwf => Window.joinedOnce hw hwf⟩
  rw [attended?, hdisplay]
  simp only [hran]
  exact tells_of_ofWindow hlog hjoined hf

/-- A program that is stopped by a word that is no instruction, while its viewer finds no terminal. -/
theorem failures_told_once_both :
    let o : Options := { rom := "pong" }
    let cause := Fault.unknownWord 0x200 0xFFFF
    ∃ exit, attended? 1 o [] [.finish (.io "no tty")] #[0xFF, 0xFF] = some exit ∧
      exit.result = .error (.fault cause) ∧
      Event.lines .error exit.log =
        ["ERROR program stopped: " ++ cause.message, "ERROR display failed to close: terminal error: no tty"] := by
  intro o cause
  let program : Array UInt8 := #[0xFF, 0xFF]
  let s := ((ready o ({} : Attended)).run 1 program).2
  have hending : ((ready o ({} : Attended)).run 1 program).1 = some (.failed cause) := by decide
  have hran : run 1 o ({} : Attended) program = (some (outcome s (.failed cause)), s) :=
    congrArg (fun ending => (ending.map (outcome s), s)) hending
  have hf : (s.machine.screen.close [.finish (.io "no tty")]).link.finish? = some (.io "no tty") := by decide
  obtain ⟨⟨exit, hexit, htells⟩, -, -⟩ := failures_told_once rfl hran hf
  obtain ⟨hresult, hlines⟩ := htells.stopped _ rfl
  exact ⟨exit, hexit, hresult, hlines⟩

end Program

end ChipEight
