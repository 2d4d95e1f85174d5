import ChipEight.Proofs.Machine.Flips
import ChipEight.Proofs.Machine.Running
import ChipEight.Proofs.Program.Terminal
import ChipEight.Proofs.Text.Assembly

/-!
The trace of a run. Each step that gets as far as an instruction leaves one line, before it does anything else; the line
says where the instruction was and which word it was, and no other place or word has that line.
-/

namespace ChipEight

/-! ## Lines of the trace -/

namespace Event

theorem line_fetched (pc word : UInt16) : (fetched pc word).line =
    "TRACE " ++ hex 3 pc.toNat ++ ": " ++ hexPlain 4 word.toNat ++ "  " ++ (Instr.decode word).text := by
  rw [line_eq rfl rfl]
  generalize (Instr.decode word).text = text
  simp only [← String.append_assoc]
  rfl

theorem toList_line_fetched (pc word : UInt16) : ∃ rest, (fetched pc word).line.toList =
    "TRACE 0x".toList ++ (hexDigits 3 pc.toNat ++ ':' :: (' ' :: (hexDigits 4 word.toNat ++ ' ' :: rest))) := by
  refine ⟨' ' :: (Instr.decode word).text.toList, ?_⟩
  rw [line_fetched]
  generalize (Instr.decode word).text = text
  simp only [String.toList_append, toList_hex, toList_hexPlain, List.append_assoc]
  rfl

/-- The address ends at the colon, and the word at the blank after it. -/
theorem line_fetched_inj {pc word pc' word' : UInt16} :
    (fetched pc word).line = (fetched pc' word').line ↔ pc = pc' ∧ word = word' := by
  constructor
  · intro h
    obtain ⟨rest, hrest⟩ := toList_line_fetched pc word
    obtain ⟨rest', hrest'⟩ := toList_line_fetched pc' word'
    rw [h, hrest'] at hrest
    obtain ⟨hpc, htail⟩ := (hexDigits_append_inj (by decide)).mp (List.append_cancel_left hrest)
    obtain ⟨hword, -⟩ := (hexDigits_append_inj (by decide)).mp (List.tail_eq_of_cons_eq htail)
    exact ⟨UInt16.toNat_inj.mp hpc.symm, UInt16.toNat_inj.mp hword.symm⟩
  · rintro ⟨rfl, rfl⟩
    rfl

end Event

/-! ## What one step logs -/

namespace Machine

variable {σ : Type} [Screen σ]

/-- What the machine itself logs in a step: which word it is at, if it can be read. -/
def traced (m : Machine σ) : List Event := (m.word?.map (.fetched m.pc)).toList

/-- What the screen logs in a step, in showing a picture. -/
def shown (m : Machine σ) : List Event := m.flipped?.elim [] fun (_, screen) => (Screen.render screen).events

theorem events_step (m : Machine σ) : m.step.events = m.traced ++ m.shown := by
  have hword : m.word? = m.fetch.toOption := by
    rw [fetch_eq]
    cases m.word? <;> rfl
  unfold traced shown
  cases hf : m.fetch with
  | error e =>
      have hflips : m.flipped? = none := by rw [flipped?, current?_of_error hf]
      rw [step_of_error hf, hword, hf, hflips]
      rfl
  | ok word =>
      rw [hword, hf]
      cases hflips : m.flipped? with
      | none => exact (step_of_unflipped hf hflips).1
      | some p =>
          obtain ⟨erased, screen⟩ := p
          rw [step_of_flipped hf hflips]
          rfl

end Machine

/-! ## What a run logs -/

/-- A screen that leaves the trace to the machine. -/
abbrev Screen.Untraced (σ : Type) [Screen σ] : Prop := ∀ s : σ, ∀ e ∈ (Screen.render s).events, e.level ≠ .trace

theorem Attended.untraced : Screen.Untraced Attended := forall_mem_render nofun fun _ => nofun

theorem Window.untraced : Screen.Untraced Window := fun w => Attended.untraced { window := w }

/-- The line that the step from a machine leaves in the trace, if it leaves one. -/
def Machine.traceLine? {σ : Type} (m : Machine σ) : Option String :=
  m.word?.map fun word =>
    "TRACE " ++ hex 3 m.pc.toNat ++ ": " ++ hexPlain 4 word.toNat ++ "  " ++ (Instr.decode word).text

theorem Screen.Untraced.lines_step {σ : Type} [Screen σ] (h : Untraced σ) (m : Machine σ) :
    Event.lines .trace (m.traced ++ m.shown) = m.traceLine?.toList := by
  have hshown : Event.lines .trace m.shown = [] := by
    unfold Machine.shown
    cases m.flipped? with
    | none => rfl
    | some p => exact Event.lines_eq_nil (h p.2)
  rw [Event.lines_append, hshown, List.append_nil, Machine.traced, Machine.traceLine?]
  cases m.word? with
  | none => rfl
  | some word => exact congrArg (· :: []) (Event.line_fetched m.pc word)

theorem Screen.Untraced.lines_course {σ : Type} [Screen σ] (h : Untraced σ) (course : List (Machine σ)) :
    Event.lines .trace (course.flatMap fun m => m.traced ++ m.shown) = course.filterMap Machine.traceLine? := by
  induction course with
  | nil => rfl
  | cons m course ih =>
      rw [List.flatMap_cons, Event.lines_append, h.lines_step, ih]
      cases hm : m.traceLine? with
      | none => rw [List.filterMap_cons_none hm]; rfl
      | some line => rw [List.filterMap_cons_some hm]; rfl

namespace Session

variable {σ : Type} [Screen σ] {s : Session σ}

/-- The machines that steps start from, of `n` steps or as many as are made. The last of the steps may fail. -/
def course (s : Session σ) (n : Nat) : List (Machine σ) :=
  (List.range n).filterMap fun k =>
    match s.steps k with
    | (.ok (), reached) => some reached.machine
    | (.error _, _) => none

theorem steps_one (s : Session σ) : s.steps 1 = s.step := by
  rcases hs : s.step with ⟨e | _, s'⟩
  · exact steps_of_error hs 0
  · exact steps_of_ok hs 0

theorem course_succ_of_ok {s reached : Session σ} {n : Nat} (h : s.steps n = (.ok (), reached)) :
    s.course (n + 1) = s.course n ++ [reached.machine] := by
  rw [course, List.range_succ, List.filterMap_append, ← course]
  simp [h]

theorem course_succ_of_error {s reached : Session σ} {n : Nat} {e : Fault} (h : s.steps n = (.error e, reached)) :
    s.course (n + 1) = s.course n := by
  rw [course, List.range_succ, List.filterMap_append, ← course]
  simp [h]

theorem steps_succ_of_ok {s reached : Session σ} {n : Nat} (h : s.steps n = (.ok (), reached)) :
    s.steps (n + 1) = reached.step := by
  rw [steps_add, h]
  exact steps_one reached

theorem steps_succ_of_error {s reached : Session σ} {n : Nat} {e : Fault} (h : s.steps n = (.error e, reached)) :
    s.steps (n + 1) = (.error e, reached) := by
  rw [steps_add, h]

theorem log_steps (s : Session σ) (n : Nat) :
    (s.steps n).2.log.toList = s.log.toList ++ (s.course n).flatMap fun m => m.traced ++ m.shown := by
  induction n with
  | zero => simp [steps, course]
  | succ n ih =>
      rcases hs : s.steps n with ⟨e | _, reached⟩
      · rw [steps_succ_of_error hs, course_succ_of_error hs, ← ih, hs]
      · rw [steps_succ_of_ok hs, course_succ_of_ok hs, List.flatMap_append, ← List.append_assoc, ← ih, hs]
        simp [step, Machine.events_step]

/-- A run of so many steps logs for each step that it makes, in order, the word at PC, if that can be read, and then what
the screen has to say; so the trace has a line for just those steps that fetch a word, with the address, the word in
memory there and its disassembly. No line stands for two addresses or two words, and no disassembly for two words. -/
theorem trace_faithful (s : Session σ) (n : Nat) :
    let ran := s.steps n
    ran.2.log.toList = s.log.toList ++ (s.course n).flatMap (fun m => m.traced ++ m.shown) ∧
    (Screen.Untraced σ → Event.lines .trace ran.2.log.toList =
      Event.lines .trace s.log.toList ++ (s.course n).filterMap Machine.traceLine?) ∧
    (∀ m : Machine σ, m.fetch = m.word?.elim (.error (.ranOff m.pc)) .ok) ∧
    (∀ (m m' : Machine σ) line, m.traceLine? = some line → m'.traceLine? = some line → m'.pc = m.pc ∧ m'.word? = m.word?) ∧
    ∀ word word', (Instr.decode word).text = (Instr.decode word').text → word = word' := by
  intro ran
  refine ⟨s.log_steps n, ?_, Machine.fetch_eq, ?_, fun _ _ => Instr.text_decode_inj.mp⟩
  · intro h
    have hlog : ran.2.log.toList = _ := s.log_steps n
    rw [hlog, Event.lines_append, h.lines_course]
  · intro m m' line hm hm'
    obtain ⟨word, hword, rfl⟩ := Option.map_eq_some_iff.mp hm
    obtain ⟨word', hword', hline⟩ := Option.map_eq_some_iff.mp hm'
    rw [← Event.line_fetched, ← Event.line_fetched] at hline
    obtain ⟨hpc, rfl⟩ := Event.line_fetched_inj.mp hline
    exact ⟨hpc, hword'.trans hword.symm⟩

/-- Two pictures that nobody takes, and a word that is not understood. -/
theorem trace_faithful_untaken :
    let s := ((start ({} : Window) {}).loadProgram #[0xA0, 0x0A, 0xD0, 0x11, 0xD0, 0x11, 0xFF, 0xFF]).2
    Screen.Untraced Window ∧ (s.steps 9).2.machine.screen.link.dropped = 1 ∧
      Event.lines .trace (s.steps 9).2.log.toList =
        ["TRACE 0x200: A00A  LD I, 0x00A", "TRACE 0x202: D011  DRW V0, V1, 1", "TRACE 0x204: D011  DRW V0, V1, 1",
          "TRACE 0x206: FFFF  ??? 0xFFFF"] := by
  intro s
  obtain ⟨-, htrace, -⟩ := trace_faithful s 9
  refine ⟨Window.untraced, by decide, ?_⟩
  rw [htrace Window.untraced]
  decide

end Session

end ChipEight
