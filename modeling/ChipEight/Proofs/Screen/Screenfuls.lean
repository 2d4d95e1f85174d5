import ChipEight.Proofs.Frame.Parity
import ChipEight.Proofs.Screen.Console

/-!
What the screen that prints has written, whatever its sink refused or failed at on the way: whole screenfuls, one for
each render that the sink took, and each flushed once.
-/

namespace ChipEight

/-! ## The size of a screenful -/

theorem utf8ByteSize_join {l : List String} {n : Nat} (h : ∀ t ∈ l, t.utf8ByteSize = n) :
    (String.join l).utf8ByteSize = n * l.length := by
  induction l with
  | nil => rfl
  | cons t l ih =>
      have ht := h t List.mem_cons_self
      have hl := ih fun u hu => h u (List.mem_cons_of_mem _ hu)
      rw [String.join_cons, String.utf8ByteSize_append, ht, hl, List.length_cons, Nat.mul_succ, Nat.add_comm]

theorem utf8ByteSize_ofList {l : List Char} (h : ∀ c ∈ l, c.utf8Size = 1) :
    (String.ofList l).utf8ByteSize = l.length := by
  induction l with
  | nil => rfl
  | cons c l ih =>
      have hc := h c List.mem_cons_self
      have hl := ih fun d hd => h d (List.mem_cons_of_mem _ hd)
      rw [String.ofList_cons, String.utf8ByteSize_append, String.utf8ByteSize_singleton, hc, hl, List.length_cons,
        Nat.add_comm]

theorem Frame.utf8ByteSize_rowText (row : BitVec 64) : (rowText row).utf8ByteSize = 64 := by
  rw [rowText, utf8ByteSize_ofList, List.length_map, List.length_range]
  intro c hc
  obtain ⟨x, -, rfl⟩ := List.mem_map.mp hc
  split <;> rfl

theorem Frame.utf8ByteSize_text (f : Frame) : f.text.utf8ByteSize = 65 * 32 := by
  have hlines : ∀ line ∈ f.rows.toList.map fun row => rowText row ++ "\n", line.utf8ByteSize = 65 := by
    intro line hline
    obtain ⟨row, -, rfl⟩ := List.mem_map.mp hline
    rw [String.utf8ByteSize_append, utf8ByteSize_rowText]
    rfl
  rw [text, utf8ByteSize_join hlines, List.length_map, Vector.length_toList]

namespace Printed

theorem utf8ByteSize_screenful (f : Frame) : (screenful f).utf8ByteSize = 2090 := by
  rw [screenful, String.utf8ByteSize_append, Frame.utf8ByteSize_text]
  rfl

theorem utf8ByteSize_screenfuls (shown : List Frame) :
    (String.join (shown.map screenful)).utf8ByteSize = 2090 * shown.length := by
  have hsizes : ∀ t ∈ shown.map screenful, t.utf8ByteSize = 2090 := by
    intro t ht
    obtain ⟨f, -, rfl⟩ := List.mem_map.mp ht
    exact utf8ByteSize_screenful f
  rw [utf8ByteSize_join hsizes, List.length_map]

end Printed

/-! ## Printing, call after call -/

inductive PrintCall where
  | stroke (s : Stroke)
  | render

namespace PrintCall

def stroke? : PrintCall → Option Stroke
  | stroke s => some s
  | render => none

/-- The picture at each render. Whether that succeeds makes no difference to it. -/
def snapshots (f : Frame) : List PrintCall → List Frame
  | [] => []
  | stroke s :: calls => snapshots (f.stroke s) calls
  | render :: calls => f :: snapshots f calls

end PrintCall

namespace Printed

def make (p : Printed) : PrintCall → Printed
  | .stroke (.toggle x y) => (Screen.toggle p x y).2
  | .stroke .clear => Screen.clear p
  | .render => (Screen.render p).screen

def after (p : Printed) (calls : List PrintCall) : Printed := calls.foldl make p

/-- The pictures that the sink took when they were rendered, in order. -/
def taken (p : Printed) : List PrintCall → List Frame
  | [] => []
  | .stroke s :: calls => (p.make (.stroke s)).taken calls
  | .render :: calls => (if p.sink.refuses then [] else [p.frame]) ++ (p.make .render).taken calls

end Printed

/-- The sink with screenfuls of these pictures written to it, each flushed. -/
def Sink.took (s : Sink) (pictures : List Frame) : Sink where
  text := s.text ++ String.join (pictures.map Printed.screenful)
  flushes := s.flushes + pictures.length
  refuseAfter := s.refuseAfter
  failFlushAt := s.failFlushAt

namespace Sink

theorem took_nil (s : Sink) : s.took [] = s := by
  simp [took]

theorem took_append (s : Sink) (first rest : List Frame) : s.took (first ++ rest) = (s.took first).took rest := by
  simp [took, String.append_assoc, Nat.add_assoc]

/-- Those of the pictures that the sink will take before it refuses the rest. -/
def limit (s : Sink) (pictures : List Frame) : List Frame :=
  s.refuseAfter.elim pictures fun k => pictures.take (k - s.flushes)

theorem limit_cons (s : Sink) (f : Frame) (pictures : List Frame) : s.limit (f :: pictures) =
    (if s.refuses then [] else [f]) ++ (s.took (if s.refuses then [] else [f])).limit pictures := by
  cases h : s.refuseAfter with
  | none => simp [limit, refuses, took, h]
  | some k =>
      by_cases hk : k ≤ s.flushes
      · simp [limit, refuses, took, h, hk]
      · have hroom : k - s.flushes = k - (s.flushes + 1) + 1 := by omega
        simp [limit, refuses, took, h, hk, hroom]

end Sink

namespace Printed

open PrintCall (snapshots)

variable {p : Printed}

theorem render_of_refuses (h : p.sink.refuses) : Screen.render p = ⟨.error (.io "sink is full"), [], p⟩ := by
  simp [Screen.render, render, Sink.write, h]

theorem render_of_takes (h : ¬ p.sink.refuses) : Screen.render p =
    ⟨if p.sink.failFlushAt = some (p.sink.flushes + 1) then .error (.io "flush failed") else .ok (), [],
      { p with sink := p.sink.took [p.frame] }⟩ := by
  simp [Screen.render, render, Sink.write, Sink.flush, Sink.took, h]

theorem io_of_render (h : p.sink.refuses ∨ p.sink.failFlushAt = some (p.sink.flushes + 1)) :
    ∃ t, (Screen.render p).result = .error (.io t) := by
  by_cases hrefuses : p.sink.refuses
  · rw [render_of_refuses hrefuses]
    exact ⟨_, rfl⟩
  · rw [render_of_takes hrefuses]
    exact ⟨_, if_pos (h.resolve_left hrefuses)⟩

theorem ok_of_render (h : ¬ (p.sink.refuses ∨ p.sink.failFlushAt = some (p.sink.flushes + 1))) :
    (Screen.render p).result = .ok () := by
  obtain ⟨hrefuses, hflush⟩ := not_or.mp h
  rw [render_of_takes hrefuses]
  exact if_neg hflush

theorem make_stroke (p : Printed) (s : Stroke) : p.make (.stroke s) = { p with frame := p.frame.stroke s } := by
  cases s <;> rfl

theorem make_render (p : Printed) :
    p.make .render = { p with sink := p.sink.took (if p.sink.refuses then [] else [p.frame]) } := by
  rw [make]
  by_cases h : p.sink.refuses
  · rw [render_of_refuses h, if_pos h, Sink.took_nil]
  · rw [render_of_takes h, if_neg h]

theorem after_eq (p : Printed) (calls : List PrintCall) :
    p.after calls = ⟨p.sink.took (p.taken calls), p.frame.strokes (calls.filterMap PrintCall.stroke?)⟩ := by
  induction calls generalizing p with
  | nil =>
      rw [taken, Sink.took_nil]
      rfl
  | cons c calls ih =>
      have hafter : p.after (c :: calls) = (p.make c).after calls := rfl
      rw [hafter, ih]
      cases c with
      | stroke s =>
          rw [taken, make_stroke]
          rfl
      | render =>
          rw [taken, Sink.took_append, make_render]
          rfl

theorem taken_eq_limit (p : Printed) (calls : List PrintCall) :
    p.taken calls = p.sink.limit (snapshots p.frame calls) := by
  induction calls generalizing p with
  | nil => cases h : p.sink.refuseAfter <;> simp [taken, snapshots, Sink.limit, h]
  | cons c calls ih =>
      cases c with
      | stroke s =>
          rw [taken, ih, make_stroke]
          rfl
      | render =>
          rw [taken, ih, make_render, snapshots]
          exact (p.sink.limit_cons p.frame _).symm

/-- What a printed screen has written to a sink that refuses all writes after some flushes and fails at one flush, if it
ever does. That is a screenful for each render that the sink took, which are those before it began to refuse, and each
of 2090 bytes and flushed once; nothing else writes. A render fails if it is refused, and then does nothing at all, or
if its flush fails, and then its screenful stays written. None of that shows in the picture. It makes no difference if
screenfuls are written in pieces. -/
theorem whole_screenfuls (refuseAfter failFlushAt : Option Nat) (calls : List PrintCall) :
    let new : Printed := { sink := { refuseAfter, failFlushAt } }
    let p := new.after calls
    let shown := Screen.render p
    let refused := ∃ k, refuseAfter = some k ∧ k ≤ p.sink.flushes
    p.sink.text = String.join ((new.taken calls).map fun f => "\x1b[2J\x1b[1;1H" ++ f.text) ∧
    new.taken calls = (refuseAfter.elim (snapshots .blank calls) fun k => (snapshots .blank calls).take k) ∧
    p.sink.text.utf8ByteSize = 2090 * p.sink.flushes ∧
    p.frame = Frame.blank.strokes (calls.filterMap PrintCall.stroke?) ∧
    (∀ s, (p.make (.stroke s)).sink = p.sink) ∧
    (refused ∨ failFlushAt = some (p.sink.flushes + 1) → ∃ t, shown.result = .error (.io t)) ∧
    (¬ (refused ∨ failFlushAt = some (p.sink.flushes + 1)) → shown.result = .ok ()) ∧
    (refused → shown.screen = p) ∧
    (¬ refused → shown.screen.frame = p.frame ∧ shown.screen.sink.flushes = p.sink.flushes + 1 ∧
      shown.screen.sink.text = p.sink.text ++ "\x1b[2J\x1b[1;1H" ++ p.frame.text) ∧
    (Screen.render p.console).result = shown.result ∧ (Screen.render p.console).screen = shown.screen.console := by
  intro new p shown refused
  have hp : p = ⟨new.sink.took (new.taken calls), Frame.blank.strokes (calls.filterMap PrintCall.stroke?)⟩ :=
    after_eq new calls
  have hsink : p.sink = new.sink.took (new.taken calls) := congrArg sink hp
  have htext : p.sink.text = String.join ((new.taken calls).map screenful) := by
    rw [hsink]
    exact String.empty_append
  have hrefused : refused ↔ p.sink.refuses := by
    have hafter : p.sink.refuseAfter = refuseAfter := congrArg Sink.refuseAfter hsink
    rw [Sink.refuses, hafter, Option.any_eq_true]
    exact exists_congr fun k => by rw [decide_eq_true_eq]
  have hfails : refused ∨ failFlushAt = some (p.sink.flushes + 1) ↔
      p.sink.refuses ∨ p.sink.failFlushAt = some (p.sink.flushes + 1) := by
    rw [hrefused, congrArg Sink.failFlushAt hsink]
    rfl
  refine ⟨htext, new.taken_eq_limit calls, ?_, congrArg frame hp, ?_, ?_, ?_, ?_, ?_, ?_⟩
  · rw [htext, utf8ByteSize_screenfuls, hsink]
    exact congrArg (2090 * ·) (Nat.zero_add _).symm
  · intro s
    rw [make_stroke]
  · intro h
    exact io_of_render (hfails.mp h)
  · intro h
    exact ok_of_render (mt hfails.mpr h)
  · intro h
    exact congrArg Shown.screen (render_of_refuses (hrefused.mp h))
  · intro h
    have hshown : shown.screen = { p with sink := p.sink.took [p.frame] } :=
      congrArg Shown.screen (render_of_takes (mt hrefused.mpr h))
    rw [hshown]
    refine ⟨rfl, rfl, ?_⟩
    rw [Sink.took, List.map_singleton, String.join_cons, String.join_nil, String.append_empty, String.append_assoc]
    rfl
  · rw [render_console]
    exact ⟨rfl, rfl⟩

end Printed

end ChipEight
