import ChipEight.Proofs.Screen.Mirror

/-!
The screen that prints, on any writer. A screenful is written piece by piece and then flushed; the first thing that the
writer refuses to do is the end of that.
-/

namespace ChipEight

/-- Somewhere for text to go. How much it keeps of a text that it refuses is its own affair. -/
class Writer (ω : Type) where
  write : ω → String → Except String Unit × ω
  flush : ω → Except String Unit × ω

instance : Writer Sink where
  write s t := if s.refuses then (.error "sink is full", s) else (.ok (), { s with text := s.text ++ t })
  flush s :=
    let s := { s with flushes := s.flushes + 1 }
    (if s.failFlushAt = some s.flushes then .error "flush failed" else .ok (), s)

/-- A screenful as it is written. -/
def Printed.pieces (f : Frame) : List String := [wipe, home, f.text]

namespace Writer

variable {ω : Type} [Writer ω] {out out' : ω} {t : String}

/-- Writes the texts in turn, up to the first that is refused. -/
def writeAll (out : ω) : List String → Except String Unit × ω
  | [] => (.ok (), out)
  | piece :: rest =>
      match write out piece with
      | (.error t, out) => (.error t, out)
      | (.ok (), out) => writeAll out rest

def print (out : ω) (f : Frame) : Except String Unit × ω :=
  match writeAll out (Printed.pieces f) with
  | (.error t, out) => (.error t, out)
  | (.ok (), out) => flush out

theorem writeAll_of_written {piece : String} (h : write out piece = (.ok (), out')) (rest : List String) :
    writeAll out (piece :: rest) = writeAll out' rest := by
  rw [writeAll, h]

theorem writeAll_of_refused {piece : String} (h : write out piece = (.error t, out')) (rest : List String) :
    writeAll out (piece :: rest) = (.error t, out') := by
  rw [writeAll, h]

/-- While it is given a picture the writer refuses a piece, or else fails to flush, and says `t`. -/
inductive Fails (out : ω) (f : Frame) (t : String) : Prop where
  | write {before after : List String} {piece : String} {out' : ω} : Printed.pieces f = before ++ piece :: after →
      writeAll out before = (.ok (), out') → (write out' piece).1 = .error t → Fails out f t
  | flush {out' : ω} : writeAll out (Printed.pieces f) = (.ok (), out') → (flush out').1 = .error t → Fails out f t

theorem refused_of_writeAll {pieces : List String} (h : writeAll out pieces = (.error t, out')) :
    ∃ before piece after reached, pieces = before ++ piece :: after ∧ writeAll out before = (.ok (), reached) ∧
      (write reached piece).1 = .error t := by
  induction pieces generalizing out with
  | nil => cases h
  | cons piece rest ih =>
      rcases hw : write out piece with ⟨e | _, next⟩
      · rw [writeAll_of_refused hw] at h
        cases h
        exact ⟨[], piece, rest, out, rfl, rfl, congrArg Prod.fst hw⟩
      · rw [writeAll_of_written hw] at h
        obtain ⟨before, piece', after, reached, rfl, hbefore, hrefused⟩ := ih h
        exact ⟨piece :: before, piece', after, reached, rfl, (writeAll_of_written hw _).trans hbefore, hrefused⟩

theorem fails_of_print {f : Frame} (h : (print out f).1 = .error t) : Fails out f t := by
  unfold print at h
  rcases hw : writeAll out (Printed.pieces f) with ⟨e | _, next⟩
  · rw [hw] at h
    cases h
    obtain ⟨before, piece, after, reached, hpieces, hbefore, hrefused⟩ := refused_of_writeAll hw
    exact .write hpieces hbefore hrefused
  · rw [hw] at h
    exact .flush hw h

end Writer

structure Console (ω : Type) where
  out : ω
  frame : Frame := .blank

instance {ω : Type} [Writer ω] : Screen (Console ω) where
  clear s := { s with frame := .blank }
  toggle s x y := let (r, f) := s.frame.toggle x y; (r, { s with frame := f })
  render s := let (r, out) := Writer.print s.out s.frame; ⟨r.mapError .io, [], { s with out }⟩
  isClosed s := (false, s)

namespace Printed

def console (s : Printed) : Console Sink := ⟨s.sink, s.frame⟩

theorem print_sink (s : Sink) (f : Frame) : Writer.print s f =
    if s.refuses then (.error "sink is full", s)
    else Writer.flush { s with text := s.text ++ screenful f } := by
  unfold Writer.print
  by_cases h : s.refuses
  · rw [pieces, Writer.writeAll_of_refused (if_pos h), if_pos h]
  · have hkept (t : String) : ¬ Sink.refuses { s with text := t } := h
    rw [pieces, Writer.writeAll_of_written (if_neg h), Writer.writeAll_of_written (if_neg (hkept _)),
      Writer.writeAll_of_written (if_neg (hkept _)), if_neg h, screenful, ← String.append_assoc, ← String.append_assoc]
    rfl

/-- It does not matter that a screenful is written in pieces: the sink takes all of them or none. -/
theorem render_console (s : Printed) : Screen.render s.console =
    ⟨(Screen.render s).result, (Screen.render s).events, (Screen.render s).screen.console⟩ := by
  simp only [Screen.render, console, print_sink, render, Sink.write]
  by_cases h : s.sink.refuses
  · simp only [if_pos h]
    rfl
  · simp only [if_neg h, Sink.flush, Writer.flush]
    split <;> rfl

end Printed

end ChipEight
