import ChipEight.Event
import ChipEight.Frame

/-!
The link between a machine and the canvas that shows its pictures. It holds one frame. The producer never waits:
when a frame is still there it is thrown away and the new one takes its place. Producer and viewer each act in
steps that cannot be split, and the other side may act between any two of them.
-/

namespace ChipEight

/-- How the viewer ended. -/
inductive Finish where
  | ok
  | io (text : String)
  | crashed
  deriving DecidableEq, Repr

def Finish.result : Finish → Except ScreenFault Unit
  | ok => .ok ()
  | io text => .error (.io text)
  | crashed => .error .crashed

/-- How far the producer is with a frame. -/
inductive Phase where
  | idle
  | sending (f : Frame)
  /-- The link was full; about to take the stale frame off. -/
  | evicting (f : Frame)
  deriving DecidableEq

structure Link where
  slot : Option Frame := none
  phase : Phase := .idle
  hungUp : Bool := false
  finish? : Option Finish := none
  /-- Frames thrown away before the viewer took them. -/
  dropped : Nat := 0
  deriving DecidableEq

inductive Received where
  | frame (f : Frame)
  | empty
  | hungUp
  deriving DecidableEq

namespace Link

/-! ## The producer -/

def offer (l : Link) (f : Frame) : Link := { l with phase := .sending f }

/-- The producer's next step: put the frame on the link if there is room, or take the stale one off. -/
def advance (l : Link) : List Event × Link :=
  match l.phase with
  | .idle => ([], l)
  | .sending f =>
      match l.slot with
      | none => ([], { l with slot := some f, phase := .idle })
      | some _ => ([], { l with phase := .evicting f })
  | .evicting f =>
      match l.slot with
      | none => ([], { l with phase := .sending f })
      | some _ =>
          ([.frameReplaced (l.dropped + 1)],
            { l with slot := none, phase := .sending f, dropped := l.dropped + 1 })

def advances : Nat → Link → List Event × Link
  | 0, l => ([], l)
  | n + 1, l =>
      let (first, l) := l.advance
      let (rest, l) := advances n l
      (first ++ rest, l)

/-- Sends the frame in hand: a try, an eviction and a second try are always enough. -/
def settle (l : Link) : List Event × Link := l.advances 3

def hangUp (l : Link) : Link := { l with hungUp := true }

/-! ## The viewer -/

/-- Takes the frame off the link. The hang-up shows only when no frame is left. -/
def receive (l : Link) : Received × Link :=
  match l.slot with
  | some f => (.frame f, { l with slot := none })
  | none => (if l.hungUp then .hungUp else .empty, l)

/-- The viewer ends; only the first end counts. A frame on the link stays there. -/
def finish (l : Link) (f : Finish) : Link := { l with finish? := l.finish?.or (some f) }

def isFinished (l : Link) : Bool := l.finish?.isSome

theorem advance_idle {l : Link} (h : l.phase = .idle) : l.advance = ([], l) := by simp [advance, h]

/-- Undisturbed, a send leaves the newest frame on the link and the producer idle. -/
theorem settle_offer (l : Link) (f : Frame) :
    (l.offer f).settle.2 =
      { l with slot := some f, phase := .idle, dropped := l.dropped + l.slot.toList.length } := by
  cases h : l.slot <;> simp [settle, offer, advances, advance, h]

end Link

end ChipEight
