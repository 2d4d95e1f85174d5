import ChipEight.Text.Datum
import ChipEight.Text.Hex

/-!
What can go wrong, as causes. Each cause has one message for people and one structured form.
-/

namespace ChipEight

inductive ScreenFault where
  | offGrid (x y : UInt16)
  | io (text : String)
  | crashed
  deriving DecidableEq, Repr

namespace ScreenFault

def message : ScreenFault → String
  | offGrid x y =>
      "pixel (" ++ toString x.toNat ++ ", " ++ toString y.toNat ++ ") is outside the 64x32 display"
  | io text => "terminal error: " ++ text
  | crashed => "renderer thread panicked"

def datum : ScreenFault → Datum
  | offGrid x y => .full "PixelOutOfBounds" [("x", .nat x.toNat), ("y", .nat y.toNat)]
  | io text => .wrapped "Io" (.full "Custom" [("kind", .atom "Other"), ("error", .text text)])
  | crashed => .atom "RendererPanicked"

end ScreenFault

inductive Fault where
  | unknownWord (pc word : UInt16)
  | doesNotFit (offset : UInt16) (length : Nat)
  | unreadable (address : UInt16) (length : Nat)
  | ranOff (pc : UInt16)
  | spriteOutside (pc word index : UInt16) (rows : UInt8)
  | screen (pc word : UInt16) (cause : ScreenFault)
  deriving DecidableEq, Repr

namespace Fault

def message : Fault → String
  | unknownWord pc word => "unknown instruction " ++ hex 4 word.toNat ++ " at " ++ hex 3 pc.toNat
  | doesNotFit offset length =>
      toString length ++ " byte(s) at " ++ hex 3 offset.toNat ++ " do not fit in memory"
  | unreadable address length =>
      "memory access out of bounds: " ++ toString length ++ " byte(s) at " ++ hex 3 address.toNat
  | ranOff pc => "program counter " ++ hex 4 pc.toNat ++ " is past the end of memory"
  | spriteOutside pc word index rows =>
      "sprite of " ++ toString rows.toNat ++ " row(s) at I=" ++ hex 3 index.toNat ++ " runs past memory (" ++
        hex 4 word.toNat ++ " at " ++ hex 3 pc.toNat ++ ")"
  | screen pc word cause =>
      "display failed executing " ++ hex 4 word.toNat ++ " at " ++ hex 3 pc.toNat ++ ": " ++ cause.message

def datum : Fault → Datum
  | unknownWord pc word => .full "UnknownOpcode" [("addr", .nat pc.toNat), ("opcode", .nat word.toNat)]
  | doesNotFit offset length => .full "ProgramTooLarge" [("offset", .nat offset.toNat), ("len", .nat length)]
  | unreadable address length => .full "MemoryOutOfBounds" [("addr", .nat address.toNat), ("len", .nat length)]
  | ranOff pc => .full "ProgramCounterOutOfBounds" [("pc", .nat pc.toNat)]
  | spriteOutside pc word index rows =>
      .full "SpriteOutOfBounds" [("addr", .nat pc.toNat), ("opcode", .nat word.toNat),
        ("index", .nat index.toNat), ("rows", .nat rows.toNat)]
  | screen pc word cause =>
      .full "Display" [("addr", .nat pc.toNat), ("opcode", .nat word.toNat), ("source", cause.datum)]

/-- What the screen reported, if the screen was the cause. -/
def screenCause? : Fault → Option ScreenFault
  | screen _ _ cause => some cause
  | _ => none

/-- The screen itself broke: the program asked for nothing wrong. -/
def isScreenFailure (f : Fault) : Bool :=
  match f.screenCause? with
  | some (.io _) | some .crashed => true
  | _ => false

end Fault

inductive OsErrorKind where
  | notFound | permissionDenied | uncategorized
  deriving DecidableEq, Repr

def OsErrorKind.name : OsErrorKind → String
  | notFound => "NotFound"
  | permissionDenied => "PermissionDenied"
  | uncategorized => "Uncategorized"

structure OsError where
  code : Nat
  kind : OsErrorKind
  text : String
  deriving DecidableEq, Repr

namespace OsError

def noSuchFile : OsError := ⟨2, .notFound, "No such file or directory"⟩

def noSuchDevice : OsError := ⟨6, .uncategorized, "No such device or address"⟩

def message (e : OsError) : String := e.text ++ " (os error " ++ toString e.code ++ ")"

def datum (e : OsError) : Datum :=
  .full "Os" [("code", .nat e.code), ("kind", .atom e.kind.name), ("message", .text e.text)]

end OsError

inductive Failure where
  | fault (cause : Fault)
  | screen (cause : ScreenFault)
  | noProgram (cause : OsError)
  | noTerminal (cause : OsError)
  deriving DecidableEq, Repr

namespace Failure

def message : Failure → String
  | fault cause => cause.message
  | screen cause => cause.message
  | noProgram cause => cause.message
  | noTerminal cause => "terminal error: " ++ cause.message

def datum : Failure → Datum
  | fault cause => cause.datum
  | screen cause => cause.datum
  | noProgram cause => cause.datum
  | noTerminal cause => .wrapped "Io" cause.datum

end Failure

end ChipEight
