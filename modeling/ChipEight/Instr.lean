import ChipEight.Text.Hex

/-!
Instruction words. A word is 16 bits: its high nibble names the family and the other three hold the
operands. Words outside the families that the machine runs decode to `unknown`.
-/

namespace ChipEight

abbrev Register := Fin 16

/-- The twelve bits that a word has room for. -/
abbrev Address := Fin 4096

inductive Instr where
  | cls
  | jp (target : Address)
  | ld (x : Register) (byte : UInt8)
  | add (x : Register) (byte : UInt8)
  | ldI (target : Address)
  | drw (x y : Register) (rows : Fin 16)
  | unknown (word : UInt16)
  deriving DecidableEq, Repr

namespace Instr

/-! ## Operand fields -/

def addressOf (w : UInt16) : Address := Fin.ofNat 4096 w.toNat

def xOf (w : UInt16) : Register := Fin.ofNat 16 (w.toNat / 0x100)

def yOf (w : UInt16) : Register := Fin.ofNat 16 (w.toNat / 0x10)

def rowsOf (w : UInt16) : Fin 16 := Fin.ofNat 16 w.toNat

def byteOf (w : UInt16) : UInt8 := UInt8.ofNat w.toNat

def decode (w : UInt16) : Instr :=
  match w.toNat / 0x1000 with
  | 0x0 => if w = 0x00E0 then cls else unknown w
  | 0x1 => jp (addressOf w)
  | 0x6 => ld (xOf w) (byteOf w)
  | 0x7 => add (xOf w) (byteOf w)
  | 0xA => ldI (addressOf w)
  | 0xD => drw (xOf w) (yOf w) (rowsOf w)
  | _ => unknown w

/-! ## Disassembly -/

def registerName (x : Register) : String := "V" ++ hexPlain 1 x

/-- One line of assembly; a word that is not understood shows as `???` and the word itself. -/
def text : Instr → String
  | cls => "CLS"
  | jp target => "JP " ++ hex 3 target
  | ld x byte => "LD " ++ registerName x ++ ", " ++ hex 2 byte.toNat
  | add x byte => "ADD " ++ registerName x ++ ", " ++ hex 2 byte.toNat
  | ldI target => "LD I, " ++ hex 3 target
  | drw x y rows => "DRW " ++ registerName x ++ ", " ++ registerName y ++ ", " ++ toString rows.val
  | unknown word => "??? " ++ hex 4 word.toNat

example : decode 0xD125 = drw 1 2 5 ∧ (decode 0x00EE).text = "??? 0x00EE" := by decide

end Instr

end ChipEight
