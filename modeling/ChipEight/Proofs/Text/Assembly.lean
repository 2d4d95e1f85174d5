import ChipEight.Instr
import ChipEight.Proofs.Text.Numeral

/-!
Lines of assembly read back. A line names the word that it was made from, since decoding a word loses nothing and
writing the instruction down loses nothing either.
-/

namespace ChipEight

/-- The word that a line of assembly stands for. -/
def assemble : List Char → Nat
  | ['C', 'L', 'S'] => 0x00E0
  | 'J' :: 'P' :: ' ' :: '0' :: 'x' :: target => 0x1000 + hexValue target
  | 'L' :: 'D' :: ' ' :: 'V' :: x :: ',' :: ' ' :: '0' :: 'x' :: byte => 0x6000 + 0x100 * hexDigitValue x + hexValue byte
  | 'A' :: 'D' :: 'D' :: ' ' :: 'V' :: x :: ',' :: ' ' :: '0' :: 'x' :: byte =>
      0x7000 + 0x100 * hexDigitValue x + hexValue byte
  | 'L' :: 'D' :: ' ' :: 'I' :: ',' :: ' ' :: '0' :: 'x' :: target => 0xA000 + hexValue target
  | 'D' :: 'R' :: 'W' :: ' ' :: 'V' :: x :: ',' :: ' ' :: 'V' :: y :: ',' :: ' ' :: rows =>
      0xD000 + 0x100 * hexDigitValue x + 0x10 * hexDigitValue y + Nat.ofDigitChars 10 rows 0
  | '?' :: '?' :: '?' :: ' ' :: '0' :: 'x' :: word => hexValue word
  | _ => 0

namespace Instr

/-- The word that holds an instruction. -/
def word : Instr → Nat
  | cls => 0x00E0
  | jp target => 0x1000 + target
  | ld x byte => 0x6000 + 0x100 * x + byte.toNat
  | add x byte => 0x7000 + 0x100 * x + byte.toNat
  | ldI target => 0xA000 + target
  | drw x y rows => 0xD000 + 0x100 * x + 0x10 * y + rows
  | unknown word => word.toNat

theorem word_decode (w : UInt16) : (decode w).word = w.toNat := by
  have hw : w.toNat < 0x10000 := w.toNat_lt
  unfold decode
  split
  · split
    · case isTrue h => rw [h]; rfl
    · rfl
  all_goals simp only [word, addressOf, xOf, yOf, rowsOf, byteOf, Fin.val_ofNat, UInt8.toNat_ofNat']
  all_goals omega

/-- The machine runs the instruction. -/
def Known (i : Instr) : Prop := ∀ word, i ≠ unknown word

theorem word_lt (i : Instr) : i.word < 0x10000 := by
  cases i with
  | cls => decide
  | ld x byte | add x byte =>
      have hbyte := byte.toNat_lt
      simp only [word]
      omega
  | unknown word => exact word.toNat_lt
  | jp | ldI | drw =>
      simp only [word]
      omega

theorem fields_of_address {w : UInt16} {family : Nat} {a : Address} (h : w.toNat = 0x1000 * family + a) :
    w.toNat / 0x1000 = family ∧ addressOf w = a := by
  refine ⟨by omega, Fin.ext ?_⟩
  simp only [addressOf, Fin.val_ofNat]
  omega

theorem fields_of_byte {w : UInt16} {family : Nat} {x : Register} {byte : UInt8}
    (h : w.toNat = 0x1000 * family + 0x100 * x + byte.toNat) :
    w.toNat / 0x1000 = family ∧ xOf w = x ∧ byteOf w = byte := by
  have hbyte := byte.toNat_lt
  refine ⟨by omega, Fin.ext ?_, UInt8.toNat_inj.mp ?_⟩
  · simp only [xOf, Fin.val_ofNat]
    omega
  · simp only [byteOf, UInt8.toNat_ofNat']
    omega

theorem fields_of_rows {w : UInt16} {family : Nat} {x y : Register} {rows : Fin 16}
    (h : w.toNat = 0x1000 * family + 0x100 * x + 0x10 * y + rows) :
    w.toNat / 0x1000 = family ∧ xOf w = x ∧ yOf w = y ∧ rowsOf w = rows := by
  refine ⟨by omega, Fin.ext ?_, Fin.ext ?_, Fin.ext ?_⟩
  all_goals simp only [xOf, yOf, rowsOf, Fin.val_ofNat]
  all_goals omega

/-- An instruction is read back from its word. -/
theorem decode_word {i : Instr} (h : i.Known) : decode (UInt16.ofNat i.word) = i := by
  have hw : (UInt16.ofNat i.word).toNat = i.word := UInt16.toNat_ofNat_of_lt' i.word_lt
  generalize UInt16.ofNat i.word = w at hw
  cases i with
  | cls =>
      obtain rfl : w = 0x00E0 := UInt16.toNat_inj.mp hw
      rfl
  | jp target =>
      obtain ⟨hfamily, htarget⟩ := fields_of_address (a := target) (show w.toNat = 0x1000 * 1 + target from hw)
      simp only [decode, hfamily, htarget]
  | ldI target =>
      obtain ⟨hfamily, htarget⟩ := fields_of_address (a := target) (show w.toNat = 0x1000 * 10 + target from hw)
      simp only [decode, hfamily, htarget]
  | ld x byte =>
      obtain ⟨hfamily, hx, hbyte⟩ := fields_of_byte (show w.toNat = 0x1000 * 6 + 0x100 * x + byte.toNat from hw)
      simp only [decode, hfamily, hx, hbyte]
  | add x byte =>
      obtain ⟨hfamily, hx, hbyte⟩ := fields_of_byte (show w.toNat = 0x1000 * 7 + 0x100 * x + byte.toNat from hw)
      simp only [decode, hfamily, hx, hbyte]
  | drw x y rows =>
      obtain ⟨hfamily, hx, hy, hrows⟩ := fields_of_rows
        (show w.toNat = 0x1000 * 13 + 0x100 * x + 0x10 * y + rows from hw)
      simp only [decode, hfamily, hx, hy, hrows]
  | unknown word => exact absurd rfl (h word)

theorem toList_registerName (x : Register) : (registerName x).toList = ['V', x.val.digitChar.toUpper] := by
  rw [registerName, String.toList_append, toList_hexPlain, hexDigits_of_lt x.isLt]
  rfl

theorem assemble_text (i : Instr) : assemble i.text.toList = i.word := by
  cases i with
  | cls => rfl
  | jp target =>
      have htext : (jp target).text.toList = 'J' :: 'P' :: ' ' :: '0' :: 'x' :: hexDigits 3 target := by
        simp [text]
      rw [htext]
      show 0x1000 + hexValue (hexDigits 3 target) = 0x1000 + target
      rw [hexValue_hexDigits]
  | ld x byte =>
      have htext : (ld x byte).text.toList = 'L' :: 'D' :: ' ' :: 'V' :: x.val.digitChar.toUpper :: ',' :: ' ' :: '0' ::
          'x' :: hexDigits 2 byte.toNat := by
        simp [text, toList_registerName]
      rw [htext]
      show 0x6000 + 0x100 * hexDigitValue x.val.digitChar.toUpper + hexValue (hexDigits 2 byte.toNat) = _
      rw [hexDigitValue_digitChar x x.isLt, hexValue_hexDigits, word]
  | add x byte =>
      have htext : (add x byte).text.toList = 'A' :: 'D' :: 'D' :: ' ' :: 'V' :: x.val.digitChar.toUpper :: ',' :: ' ' ::
          '0' :: 'x' :: hexDigits 2 byte.toNat := by
        simp [text, toList_registerName]
      rw [htext]
      show 0x7000 + 0x100 * hexDigitValue x.val.digitChar.toUpper + hexValue (hexDigits 2 byte.toNat) = _
      rw [hexDigitValue_digitChar x x.isLt, hexValue_hexDigits, word]
  | ldI target =>
      have htext : (ldI target).text.toList = 'L' :: 'D' :: ' ' :: 'I' :: ',' :: ' ' :: '0' :: 'x' :: hexDigits 3 target := by
        simp [text]
      rw [htext]
      show 0xA000 + hexValue (hexDigits 3 target) = 0xA000 + target
      rw [hexValue_hexDigits]
  | drw x y rows =>
      have htext : (drw x y rows).text.toList = 'D' :: 'R' :: 'W' :: ' ' :: 'V' :: x.val.digitChar.toUpper :: ',' :: ' ' ::
          'V' :: y.val.digitChar.toUpper :: ',' :: ' ' :: Nat.toDigits 10 rows := by
        simp [text, toList_registerName]
      rw [htext]
      show 0xD000 + 0x100 * hexDigitValue x.val.digitChar.toUpper + 0x10 * hexDigitValue y.val.digitChar.toUpper +
        Nat.ofDigitChars 10 (Nat.toDigits 10 rows) 0 = _
      rw [hexDigitValue_digitChar x x.isLt, hexDigitValue_digitChar y y.isLt, Nat.ofDigitChars_ten_toDigits, word]
  | unknown w =>
      have htext : (unknown w).text.toList = '?' :: '?' :: '?' :: ' ' :: '0' :: 'x' :: hexDigits 4 w.toNat := by
        simp [text]
      rw [htext]
      show hexValue (hexDigits 4 w.toNat) = w.toNat
      rw [hexValue_hexDigits]

theorem text_decode_inj {w w' : UInt16} : (decode w).text = (decode w').text ↔ w = w' := by
  constructor
  · intro h
    apply UInt16.toNat_inj.mp
    rw [← word_decode w, ← word_decode w', ← assemble_text, ← assemble_text, h]
  · rintro rfl
    rfl

end Instr

end ChipEight
