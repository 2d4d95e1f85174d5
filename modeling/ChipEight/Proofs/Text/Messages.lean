import ChipEight.Fault
import ChipEight.Proofs.Text.Numeral

/-!
Messages are unambiguous. What they begin with tells the cause, each numeral in them ends where a character stands that
is no digit, and what a screen says of itself comes last.
-/

namespace ChipEight

/-- The letter that a message begins with, if it does not begin with a number. -/
def initial? (message : String) : Option Char := message.toList.head?.filter Char.isAlpha

namespace ScreenFault

theorem toList_message (f : ScreenFault) : f.message.toList =
    match f with
    | offGrid x y =>
        "pixel (".toList ++ (Nat.toDigits 10 x.toNat ++ ',' :: ' ' :: (Nat.toDigits 10 y.toNat ++
          ')' :: " is outside the 64x32 display".toList))
    | io text => "terminal error: ".toList ++ text.toList
    | crashed => "renderer thread panicked".toList := by
  cases f with
  | offGrid x y =>
      show (_ ++ toString x.toNat ++ _ ++ toString y.toNat ++ _).toList = _
      simp
  | io text => exact String.toList_append
  | crashed => rfl

theorem initial?_message (f : ScreenFault) : initial? f.message =
    match f with
    | offGrid .. => some 'p'
    | io _ => some 't'
    | crashed => some 'r' := by
  rw [initial?, toList_message]
  cases f <;> rfl

theorem message_inj {f g : ScreenFault} : f.message = g.message ↔ f = g := by
  constructor
  · intro h
    have hinitial := congrArg initial? h
    have hchars := congrArg String.toList h
    rw [initial?_message, initial?_message] at hinitial
    rw [toList_message, toList_message] at hchars
    cases f with
    | offGrid x y =>
        cases g with
        | offGrid x' y' =>
            simp (disch := decide) only [List.append_cancel_left_eq, toDigits_append_inj, List.cons.injEq, true_and,
              and_true, UInt16.toNat_inj] at hchars
            obtain ⟨rfl, rfl⟩ := hchars
            rfl
        | _ => simp at hinitial
    | io text =>
        cases g with
        | io text' => rw [String.toList_inj.mp (List.append_cancel_left hchars)]
        | _ => simp at hinitial
    | crashed =>
        cases g with
        | crashed => rfl
        | _ => simp at hinitial
  · rintro rfl
    rfl

end ScreenFault

namespace Fault

theorem toList_message (f : Fault) : f.message.toList =
    match f with
    | unknownWord pc word =>
        "unknown instruction 0x".toList ++ (hexDigits 4 word.toNat ++ ' ' :: ("at 0x".toList ++ hexDigits 3 pc.toNat))
    | doesNotFit offset length =>
        Nat.toDigits 10 length ++ ' ' :: ("byte(s) at 0x".toList ++ (hexDigits 3 offset.toNat ++
          ' ' :: "do not fit in memory".toList))
    | unreadable address length =>
        "memory access out of bounds: ".toList ++ (Nat.toDigits 10 length ++
          ' ' :: ("byte(s) at 0x".toList ++ hexDigits 3 address.toNat))
    | ranOff pc => "program counter 0x".toList ++ (hexDigits 4 pc.toNat ++ ' ' :: "is past the end of memory".toList)
    | spriteOutside pc word index rows =>
        "sprite of ".toList ++ (Nat.toDigits 10 rows.toNat ++ ' ' :: ("row(s) at I=0x".toList ++
          (hexDigits 3 index.toNat ++ ' ' :: ("runs past memory (0x".toList ++ (hexDigits 4 word.toNat ++
            ' ' :: ("at 0x".toList ++ (hexDigits 3 pc.toNat ++ [')'])))))))
    | screen pc word cause =>
        "display failed executing 0x".toList ++ (hexDigits 4 word.toNat ++ ' ' :: ("at 0x".toList ++
          (hexDigits 3 pc.toNat ++ ':' :: ' ' :: cause.message.toList))) := by
  cases f with
  | unknownWord pc word =>
      show (_ ++ hex 4 word.toNat ++ _ ++ hex 3 pc.toNat).toList = _
      simp
  | doesNotFit offset length =>
      show (toString length ++ _ ++ hex 3 offset.toNat ++ _).toList = _
      simp
  | unreadable address length =>
      show (_ ++ toString length ++ _ ++ hex 3 address.toNat).toList = _
      simp
  | ranOff pc =>
      show (_ ++ hex 4 pc.toNat ++ _).toList = _
      simp
  | spriteOutside pc word index rows =>
      show (_ ++ toString rows.toNat ++ _ ++ hex 3 index.toNat ++ _ ++ hex 4 word.toNat ++ _ ++ hex 3 pc.toNat ++ _).toList = _
      simp
  | screen pc word cause =>
      show (_ ++ hex 4 word.toNat ++ _ ++ hex 3 pc.toNat ++ _ ++ cause.message).toList = _
      simp

theorem initial?_message (f : Fault) : initial? f.message =
    match f with
    | unknownWord .. => some 'u'
    | doesNotFit .. => none
    | unreadable .. => some 'm'
    | ranOff _ => some 'p'
    | spriteOutside .. => some 's'
    | screen .. => some 'd' := by
  rw [initial?, toList_message]
  cases f with
  | doesNotFit offset length =>
      have hdigits : ∀ d < 10, d.digitChar.isAlpha = false := by decide
      cases hlength : Nat.toDigits 10 length with
      | nil => simp [hlength]
      | cons c digits =>
          obtain ⟨d, hd, hc⟩ := mem_toDigits (by decide) (hlength ▸ List.mem_cons_self : c ∈ Nat.toDigits 10 length)
          simp [hlength, hc, hdigits d hd]
  | _ => rfl

theorem message_inj {f g : Fault} : f.message = g.message ↔ f = g := by
  constructor
  · intro h
    have hinitial := congrArg initial? h
    have hchars := congrArg String.toList h
    rw [initial?_message, initial?_message] at hinitial
    rw [toList_message, toList_message] at hchars
    cases f with
    | unknownWord pc word =>
        cases g with
        | unknownWord pc' word' =>
            simp (disch := decide) only [List.append_cancel_left_eq, hexDigits_append_inj, hexDigits_inj,
              UInt16.toNat_inj] at hchars
            obtain ⟨rfl, rfl⟩ := hchars
            rfl
        | _ => simp at hinitial
    | doesNotFit offset length =>
        cases g with
        | doesNotFit offset' length' =>
            simp (disch := decide) only [List.append_cancel_left_eq, toDigits_append_inj, hexDigits_append_inj, and_true,
              UInt16.toNat_inj] at hchars
            obtain ⟨rfl, rfl⟩ := hchars
            rfl
        | _ => simp at hinitial
    | unreadable address length =>
        cases g with
        | unreadable address' length' =>
            simp (disch := decide) only [List.append_cancel_left_eq, toDigits_append_inj, hexDigits_inj,
              UInt16.toNat_inj] at hchars
            obtain ⟨rfl, rfl⟩ := hchars
            rfl
        | _ => simp at hinitial
    | ranOff pc =>
        cases g with
        | ranOff pc' =>
            simp (disch := decide) only [List.append_cancel_left_eq, hexDigits_append_inj, and_true,
              UInt16.toNat_inj] at hchars
            rw [hchars]
        | _ => simp at hinitial
    | spriteOutside pc word index rows =>
        cases g with
        | spriteOutside pc' word' index' rows' =>
            simp (disch := decide) only [List.append_cancel_left_eq, toDigits_append_inj, hexDigits_append_inj, and_true,
              UInt16.toNat_inj, UInt8.toNat_inj] at hchars
            obtain ⟨rfl, rfl, rfl, rfl⟩ := hchars
            rfl
        | _ => simp at hinitial
    | screen pc word cause =>
        cases g with
        | screen pc' word' cause' =>
            simp (disch := decide) only [List.append_cancel_left_eq, hexDigits_append_inj, List.cons.injEq, true_and,
              UInt16.toNat_inj, String.toList_inj, ScreenFault.message_inj] at hchars
            obtain ⟨rfl, rfl, rfl⟩ := hchars
            rfl
        | _ => simp at hinitial
  · rintro rfl
    rfl

end Fault

/-- No two faults have the same message, and no two faults of a screen. The message alone tells what went wrong, where,
at which word and why, whatever words of its own a screen may have found for that. -/
theorem messages_unambiguous :
    (∀ f g : Fault, f.message = g.message ↔ f = g) ∧ ∀ f g : ScreenFault, f.message = g.message ↔ f = g :=
  ⟨fun _ _ => Fault.message_inj, fun _ _ => ScreenFault.message_inj⟩

end ChipEight
