import ChipEight.Text.Hex

/-! Hexadecimal numerals read back. No digit is lost and none is in doubt, whatever the width. -/

namespace ChipEight

def hexDigitValue (c : Char) : Nat := if c.isDigit then c.toNat - '0'.toNat else c.toNat - 'A'.toNat + 10

/-- The number that a row of upper-case hexadecimal digits stands for. -/
def hexValue (digits : List Char) : Nat := digits.foldl (fun n c => 16 * n + hexDigitValue c) 0

theorem hexDigitValue_digitChar : ∀ d < 16, hexDigitValue d.digitChar.toUpper = d := by decide

theorem hexValue_concat (digits : List Char) (c : Char) :
    hexValue (digits ++ [c]) = 16 * hexValue digits + hexDigitValue c := by
  rw [hexValue, List.foldl_append]
  rfl

theorem hexValue_leftpad (width : Nat) (digits : List Char) : hexValue (digits.leftpad width '0') = hexValue digits := by
  have hzeros (n : Nat) : hexValue (List.replicate n '0') = 0 := by
    induction n with
    | zero => rfl
    | succ n ih => rw [List.replicate_succ', hexValue_concat, ih]; rfl
  rw [List.leftpad, hexValue, List.foldl_append, ← hexValue, hzeros]
  rfl

theorem hexValue_toDigits (n : Nat) : hexValue ((Nat.toDigits 16 n).map Char.toUpper) = n := by
  induction n using Nat.strongRecOn with
  | ind n ih =>
      by_cases hn : n < 16
      · rw [Nat.toDigits_of_lt_base hn]
        exact (Nat.zero_add _).trans (hexDigitValue_digitChar n hn)
      · rw [Nat.toDigits_of_base_le (by decide) (Nat.le_of_not_lt hn), List.map_append, List.map_singleton,
          hexValue_concat, ih (n / 16) (by omega), hexDigitValue_digitChar _ (Nat.mod_lt n (by decide))]
        omega

@[simp] theorem hexValue_hexDigits (width n : Nat) : hexValue (hexDigits width n) = n := by
  rw [hexDigits, hexValue_leftpad, hexValue_toDigits]

theorem hexDigits_inj {width n n' : Nat} : hexDigits width n = hexDigits width n' ↔ n = n' := by
  constructor
  · intro h
    rw [← hexValue_hexDigits width n, h, hexValue_hexDigits]
  · rintro rfl
    rfl

theorem mem_toDigits {b n : Nat} (hb : 1 < b) {c : Char} (h : c ∈ Nat.toDigits b n) : ∃ d < b, c = d.digitChar := by
  induction n using Nat.strongRecOn with
  | ind n ih =>
      by_cases hn : n < b
      · rw [Nat.toDigits_of_lt_base hn] at h
        exact ⟨n, hn, List.mem_singleton.mp h⟩
      · have hb' : 0 < b := Nat.zero_lt_of_lt hb
        rw [Nat.toDigits_of_base_le hb (Nat.le_of_not_lt hn)] at h
        obtain h | h := List.mem_append.mp h
        · exact ih (n / b) (Nat.div_lt_self (Nat.lt_of_lt_of_le hb' (Nat.le_of_not_lt hn)) hb) h
        · exact ⟨n % b, Nat.mod_lt n hb', List.mem_singleton.mp h⟩

theorem mem_hexDigits {width n : Nat} {c : Char} (h : c ∈ hexDigits width n) : ∃ d < 16, c = d.digitChar.toUpper := by
  obtain h | h := List.mem_append.mp h
  · exact ⟨0, by decide, List.eq_of_mem_replicate h⟩
  · obtain ⟨c, hc, rfl⟩ := List.mem_map.mp h
    obtain ⟨d, hd, rfl⟩ := mem_toDigits (by decide) hc
    exact ⟨d, hd, rfl⟩

theorem append_cons_inj {l l' rest rest' : List Char} {c : Char} (hl : c ∉ l) (hl' : c ∉ l') :
    l ++ c :: rest = l' ++ c :: rest' ↔ l = l' ∧ rest = rest' := by
  constructor
  · intro h
    have hbefore {k : List Char} (hk : c ∉ k) : ∀ c' ∈ k, decide (c' ≠ c) = true := fun c' hc' =>
      decide_eq_true (ne_of_mem_of_not_mem hc' hk)
    have htake := congrArg (List.takeWhile fun c' => decide (c' ≠ c)) h
    rw [List.takeWhile_append_of_pos (hbefore hl), List.takeWhile_append_of_pos (hbefore hl'),
      List.takeWhile_cons_of_neg (by simp), List.takeWhile_cons_of_neg (by simp), List.append_nil, List.append_nil] at htake
    rw [htake] at h
    exact ⟨htake, List.tail_eq_of_cons_eq (List.append_cancel_left h)⟩
  · rintro ⟨rfl, rfl⟩
    rfl

/-- A numeral ends where the first character stands that is no digit. -/
theorem hexDigits_append_inj {width n n' : Nat} {c : Char} {rest rest' : List Char}
    (hc : ∀ d < 16, c ≠ d.digitChar.toUpper) :
    hexDigits width n ++ c :: rest = hexDigits width n' ++ c :: rest' ↔ n = n' ∧ rest = rest' := by
  have hdigits (k : Nat) : c ∉ hexDigits width k := by
    intro h
    obtain ⟨d, hd, hcd⟩ := mem_hexDigits h
    exact hc d hd hcd
  rw [append_cons_inj (hdigits n) (hdigits n'), hexDigits_inj]

/-- So does one in decimal digits. -/
theorem toDigits_append_inj {n n' : Nat} {c : Char} {rest rest' : List Char} (hc : ∀ d < 10, c ≠ d.digitChar) :
    Nat.toDigits 10 n ++ c :: rest = Nat.toDigits 10 n' ++ c :: rest' ↔ n = n' ∧ rest = rest' := by
  have hdigits (k : Nat) : c ∉ Nat.toDigits 10 k := by
    intro h
    obtain ⟨d, hd, hcd⟩ := mem_toDigits (by decide) h
    exact hc d hd hcd
  have hinj : Nat.toDigits 10 n = Nat.toDigits 10 n' ↔ n = n' := by
    constructor
    · intro h
      rw [← Nat.ofDigitChars_ten_toDigits (n := n), h, Nat.ofDigitChars_ten_toDigits]
    · rintro rfl
      rfl
  rw [append_cons_inj (hdigits n) (hdigits n'), hinj]

theorem hexDigits_of_lt {d : Nat} (h : d < 16) : hexDigits 1 d = [d.digitChar.toUpper] := by
  rw [hexDigits, Nat.toDigits_of_lt_base h]
  rfl

@[simp] theorem toList_hexPlain (width n : Nat) : (hexPlain width n).toList = hexDigits width n := String.toList_ofList

@[simp] theorem toList_hex (width n : Nat) : (hex width n).toList = '0' :: 'x' :: hexDigits width n := by
  rw [hex, String.toList_append, toList_hexPlain]
  rfl

end ChipEight
