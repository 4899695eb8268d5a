import Mathlib.Data.List.Basic
import SignalPaths.File

/-!
Numbers, characters and bytes in texts: what the readers of digits accept, what is written for a
number or a code point, and what is shown for the bytes of a text.
-/

namespace SignalPaths.Text

theorem charOf?_toNat (c : Char) : charOf? c.toNat = some c := by
  have valid : c.toNat.isValidChar := c.valid
  rw [charOf?, dif_pos valid]
  rfl

theorem ne_of_isDigit {c d : Char} (digit : c.isDigit = true) (mark : d.isDigit = false) :
    c ≠ d := by
  rintro rfl
  rw [digit] at mark
  cases mark

theorem isDigit_decimal {n : Nat} {c : Char} (member : c ∈ decimal n) : c.isDigit = true :=
  Nat.isDigit_of_mem_toDigits (by decide) (by decide) member

theorem digitChar_ne_zero : ∀ n < 10, 0 < n → Nat.digitChar n ≠ '0' := by
  decide

theorem head_decimal {n : Nat} (positive : 0 < n) : (decimal n).head? ≠ some '0' := by
  induction n using Nat.strongRecOn with
  | ind n ih =>
    unfold decimal at ih ⊢
    by_cases short : n < 10
    · rw [Nat.toDigits_of_lt_base short, List.head?_cons, ne_eq, Option.some_inj]
      exact digitChar_ne_zero n short positive
    · have leading : (Nat.toDigits 10 (n / 10)).head? ≠ some '0' := ih (n / 10) (by omega) (by omega)
      rwa [Nat.toDigits_of_base_le (by decide) (by omega),
        List.head?_append_of_ne_nil _ Nat.toDigits_ne_nil]

theorem readDigits_eq_some_iff {cs : List Char} {n : Nat} : readDigits cs = some n ↔
    cs ≠ [] ∧ (∀ c ∈ cs, c.isDigit = true) ∧ Nat.ofDigitChars 10 cs 0 = n := by
  simp [readDigits, and_assoc]

theorem readUnsigned_eq_some_iff {cs : List Char} {n : Nat} : readUnsigned cs = some n ↔
    ∃ digits, (cs = digits ∨ cs = '+' :: digits) ∧ readDigits digits = some n := by
  unfold readUnsigned
  split
  · next digits =>
    constructor
    · intro read
      exact ⟨digits, .inr rfl, read⟩
    · rintro ⟨others, rfl | same, read⟩
      · have sign := (readDigits_eq_some_iff.mp read).2.1 '+' List.mem_cons_self
        exact absurd sign (by decide)
      · rw [(List.cons.inj same).2]
        exact read
  · next signless =>
    constructor
    · intro read
      exact ⟨cs, .inl rfl, read⟩
    · rintro ⟨others, rfl | same, read⟩
      · exact read
      · exact (signless others same).elim

theorem shown_skip (v rest : List UInt8) : shown v.length (v ++ rest) = shown 0 rest := by
  induction v with
  | nil => rfl
  | cons byte v ih => exact ih

theorem shown_character (c : Char) (rest : List UInt8) :
    shown 0 (String.utf8EncodeChar c ++ rest) = c :: shown 0 rest := by
  obtain ⟨first, more, encoded⟩ :=
    List.exists_cons_of_ne_nil (String.utf8EncodeChar_ne_nil (c := c))
  have size : more.length + 1 = c.utf8Size := by
    rw [← String.length_utf8EncodeChar, encoded, List.length_cons]
  have short : more.length ≤ 3 := by
    have := c.utf8Size_le_four
    omega
  have decoded : (first :: (more ++ rest).take 3).toByteArray.utf8DecodeChar? 0 = some c := by
    rw [List.take_append, List.take_of_length_le short, ← List.cons_append, ← encoded,
      List.toByteArray_append]
    exact ByteArray.utf8DecodeChar?_utf8EncodeChar_append
  rw [encoded, List.cons_append, shown, decoded]
  simp only [← size, Nat.add_sub_cancel, shown_skip]

end SignalPaths.Text

namespace SignalPaths.FilePath

/-- The path of a text is shown as that text. -/
theorem display_ofText (text : String) : (ofText text).display = text := by
  have bytes : (ofText text).bytes = text.toList.flatMap String.utf8EncodeChar := by
    rw [ofText, ofBytes, String.toUTF8_eq_toByteArray, ← String.utf8Encode_toList]
    simp [List.utf8Encode]
  have shown (cs : List Char) : Text.shown 0 (cs.flatMap String.utf8EncodeChar) = cs := by
    induction cs with
    | nil => rfl
    | cons c cs ih => rw [List.flatMap_cons, Text.shown_character, ih]
  rw [display, bytes, shown, String.ofList_toList]

end SignalPaths.FilePath
