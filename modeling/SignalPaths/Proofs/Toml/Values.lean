import Mathlib.Data.List.Forall2
import SignalPaths.Proofs.Toml.Strings
import SignalPaths.Text
import SignalPaths.Toml.Reader

/-!
Texts that spell a TOML value: with something after it that does not go on with a word or a string,
the reader takes exactly this text and gives the value. Strings, truth values and decimal numbers
spell what they are written for, and so do arrays of strings, on one line or with one string on each.
-/

namespace SignalPaths.Toml

variable {c : Char} {word text rest : List Char} {item : Item}

/-- What may follow a value. -/
def Ends (rest : List Char) : Prop :=
  ∀ c ∈ rest.head?, c ≠ '"' ∧ c ≠ '\x27' ∧ isScalarChar c = false

theorem Ends.unquoted (ends : Ends rest) : Unquoted rest :=
  fun c first => ⟨(ends c first).1, (ends c first).2.1⟩

theorem ends_cons (quote : c ≠ '"' ∧ c ≠ '\x27') (other : isScalarChar c = false)
    (rest : List Char) : Ends (c :: rest) := by
  intro d first
  obtain rfl : c = d := by simpa using first
  exact ⟨quote.1, quote.2, other⟩

/-- Characters that the reader skips before a value, or takes for something else. -/
def reserved : List Char := [' ', '\t', '\n', '\r', '#', '[', ']', '\x7b']

theorem ne_of_not_reserved {d : Char} (other : c ∉ reserved) (member : d ∈ reserved) : c ≠ d :=
  fun same => other (same ▸ member)

/-- A text of a value that holds no others. -/
structure SpellsFlat (text : List Char) (item : Item) : Prop where
  starts : ∃ c after, text = c :: after ∧ c ∉ reserved
  reads : ∀ rest, Ends rest → flatValue (text ++ rest) = some (item, rest)

section Words

theorem scalar_word (all : ∀ c ∈ word, isScalarChar c = true) (known : scalar? word = some item)
    (undated : isDate word = false) (ends : Ends rest) :
    scalar (word ++ rest) = some (item, rest) := by
  have stops : rest.takeWhile isScalarChar = [] ∧ rest.dropWhile isScalarChar = rest := by
    cases rest with
    | nil => exact ⟨rfl, rfl⟩
    | cons c rest => simp [(ends c rfl).2.2]
  simp [scalar, List.takeWhile_append_of_pos all, List.dropWhile_append_of_pos all, stops, known,
    undated]

theorem flatValue_scalar (first : isScalarChar c = true) (cs : List Char) :
    flatValue (c :: cs) = scalar (c :: cs) := by
  rw [flatValue]
  · intro after same
    rw [(List.cons.inj same).1] at first
    exact absurd first (by decide)
  · intro after same
    rw [(List.cons.inj same).1] at first
    exact absurd first (by decide)

theorem spellsFlat_word (all : ∀ c ∈ word, isScalarChar c = true) (nonempty : word ≠ [])
    (known : scalar? word = some item) (undated : isDate word = false) : SpellsFlat word item := by
  obtain ⟨c, after, rfl⟩ := List.exists_cons_of_ne_nil nonempty
  have first := all c List.mem_cons_self
  refine ⟨⟨c, after, rfl, ?_⟩, ?_⟩
  · intro member
    have others : reserved.all (fun d => !isScalarChar d) = true := by decide
    have other := List.all_eq_true.mp others c member
    rw [first] at other
    cases other
  · intro rest ends
    rw [List.cons_append, flatValue_scalar first, ← List.cons_append]
    exact scalar_word all known undated ends

theorem spellsFlat_bool (b : Bool) : SpellsFlat (writeBool b) (.boolean b) := by
  cases b with
  | true => exact spellsFlat_word (List.all_eq_true.mp (by decide)) (by decide) rfl (by decide)
  | false => exact spellsFlat_word (List.all_eq_true.mp (by decide)) (by decide) rfl (by decide)

end Words

section Numbers

variable {digits : List Char}

theorem isScalarChar_of_isDigit (digit : c.isDigit = true) : isScalarChar c = true := by
  have letter : c.isAlphanum = true := Bool.or_eq_true_iff.mpr (.inr digit)
  simp [isScalarChar, letter]

theorem hexDigit?_of_isDigit (digit : c.isDigit = true) :
    Text.hexDigit? c = some (c.toNat - '0'.toNat) := if_pos digit

theorem ungroup_digits {isDigit : Char → Bool} (nonempty : digits ≠ [])
    (all : ∀ c ∈ digits, isDigit c = true ∧ c ≠ '_') : ungroup isDigit digits = some digits := by
  induction digits with
  | nil => exact absurd rfl nonempty
  | cons c digits ih =>
    have first := (all c List.mem_cons_self).1
    cases digits with
    | nil => simp [ungroup, first]
    | cons d digits =>
      have others : ∀ c ∈ d :: digits, isDigit c = true ∧ c ≠ '_' :=
        fun c member => all c (List.mem_cons_of_mem _ member)
      rw [ungroup, if_pos first, ih (by simp) others]
      · rfl
      · simp
      · simpa using (others d List.mem_cons_self).2

theorem digitOf_of_isDigit (digit : c.isDigit = true) : digitOf c = c.toNat - '0'.toNat := by
  rw [digitOf, hexDigit?_of_isDigit digit, Option.getD_some]

theorem based_digits (nonempty : digits ≠ []) (all : ∀ c ∈ digits, c.isDigit = true) :
    based 10 digits = some (Nat.ofDigitChars 10 digits 0) := by
  have ungrouped : ungroup (fun c => (Text.hexDigit? c).any (· < 10)) digits = some digits := by
    apply ungroup_digits nonempty
    intro c member
    have digit := all c member
    refine ⟨?_, Text.ne_of_isDigit digit (by decide)⟩
    have bound : c.toNat ≤ 57 := (Char.isDigit_iff_toNat.mp digit).2
    have small : c.toNat - '0'.toNat < 10 := by
      change c.toNat - 48 < 10
      omega
    simpa [hexDigit?_of_isDigit digit] using small
  rw [based, ungrouped, Option.map_some, Nat.ofDigitChars]
  congr 1
  apply List.foldl_ext
  intro n c member
  rw [digitOf_of_isDigit (all c member)]

theorem wholeNumber_decimal (n : Nat) : wholeNumber (Text.decimal n) = some n := by
  have whole : ¬ ((Text.decimal n).head? = some '0' ∧ Text.decimal n ≠ ['0']) := by
    rintro ⟨leading, long⟩
    cases n with
    | zero => exact long rfl
    | succ n => exact Text.head_decimal (Nat.succ_pos n) leading
  rw [wholeNumber, if_neg whole,
    based_digits (Text.decimal_ne_nil n) fun _ => Text.isDigit_decimal, Text.decimal,
    Nat.ofDigitChars_toDigits (by decide) (by decide)]

theorem integer?_digits (all : ∀ c ∈ digits, c.isDigit = true) :
    integer? digits = (wholeNumber digits).bind fun n => inRange n := by
  have mark {d : Char} (member : d ∈ digits) (other : d.isDigit = false) : False :=
    Text.ne_of_isDigit (all d member) other rfl
  unfold integer?
  split
  · exact (mark (d := 'x') (by simp) (by decide)).elim
  · exact (mark (d := 'o') (by simp) (by decide)).elim
  · exact (mark (d := 'b') (by simp) (by decide)).elim
  · exact (mark (d := '+') (by simp) (by decide)).elim
  · exact (mark (d := '-') (by simp) (by decide)).elim
  · rfl

theorem isDate_digits (all : ∀ c ∈ digits, c.isDigit = true) : isDate digits = false := by
  have dateless : afterDate? digits = none := by
    unfold afterDate?
    split
    · exact (Text.ne_of_isDigit (all '-' (by simp)) (by decide) rfl).elim
    · rfl
  rw [isDate, dateless]
  rfl

theorem scalar?_decimal {n : Nat} (small : n < integerBound) :
    scalar? (Text.decimal n) = some (.integer n) := by
  have all : ∀ c ∈ Text.decimal n, c.isDigit = true := fun _ => Text.isDigit_decimal
  have letter {w : List Char} {d : Char} (member : d ∈ w) (other : d.isDigit = false) :
      Text.decimal n ≠ w := by
    rintro rfl
    exact Text.ne_of_isDigit (all d member) other rfl
  have range : inRange (n : Int) = some (n : Int) := if_pos (by omega)
  rw [scalar?, if_neg (letter (d := 't') (by simp) (by decide)),
    if_neg (letter (d := 'f') (by simp) (by decide)), integer?_digits all, wholeNumber_decimal,
    Option.bind_some, range]

theorem spellsFlat_decimal {n : Nat} (small : n < integerBound) :
    SpellsFlat (Text.decimal n) (.integer n) := by
  have all : ∀ c ∈ Text.decimal n, c.isDigit = true := fun _ => Text.isDigit_decimal
  exact spellsFlat_word (fun c member => isScalarChar_of_isDigit (all c member))
    (Text.decimal_ne_nil n) (scalar?_decimal small) (isDate_digits all)

end Numbers

section Strings

theorem writeString_head (text : String) :
    ∃ after, writeString text = '"' :: after ∨ writeString text = '\x27' :: after := by
  unfold writeString
  rcases style_cases text.toList with chosen | chosen | ⟨chosen, _⟩ | ⟨chosen, _⟩
  · exact ⟨_, .inl (by simp only [chosen]; rfl)⟩
  · exact ⟨_, .inl (by simp only [chosen]; rfl)⟩
  · exact ⟨_, .inr (by simp only [chosen]; rfl)⟩
  · exact ⟨_, .inr (by simp only [chosen]; rfl)⟩

theorem spellsFlat_string (text : String) : SpellsFlat (writeString text) (.string text) := by
  obtain ⟨after, whole | whole⟩ := writeString_head text
  · refine ⟨⟨_, _, whole, by decide⟩, fun rest ends => ?_⟩
    have read := quoted_writeString text ends.unquoted
    rw [whole, List.cons_append] at read ⊢
    rw [flatValue, read]
    rfl
  · refine ⟨⟨_, _, whole, by decide⟩, fun rest ends => ?_⟩
    have read := quoted_writeString text ends.unquoted
    rw [whole, List.cons_append] at read ⊢
    rw [flatValue, read]
    rfl

end Strings

/-- Flat values are read wherever values may stand. -/
theorem SpellsFlat.value_eq (spells : SpellsFlat text item) (depth : Nat) (ends : Ends rest) :
    value depth (text ++ rest) = some (item, rest) := by
  have flat := spells.reads rest ends
  obtain ⟨c, after, rfl, other⟩ := spells.starts
  cases depth with
  | zero => exact flat
  | succ depth =>
    rw [List.cons_append] at flat ⊢
    rw [value, flat]
    · intro _ same
      exact ne_of_not_reserved other (by simp [reserved]) (List.cons.inj same).1
    · intro _ same
      exact ne_of_not_reserved other (by simp [reserved]) (List.cons.inj same).1

section Arrays

variable {texts : List (List Char)} {items : List Item}

theorem skipGap_ink (other : c ∉ reserved) (rest : List Char) :
    skipGap false (c :: rest) = some (c :: rest) := by
  have apart {d : Char} (member : d ∈ reserved) : c ≠ d := ne_of_not_reserved other member
  have ink : isBlank c = false := by
    simp [isBlank, apart (d := ' ') (by simp [reserved]), apart (d := '\t') (by simp [reserved])]
  rw [skipGap, ink]
  · simp [apart (d := '\r') (by simp [reserved])]
  · exact apart (by simp [reserved])
  · intro _ same
    exact absurd same (apart (by simp [reserved]))
  · exact apart (by simp [reserved])

theorem skipGap_spells (spells : SpellsFlat text item) (rest : List Char) :
    skipGap false (text ++ rest) = some (text ++ rest) := by
  obtain ⟨c, after, rfl, other⟩ := spells.starts
  exact skipGap_ink other (after ++ rest)

section Items

variable {cs more after : List Char}

/-- One item is read, and what follows it decides how to go on. -/
theorem arrayItems_item (spells : SpellsFlat text item) (gap : skipGap false cs = some (text ++ more))
    (ends : Ends more) (depth fuel : Nat) (read : List Item) :
    (∀ after, skipGap false more = some (',' :: after) →
      arrayItems (value depth) (fuel + 1) read cs =
        arrayItems (value depth) fuel (item :: read) after) ∧
    ∀ after, skipGap false more = some (']' :: after) →
      arrayItems (value depth) (fuel + 1) read cs = some (.array (item :: read).reverse, after) := by
  have found := spells.value_eq depth ends
  obtain ⟨c, front, rfl, other⟩ := spells.starts
  have bracket : c ≠ ']' := ne_of_not_reserved other (by simp [reserved])
  rw [arrayItems, gap]
  split
  · next same => exact absurd (List.cons.inj (Option.some.inj same)).1 bracket
  · next same =>
    rw [← Option.some.inj same, found]
    constructor
    · intro after comma
      simp only [comma]
    · intro after closes
      simp only [closes]
  · next none => cases none

end Items

/-- Items on a line each, with a comma after each. -/
def itemLines (texts : List (List Char)) : List Char :=
  texts.flatMap fun text => "    ".toList ++ text ++ [',', '\n']

theorem length_le_itemLines (texts : List (List Char)) : texts.length ≤ (itemLines texts).length := by
  induction texts with
  | nil => exact Nat.le_refl _
  | cons text texts ih =>
    simp only [itemLines, List.flatMap_cons, List.length_append, List.length_cons] at ih ⊢
    omega

theorem arrayItems_lines (each : List.Forall₂ SpellsFlat texts items) (depth : Nat) {fuel : Nat}
    (enough : texts.length < fuel) (read : List Item) (rest : List Char) :
    arrayItems (value depth) fuel read ('\n' :: (itemLines texts ++ ']' :: rest)) =
      some (.array (read.reverse ++ items), rest) := by
  induction each generalizing fuel read with
  | nil =>
    obtain ⟨fuel, rfl⟩ := Nat.exists_eq_add_one_of_ne_zero (Nat.ne_zero_of_lt enough)
    rw [List.append_nil]
    rfl
  | @cons text item texts items spells each ih =>
    obtain ⟨fuel, rfl⟩ := Nat.exists_eq_add_one_of_ne_zero (Nat.ne_zero_of_lt enough)
    have whole : itemLines (text :: texts) ++ ']' :: rest = ' ' :: ' ' :: ' ' :: ' ' ::
        (text ++ ',' :: '\n' :: (itemLines texts ++ ']' :: rest)) := by
      simp [itemLines]
    have gap : skipGap false ('\n' :: (itemLines (text :: texts) ++ ']' :: rest)) =
        some (text ++ ',' :: '\n' :: (itemLines texts ++ ']' :: rest)) := by
      rw [whole, ← skipGap_spells spells]
      rfl
    have step := (arrayItems_item spells gap (ends_cons (by decide) (by decide) _) depth fuel read).1
    rw [step _ rfl, ih (Nat.lt_of_succ_lt_succ enough)]
    simp

theorem spellsFlat_strings (texts : List String) :
    List.Forall₂ SpellsFlat (texts.map writeString) (texts.map .string) := by
  rw [List.forall₂_map_left_iff, List.forall₂_map_right_iff]
  exact List.forall₂_same.mpr fun text _ => spellsFlat_string text

theorem value_writeStrings (texts : List String) (depth : Nat) (rest : List Char) :
    value (depth + 1) (writeStrings texts ++ rest) = some (.array (texts.map .string), rest) := by
  unfold writeStrings
  split
  · rfl
  · next text =>
    have spells := spellsFlat_string text
    have gap := skipGap_spells spells (']' :: rest)
    have ends : Ends (']' :: rest) := ends_cons (by decide) (by decide) rest
    have whole : '[' :: writeString text ++ [']'] ++ rest =
        '[' :: (writeString text ++ ']' :: rest) := by
      simp
    rw [whole, value, (arrayItems_item spells gap ends depth _ []).2 rest rfl]
    rfl
  · have whole : ['[', '\n'] ++
        texts.flatMap (fun text => "    ".toList ++ writeString text ++ [',', '\n']) ++ [']'] ++ rest =
          '[' :: '\n' :: (itemLines (texts.map writeString) ++ ']' :: rest) := by
      simp [itemLines, List.flatMap_map]
    have enough := length_le_itemLines (texts.map writeString)
    rw [whole, value, arrayItems_lines (spellsFlat_strings texts) depth]
    · rfl
    · simp only [List.length_cons, List.length_append]
      omega

end Arrays

/-- A text that reads as the value of an entry. -/
structure Spells (text : List Char) (item : Item) : Prop where
  starts : ∃ c after, text = c :: after ∧ isBlank c = false
  reads : ∀ rest, Ends rest → value (nestingLimit - 1) (text ++ rest) = some (item, rest)

theorem SpellsFlat.spells (flat : SpellsFlat text item) : Spells text item := by
  refine ⟨?_, fun rest ends => flat.value_eq _ ends⟩
  obtain ⟨c, after, whole, other⟩ := flat.starts
  have space : c ≠ ' ' := ne_of_not_reserved other (by simp [reserved])
  have tab : c ≠ '\t' := ne_of_not_reserved other (by simp [reserved])
  exact ⟨c, after, whole, by simp [isBlank, space, tab]⟩

theorem spells_strings (texts : List String) :
    Spells (writeStrings texts) (.array (texts.map .string)) := by
  refine ⟨?_, fun rest _ => value_writeStrings texts _ rest⟩
  unfold writeStrings
  split
  · exact ⟨_, _, rfl, rfl⟩
  · exact ⟨_, _, rfl, rfl⟩
  · exact ⟨_, _, rfl, rfl⟩

end SignalPaths.Toml
