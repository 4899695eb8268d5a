import Mathlib.Data.List.Forall2
import SignalPaths.Json.Layout
import SignalPaths.Json.Reader
import SignalPaths.Proofs.Text

/-!
Texts that spell a JSON value: with something after it that does not go on with a number, the reader
takes exactly this text and gives the value. Quoted texts and decimal numbers spell what they should,
and so do the blocks that are laid out from texts that spell their items.
-/

namespace SignalPaths.Json

section Strings

theorem readHex_control : ∀ n < 0x20,
    Text.readHex ['0', '0', hexDigit (n / 16), hexDigit (n % 16)] = some n := by
  decide

theorem escapedCode_of_lt {first : Nat} (low : first < 0xd800) (rest : List Char) :
    escapedCode first rest = (first, rest) := by
  unfold escapedCode
  split
  · have unpaired : pair? first = fun _ => none := by
      funext second
      exact if_neg (by omega)
    rw [unpaired]
    simp
  · rfl

theorem stringBody_control {c : Char} (control : c.toNat < 0x20) (read rest : List Char) :
    stringBody (some read)
        ('\\' :: 'u' :: '0' :: '0' :: hexDigit (c.toNat / 16) :: hexDigit (c.toNat % 16) :: rest) =
      stringBody (some (c :: read)) rest := by
  have low : c.toNat < 0xd800 := by omega
  rw [stringBody]
  simp only [readHex_control c.toNat control, escapedCode_of_lt low, Text.charOf?_toNat,
    Option.bind_some, Option.map_some]

theorem stringBody_simple {c escaped : Char} (other : c ≠ 'u')
    (known : simpleEscape? c = some escaped) (read rest : List Char) :
    stringBody (some read) ('\\' :: c :: rest) = stringBody (some (escaped :: read)) rest := by
  rw [stringBody]
  · simp only [known, Option.map_some]
  · intro _ _ _ _ _ same
    exact absurd same other

theorem stringBody_plain {c : Char} (quote : c ≠ '"') (backslash : c ≠ '\\')
    (printable : ¬ c.toNat < 0x20) (read rest : List Char) :
    stringBody (some read) (c :: rest) = stringBody (some (c :: read)) rest := by
  rw [stringBody]
  · simp [printable, backslash]
  · exact quote
  · intro _ _ _ _ _ same
    exact absurd same backslash
  · intro _ _ same
    exact absurd same backslash

theorem stringBody_escapeChar (c : Char) (read rest : List Char) :
    stringBody (some read) (escapeChar c ++ rest) = stringBody (some (c :: read)) rest := by
  unfold escapeChar
  -- Seven characters have an escape of their own.
  iterate 7
    split
    · next same =>
      subst same
      exact stringBody_simple (by decide) rfl read rest
  split
  · next control => exact stringBody_control control read rest
  · next quote backslash _ _ _ _ _ printable =>
    exact stringBody_plain quote backslash printable read rest

theorem stringBody_escaped (s read rest : List Char) :
    stringBody (some read) (s.flatMap escapeChar ++ '"' :: rest) =
      some (some (String.ofList (read.reverse ++ s)), rest) := by
  induction s generalizing read with
  | nil => simp [stringBody]
  | cons c s ih =>
    rw [List.flatMap_cons, List.append_assoc, stringBody_escapeChar, ih]
    simp

theorem stringBody_quoted (s : String) (rest : List Char) :
    stringBody (some []) (s.toList.flatMap escapeChar ++ '"' :: rest) = some (some s, rest) := by
  rw [stringBody_escaped]
  simp

end Strings

section Numbers

/-- What may follow a number. -/
def Ends (rest : List Char) : Prop :=
  ∀ c ∈ rest.head?, c.isDigit = false ∧ c ≠ '.' ∧ c ≠ 'e' ∧ c ≠ 'E'

variable {rest : List Char}

theorem digits_decimal (n : Nat) (ends : Ends rest) :
    digits (Text.decimal n ++ rest) = some (Text.decimal n, rest) := by
  have all : ∀ c ∈ Text.decimal n, c.isDigit = true := fun _ => Text.isDigit_decimal
  have taken : rest.takeWhile Char.isDigit = [] ∧ rest.dropWhile Char.isDigit = rest := by
    cases rest with
    | nil => exact ⟨rfl, rfl⟩
    | cons c rest => simp [(ends c rfl).1]
  rw [digits, List.takeWhile_append_of_pos all, List.dropWhile_append_of_pos all, taken.1, taken.2,
    List.append_nil]
  split
  · next empty => exact absurd empty (Text.decimal_ne_nil n)
  · rfl

theorem wholePart_decimal (n : Nat) (ends : Ends rest) :
    wholePart (Text.decimal n ++ rest) = some (Text.decimal n, rest) := by
  cases n with
  | zero =>
    have stops : (rest.head?.map Char.isDigit).getD false = false := by
      cases rest with
      | nil => rfl
      | cons c rest => exact (ends c rfl).1
    change (if (rest.head?.map Char.isDigit).getD false then none else some (['0'], rest)) = _
    rw [stops]
    rfl
  | succ n =>
    have other := Text.head_decimal (Nat.succ_pos n)
    unfold wholePart
    split
    · next rest' same =>
      rw [← List.head?_append_of_ne_nil _ (Text.decimal_ne_nil _), same] at other
      exact absurd rfl other
    · exact digits_decimal (n + 1) ends

theorem fraction_of_ends (ends : Ends rest) : fraction rest = some ([], rest) := by
  unfold fraction
  split
  · exact absurd rfl (ends '.' rfl).2.1
  · rfl

theorem exponent_of_ends (ends : Ends rest) : exponent rest = some ([], rest) := by
  cases rest with
  | nil => rfl
  | cons c rest =>
    obtain ⟨_, _, lower, upper⟩ := ends c rfl
    exact if_neg (by simp [lower, upper])

theorem unsignedNumber_decimal (n : Nat) (ends : Ends rest) :
    unsignedNumber [] (Text.decimal n ++ rest) =
      some (number (String.ofList (Text.decimal n)), rest) := by
  simp [unsignedNumber, wholePart_decimal n ends, fraction_of_ends ends, exponent_of_ends ends]

end Numbers

section Blanks

variable {before : List Char}

theorem skipBlank_append (blank : ∀ c ∈ before, isBlank c = true) (cs : List Char) :
    skipBlank (before ++ cs) = skipBlank cs :=
  List.dropWhile_append_of_pos blank

theorem skipBlank_cons {c : Char} (ink : isBlank c = false) (cs : List Char) :
    skipBlank (c :: cs) = c :: cs :=
  List.dropWhile_cons_of_neg (by simp [ink])

theorem isBlank_newline (indent : Nat) : ∀ c ∈ newline indent, isBlank c = true := by
  intro c member
  rcases List.mem_cons.mp member with rfl | padding
  · rfl
  · rw [List.eq_of_mem_replicate padding]
    rfl

theorem value_append (blank : ∀ c ∈ before, isBlank c = true) (fuel : Nat) (cs : List Char) :
    value fuel (before ++ cs) = value fuel cs := by
  cases fuel with
  | zero => rw [value, value]
  | succ fuel => rw [value, skipBlank_append blank, value]

theorem ends_newline (indent : Nat) (cs : List Char) : Ends (newline indent ++ cs) := by
  intro c first
  obtain rfl : '\n' = c := by simpa [newline] using first
  decide

theorem ends_comma (cs : List Char) : Ends (',' :: cs) := by
  intro c first
  obtain rfl : ',' = c := by simpa using first
  decide

end Blanks

theorem isBlank_of_isDigit {c : Char} (digit : c.isDigit = true) : isBlank c = false := by
  simp [isBlank, Text.ne_of_isDigit digit]

theorem value_digit {c : Char} (digit : c.isDigit = true) (fuel : Nat) (after : List Char) :
    value (fuel + 1) (c :: after) = unsignedNumber [] (c :: after) := by
  have apart {d : Char} {cs ds : List Char} (mark : d.isDigit = false) (same : c :: cs = d :: ds) :
      False := Text.ne_of_isDigit digit mark (List.cons.inj same).1
  rw [value, skipBlank_cons (isBlank_of_isDigit digit)]
  split
  case h_7 =>
    unfold numberLiteral
    split
    · next same => exact (apart (by decide) same).elim
    · rfl
  all_goals next same => exact (apart (by decide) same).elim

/-- A text that reads as a value, however much fuel there is beyond its length. -/
structure Spells (text : List Char) (json : Json) : Prop where
  starts : ∃ c after, text = c :: after ∧ isBlank c = false ∧ c ≠ ']'
  reads : ∀ fuel rest, text.length ≤ fuel → Ends rest → value fuel (text ++ rest) = some (json, rest)

namespace Spells

variable {text : List Char} {json : Json}

theorem length_pos (spells : Spells text json) : 0 < text.length := by
  obtain ⟨c, after, rfl, _⟩ := spells.starts
  exact Nat.succ_pos _

theorem quoted (s : String) : Spells (quote s) (string (some s)) where
  starts := ⟨'"', _, rfl, rfl, by decide⟩
  reads fuel rest enough _ := by
    cases fuel with
    | zero => simp [quote] at enough
    | succ fuel =>
      have body := stringBody_quoted s rest
      have whole : quote s ++ rest = '"' :: (s.toList.flatMap escapeChar ++ '"' :: rest) := by
        simp [quote]
      rw [whole]
      change (stringBody (some []) _).map _ = _
      rw [body]
      rfl

theorem decimal (n : Nat) :
    Spells (Text.decimal n) (number (String.ofList (Text.decimal n))) := by
  obtain ⟨c, after, whole⟩ := List.exists_cons_of_ne_nil (Text.decimal_ne_nil n)
  have digit : c.isDigit = true := Text.isDigit_decimal (n := n) (by simp [whole])
  have read : ∀ rest, Ends rest → unsignedNumber [] (Text.decimal n ++ rest) =
      some (number (String.ofList (Text.decimal n)), rest) :=
    fun _ ends => unsignedNumber_decimal n ends
  rw [whole] at read ⊢
  constructor
  · exact ⟨c, after, rfl, isBlank_of_isDigit digit, Text.ne_of_isDigit digit (by decide)⟩
  · intro fuel rest enough ends
    cases fuel with
    | zero => simp at enough
    | succ fuel =>
      rw [List.cons_append, value_digit digit, ← List.cons_append]
      exact read rest ends

end Spells

section Blocks

/-- Items with a comma and a line break between them. -/
def joined (indent : Nat) (texts : List (List Char)) : List Char :=
  List.intercalate (',' :: newline indent) texts

theorem joined_singleton (indent : Nat) (text : List Char) : joined indent [text] = text :=
  List.intercalate_singleton

theorem joined_cons_cons (indent : Nat) (first second : List Char) (others : List (List Char)) :
    joined indent (first :: second :: others) =
      first ++ ',' :: (newline indent ++ joined indent (second :: others)) := by
  simp [joined, List.intercalate_cons_cons]

variable {α : Type}

/-- A loop of the reader for items in brackets. It steps over one item text at a time, and its fuel
goes down by one for each. -/
structure Brackets (opening closing : Char)
    (loop : Nat → List α → List Char → Option (Json × List Char)) (close : List α → Json)
    (Item : List Char → α → Prop) : Prop where
  ink : isBlank opening = false ∧ opening ≠ ']'
  inhabited {text : List Char} {a : α} (item : Item text a) : 0 < text.length
  empty (fuel : Nat) (rest : List Char) :
    value (fuel + 1) (opening :: closing :: rest) = some (close [], rest)
  first {text : List Char} {a : α} (item : Item text a) (fuel indent : Nat) (rest : List Char) :
    value (fuel + 1) (opening :: (newline indent ++ (text ++ rest))) = loop fuel [] (text ++ rest)
  next {text : List Char} {a : α} (item : Item text a) (fuel indent : Nat) (read : List α)
    (rest : List Char) (enough : text.length ≤ fuel) :
    loop (fuel + 1) read (text ++ ',' :: (newline indent ++ rest)) = loop fuel (a :: read) rest
  last {text : List Char} {a : α} (item : Item text a) (fuel indent : Nat) (read : List α)
    (rest : List Char) (enough : text.length ≤ fuel) :
    loop (fuel + 1) read (text ++ (newline indent ++ closing :: rest)) =
      some (close (a :: read).reverse, rest)

namespace Brackets

variable {opening closing : Char} {loop : Nat → List α → List Char → Option (Json × List Char)}
  {close : List α → Json} {Item : List Char → α → Prop} {texts : List (List Char)} {items : List α}

theorem joined (brackets : Brackets opening closing loop close Item)
    (each : List.Forall₂ Item texts items) (nonempty : texts ≠ []) (indent outer fuel : Nat)
    (read : List α) (rest : List Char) (enough : (joined indent texts).length < fuel) :
    loop fuel read (Json.joined indent texts ++ (newline outer ++ closing :: rest)) =
      some (close (read.reverse ++ items), rest) := by
  induction each generalizing fuel read with
  | nil => exact absurd rfl nonempty
  | @cons text a others _ item each ih =>
    obtain ⟨fuel, rfl⟩ := Nat.exists_eq_add_one_of_ne_zero (Nat.ne_zero_of_lt enough)
    cases each with
    | nil =>
      rw [joined_singleton] at enough ⊢
      rw [brackets.last item fuel outer read rest (Nat.le_of_lt_succ enough), List.reverse_cons]
    | @cons second _ others _ _ _ =>
      have longer := brackets.inhabited item
      rw [joined_cons_cons] at enough ⊢
      simp only [List.length_append, List.length_cons] at enough
      rw [List.append_assoc, List.cons_append, List.append_assoc,
        brackets.next item fuel indent read _ (by omega),
        ih (by simp) fuel (a :: read) (by omega), List.reverse_cons, List.append_assoc]
      rfl

theorem block (brackets : Brackets opening closing loop close Item)
    (each : List.Forall₂ Item texts items) (indent : Nat) :
    Spells (block opening closing indent texts) (close items) := by
  cases each with
  | nil =>
    refine ⟨⟨opening, [closing], rfl, brackets.ink⟩, ?_⟩
    intro fuel rest enough _
    obtain ⟨fuel, rfl⟩ := Nat.exists_eq_add_one_of_ne_zero (Nat.ne_zero_of_lt enough)
    exact brackets.empty fuel rest
  | @cons text a others rest item each =>
    have all := List.Forall₂.cons item each
    have whole (rest : List Char) : Json.block opening closing indent (text :: others) ++ rest =
        opening :: (newline (indent + 2) ++ (Json.joined (indent + 2) (text :: others) ++
          (newline indent ++ closing :: rest))) := by
      simp [Json.block, Json.joined]
    have start := whole []
    rw [List.append_nil] at start
    refine ⟨⟨opening, _, start, brackets.ink⟩, ?_⟩
    intro fuel rest enough _
    rw [start] at enough
    simp only [newline, List.length_append, List.length_cons] at enough
    obtain ⟨fuel, rfl⟩ : ∃ n, fuel = n + 1 := ⟨fuel - 1, by omega⟩
    -- The line break after the opening bracket leaves fuel for the loop over the items.
    have read := brackets.joined all (by simp) (indent + 2) indent fuel [] rest (by omega)
    obtain ⟨after, front⟩ : ∃ after, Json.joined (indent + 2) (text :: others) = text ++ after := by
      cases others with
      | nil => exact ⟨[], by rw [joined_singleton, List.append_nil]⟩
      | cons second others => exact ⟨_, joined_cons_cons _ _ _ _⟩
    rw [whole, front, List.append_assoc, brackets.first item, ← List.append_assoc, ← front]
    exact read

end Brackets

theorem brackets_elements : Brackets '[' ']' elements array Spells where
  ink := by decide
  inhabited := Spells.length_pos
  empty _ _ := rfl
  first spells fuel indent rest := by
    obtain ⟨c, after, rfl, ink, other⟩ := spells.starts
    rw [value, skipBlank_cons (c := '[') rfl]
    simp only [skipBlank_append (isBlank_newline indent), List.cons_append, skipBlank_cons ink]
    split
    · next same => exact absurd (List.cons.inj same).1 other
    · rfl
  next spells fuel indent read rest enough := by
    rw [elements, spells.reads fuel _ enough (ends_comma _)]
    change elements fuel _ (newline indent ++ rest) = _
    cases fuel with
    | zero => rw [elements, elements]
    | succ fuel => rw [elements, value_append (isBlank_newline indent), elements]
  last spells fuel indent read rest enough := by
    rw [elements, spells.reads fuel _ enough (ends_newline _ _)]
    simp only [skipBlank_append (isBlank_newline indent)]
    rfl

def memberText (key : String) (text : List Char) : List Char := quote key ++ [':', ' '] ++ text

/-- A member of an object: its key is quoted and its value follows a colon. -/
def SpellsMember (text : List Char) (member : Option String × Json) : Prop :=
  ∃ key value, text = memberText key value ∧ member.1 = some key ∧ Spells value member.2

theorem memberText_append (key : String) (text rest : List Char) :
    memberText key text ++ rest =
      '"' :: (key.toList.flatMap escapeChar ++ '"' :: ':' :: ([' '] ++ (text ++ rest))) := by
  simp [memberText, quote]

theorem members_append {before : List Char} (blank : ∀ c ∈ before, isBlank c = true) (fuel : Nat)
    (read : List (Option String × Json)) (cs : List Char) :
    members fuel read (before ++ cs) = members fuel read cs := by
  cases fuel with
  | zero => rw [members, members]
  | succ fuel => rw [members, skipBlank_append blank, members]

/-- One member is read, and what follows it decides how to go on. -/
theorem members_member {text rest : List Char} {json : Json} {fuel : Nat} (spells : Spells text json)
    (key : String) (read : List (Option String × Json)) (enough : text.length ≤ fuel)
    (ends : Ends rest) :
    (∀ after, skipBlank rest = ',' :: after →
      members (fuel + 1) read (memberText key text ++ rest) =
        members fuel ((some key, json) :: read) after) ∧
    ∀ after, skipBlank rest = '\x7d' :: after →
      members (fuel + 1) read (memberText key text ++ rest) =
        some (object ((some key, json) :: read).reverse, after) := by
  have blank : ∀ c ∈ [' '], isBlank c = true := by simp [isBlank]
  rw [memberText_append, members, skipBlank_cons (c := '"') rfl]
  simp only [stringBody_quoted, skipBlank_cons (c := ':') rfl, value_append blank,
    spells.reads fuel rest enough ends]
  constructor
  · intro after comma
    simp only [comma]
  · intro after brace
    simp only [brace]

theorem brackets_members : Brackets '\x7b' '\x7d' members object SpellsMember where
  ink := by decide
  inhabited := by
    rintro text member ⟨key, value, rfl, _⟩
    simp [memberText, quote]
  empty _ _ := rfl
  first := by
    rintro text member ⟨key, value, rfl, _⟩ fuel indent rest
    rw [Json.value, skipBlank_cons (c := '\x7b') rfl]
    simp only [skipBlank_append (isBlank_newline indent), memberText_append,
      skipBlank_cons (c := '"') rfl]
    rfl
  next := by
    rintro text ⟨_, json⟩ ⟨key, value, rfl, rfl, spells⟩ fuel indent read rest enough
    have shorter : value.length ≤ fuel := by
      simp only [memberText, List.length_append] at enough
      omega
    rw [(members_member spells key read shorter (ends_comma _)).1 _ (skipBlank_cons rfl _)]
    exact members_append (isBlank_newline indent) fuel _ rest
  last := by
    rintro text ⟨_, json⟩ ⟨key, value, rfl, rfl, spells⟩ fuel indent read rest enough
    have shorter : value.length ≤ fuel := by
      simp only [memberText, List.length_append] at enough
      omega
    apply (members_member spells key read shorter (ends_newline _ _)).2
    rw [skipBlank_append (isBlank_newline indent), skipBlank_cons rfl]

namespace Spells

theorem arrayBlock {texts : List (List Char)} {items : List Json}
    (each : List.Forall₂ Spells texts items) (indent : Nat) :
    Spells (arrayBlock indent texts) (array items) :=
  brackets_elements.block each indent

theorem objectBlock {texts : List (String × List Char)} {items : List (String × Json)}
    (each : List.Forall₂ (fun text item => text.1 = item.1 ∧ Spells text.2 item.2) texts items)
    (indent : Nat) :
    Spells (objectBlock indent texts) (object (items.map fun item => (some item.1, item.2))) := by
  apply brackets_members.block
  rw [List.forall₂_map_left_iff, List.forall₂_map_right_iff]
  apply each.imp
  rintro ⟨key, text⟩ ⟨_, json⟩ ⟨rfl, spells⟩
  exact ⟨key, text, rfl, rfl, spells⟩

theorem read_eq {text : List Char} {json : Json} (spells : Spells text json) :
    read (String.ofList text) = some json := by
  have ends : Ends [] := by
    intro c first
    cases first
  have whole := spells.reads (2 * text.length + 2) [] (by omega) ends
  rw [List.append_nil] at whole
  simp [read, whole, skipBlank]

end Spells

end Blocks

end SignalPaths.Json
