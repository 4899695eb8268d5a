import SignalPaths.Proofs.Text
import SignalPaths.Toml.Printer
import SignalPaths.Toml.Quoted

/-!
Strings that are written and read again. Each of the four styles says what it was written for, as
long as no quote follows. Over several lines the quotes at the end of a string run into the closing
ones; there are at most two of them, and they are told apart by counting from the end of the run.
-/

namespace SignalPaths.Toml

variable {c : Char} {cs rest : List Char}

section Characters

theorem isPlain_of_not_isControl (printable : isControl c = false) : isPlain c = true := by
  simp only [isControl, Bool.or_eq_false_iff, decide_eq_false_iff_not, beq_eq_false_iff_ne] at printable
  simp [isPlain, printable.2]
  omega

theorem ne_of_isPlain (plain : isPlain c = true) : c ≠ '\n' ∧ c ≠ '\r' := by
  constructor
  · rintro rfl
    exact absurd plain (by decide)
  · rintro rfl
    exact absurd plain (by decide)

/-- A text that stands for a character in double quotes. -/
inductive Shows : List Char → Char → Prop where
  | plain {c : Char} (plain : isPlain c = true) (quote : c ≠ '"') (backslash : c ≠ '\\') :
      Shows [c] c
  | escape {c : Char} {body : List Char} (reads : ∀ rest, escape? (body ++ rest) = some (c, rest))
      (inline : ∀ rest, endsLine (body ++ rest) = false) : Shows ('\\' :: body) c

theorem readHex_upper : ∀ n < 0x80,
    Text.readHex ['0', '0', upperHexDigit (n / 16), upperHexDigit (n % 16)] = some n := by
  decide

theorem Shows.control (control : isControl c = true) :
    Shows ['\\', 'u', '0', '0', upperHexDigit (c.toNat / 16), upperHexDigit (c.toNat % 16)] c := by
  have small : c.toNat < 0x80 := by
    simp only [isControl, Bool.or_eq_true, decide_eq_true_eq, beq_iff_eq] at control
    omega
  refine .escape ?_ fun _ => rfl
  intro rest
  simp [escape?, readHex_upper c.toNat small, Text.charOf?_toNat]

theorem shows_escapeChar (quote : c ≠ '"') : Shows (escapeChar c) c := by
  unfold escapeChar
  -- Five characters have an escape of their own.
  iterate 5
    split
    · next same =>
      subst same
      exact .escape (fun _ => rfl) fun _ => rfl
  split
  · next control => exact .control control
  · next backslash printable =>
    exact .plain (isPlain_of_not_isControl (Bool.eq_false_iff.mpr printable)) quote backslash

theorem shows_basicChar (c : Char) : Shows (basicChar c) c := by
  unfold basicChar
  split
  · next same =>
    subst same
    exact .escape (fun _ => rfl) fun _ => rfl
  · next quote =>
    split
    · next same =>
      subst same
      exact .escape (fun _ => rfl) fun _ => rfl
    · exact shows_escapeChar quote

theorem Shows.head_ne {text : List Char} (shows : Shows text c) :
    ∃ d after, text = d :: after ∧ d ≠ '"' ∧ d ≠ '\n' ∧ d ≠ '\r' := by
  cases shows with
  | plain plain quote _ => exact ⟨_, _, rfl, quote, ne_of_isPlain plain⟩
  | escape _ _ => exact ⟨_, _, rfl, by decide⟩

end Characters

section SingleLine

theorem basic_shows {text : List Char} (shows : Shows text c) (read rest : List Char) :
    basic read (text ++ rest) = basic (c :: read) rest := by
  cases shows with
  | plain plain quote backslash =>
    rw [List.singleton_append, basic]
    · rw [if_pos plain]
    · exact quote
    · exact backslash
  | escape reads _ =>
    rw [List.cons_append, basic]
    split
    · next found =>
      rw [reads] at found
      cases found
      rfl
    · next missing =>
      rw [reads] at missing
      cases missing

theorem basic_written (cs read rest : List Char) :
    basic read (cs.flatMap basicChar ++ '"' :: rest) =
      some (String.ofList (read.reverse ++ cs), rest) := by
  induction cs generalizing read with
  | nil => simp [basic]
  | cons c cs ih =>
    rw [List.flatMap_cons, List.append_assoc, basic_shows (shows_basicChar c), ih]
    simp

theorem literal_written (plain : ∀ c ∈ cs, isPlain c = true ∧ c ≠ '\x27') (read rest : List Char) :
    literal read (cs ++ '\x27' :: rest) = some (String.ofList (read.reverse ++ cs), rest) := by
  induction cs generalizing read with
  | nil => simp [literal]
  | cons c cs ih =>
    obtain ⟨first, quote⟩ := plain c List.mem_cons_self
    rw [List.cons_append, literal, if_pos first,
      ih fun d member => plain d (List.mem_cons_of_mem _ member)]
    · simp
    · exact quote

end SingleLine

section Closing

variable {quote : Char} {body : List Char}

theorem quotes_apart (apart : rest.head? ≠ some quote) (n : Nat) :
    (rest.take n).takeWhile (· == quote) = [] := by
  cases rest with
  | nil => simp
  | cons c rest =>
    have other : c ≠ quote := by simpa using apart
    cases n with
    | zero => rfl
    | succ n => simp [other]

/-- Closing quotes and those before them are read together if there is nothing else before them, and
are not reached yet otherwise. -/
theorem closing_append (short : ¬ [quote, quote, quote] <+: body)
    (apart : rest.head? ≠ some quote) :
    closing quote (body ++ quote :: quote :: quote :: rest) =
      if body.all (· == quote) then some (body, rest) else none := by
  unfold closing
  -- Beyond two characters, the front of the body alone decides.
  rcases body with _ | ⟨a, _ | ⟨b, _ | ⟨c, body⟩⟩⟩
  · simp [quotes_apart apart]
  · by_cases first : a = quote
    · simp [first, quotes_apart apart]
    · simp [first, Ne.symm first]
  · by_cases first : a = quote
    · by_cases second : b = quote
      · simp [first, second]
      · simp [first, second, Ne.symm second]
    · simp [first, Ne.symm first]
  · have mixed : (a :: b :: c :: body).all (· == quote) = false := by
      rw [← Bool.not_eq_true, List.all_eq_true]
      intro all
      have first := all a (by simp)
      have second := all b (by simp)
      have third := all c (by simp)
      rw [beq_iff_eq] at first second third
      exact short (by simp [first, second, third])
    have unclosed : ¬ [quote, quote, quote].isPrefixOf
        (a :: b :: c :: body ++ quote :: quote :: quote :: rest) = true := by
      rw [List.isPrefixOf_iff_prefix]
      simpa using short
    rw [if_neg unclosed, mixed]
    rfl

end Closing

section SeveralLines

variable {text extra after : List Char} {quotes : Nat}

theorem multiBasic_closed (closed : closing '"' cs = some (extra, after)) (read : List Char) :
    multiBasic read cs = some (String.ofList (read.reverse ++ extra), after) := by
  rw [multiBasic.eq_def, closed]

theorem multiLiteral_closed (closed : closing '\x27' cs = some (extra, after))
    (read : List Char) :
    multiLiteral read cs = some (String.ofList (read.reverse ++ extra), after) := by
  rw [multiLiteral.eq_def, closed]

theorem multiBasic_newline (read rest : List Char) :
    multiBasic read ('\n' :: rest) = multiBasic ('\n' :: read) rest := by
  rw [multiBasic]
  rfl

theorem multiLiteral_newline (read rest : List Char) :
    multiLiteral read ('\n' :: rest) = multiLiteral ('\n' :: read) rest := by
  rw [multiLiteral]
  rfl

theorem multiBasic_plain (unclosed : closing '"' (c :: rest) = none) (plain : isPlain c = true)
    (backslash : c ≠ '\\') (read : List Char) :
    multiBasic read (c :: rest) = multiBasic (c :: read) rest := by
  obtain ⟨newline, carriage⟩ := ne_of_isPlain plain
  rw [multiBasic, unclosed]
  · exact if_pos plain
  · exact backslash
  · exact newline
  · intro _ same
    exact absurd same carriage

theorem multiLiteral_plain (unclosed : closing '\x27' (c :: rest) = none)
    (plain : isPlain c = true) (read : List Char) :
    multiLiteral read (c :: rest) = multiLiteral (c :: read) rest := by
  obtain ⟨newline, carriage⟩ := ne_of_isPlain plain
  rw [multiLiteral, unclosed]
  · exact if_pos plain
  · exact newline
  · intro _ same
    exact absurd same carriage

theorem closing_other {quote : Char} (other : c ≠ quote) (rest : List Char) :
    closing quote (c :: rest) = none := by
  simp [closing, other.symm]

theorem multiBasic_shows (shows : Shows text c) (read rest : List Char) :
    multiBasic read (text ++ rest) = multiBasic (c :: read) rest := by
  cases shows with
  | plain plain quote backslash =>
    exact multiBasic_plain (closing_other quote rest) plain backslash read
  | escape reads inline =>
    rw [List.cons_append, multiBasic, closing_other (by decide)]
    simp only [inline, Bool.false_eq_true, if_false]
    split
    · next found =>
      rw [reads] at found
      cases found
      rfl
    · next missing =>
      rw [reads] at missing
      cases missing

/-- What is written for a character other than a quote and a line feed. -/
theorem multiBody_other (quote : c ≠ '"') (newline : c ≠ '\n') (quotes : Nat) (cs : List Char) :
    multiBody quotes (c :: cs) = escapeChar c ++ multiBody 0 cs := by
  rw [multiBody, if_neg quote, if_neg newline]

theorem multiBody_quote (few : quotes ≠ 2) (cs : List Char) :
    multiBody quotes ('"' :: cs) = '"' :: multiBody (quotes + 1) cs := by
  rw [multiBody, if_pos rfl, if_neg few]

theorem multiBody_escaped (cs : List Char) :
    multiBody 2 ('"' :: cs) = '\\' :: '"' :: multiBody 0 cs := by
  rw [multiBody, if_pos rfl, if_pos rfl]

theorem multiBody_newline (quotes : Nat) (cs : List Char) :
    multiBody quotes ('\n' :: cs) = '\n' :: multiBody 0 cs := by
  rw [multiBody, if_neg (by decide), if_pos rfl]

/-- Quotes that are not escaped come two in a row at most, those before the text included. -/
theorem multiBody_short (bound : quotes ≤ 2) (cs : List Char) :
    ¬ List.replicate (3 - quotes) '"' <+: multiBody quotes cs := by
  induction cs generalizing quotes with
  | nil =>
    intro front
    have short := front.length_le
    rw [List.length_replicate, multiBody, List.length_nil] at short
    omega
  | cons c cs ih =>
    have more : List.replicate (3 - quotes) '"' = '"' :: List.replicate (2 - quotes) '"' := by
      rw [← List.replicate_succ]
      congr 1
      omega
    rw [more]
    by_cases quote : c = '"'
    · subst quote
      by_cases third : quotes = 2
      · rw [third, multiBody_escaped, List.cons_prefix_cons]
        rintro ⟨same, _⟩
        exact absurd same (by decide)
      · rw [multiBody_quote third, List.cons_prefix_cons]
        rintro ⟨_, front⟩
        exact ih (by omega) ((by omega : 2 - quotes = 3 - (quotes + 1)) ▸ front)
    · by_cases newline : c = '\n'
      · rw [newline, multiBody_newline, List.cons_prefix_cons]
        rintro ⟨same, _⟩
        exact absurd same (by decide)
      · obtain ⟨d, after, whole, other, _⟩ := (shows_escapeChar quote).head_ne
        rw [multiBody_other quote newline, whole, List.cons_append, List.cons_prefix_cons]
        rintro ⟨same, _⟩
        exact other same.symm

theorem multiBody_unclosed (bound : quotes ≤ 2) (cs : List Char) :
    ¬ ['"', '"', '"'] <+: multiBody quotes cs := by
  intro front
  have shorter : List.replicate (3 - quotes) '"' <+: List.replicate 3 '"' := by
    refine ⟨List.replicate quotes '"', ?_⟩
    rw [List.replicate_append_replicate, Nat.sub_add_cancel (by omega)]
  exact multiBody_short bound cs (shorter.trans front)

/-- A body of quotes alone has no escapes in it. -/
theorem multiBody_quotes (all : (multiBody quotes cs).all (· == '"') = true) :
    multiBody quotes cs = cs := by
  induction cs generalizing quotes with
  | nil => rfl
  | cons c cs ih =>
    by_cases quote : c = '"'
    · subst quote
      by_cases third : quotes = 2
      · rw [third, multiBody_escaped] at all
        simp at all
      · rw [multiBody_quote third] at all ⊢
        rw [ih (by simpa using all)]
    · by_cases newline : c = '\n'
      · rw [newline, multiBody_newline] at all
        simp at all
      · obtain ⟨d, after, whole, other, _⟩ := (shows_escapeChar quote).head_ne
        rw [multiBody_other quote newline, whole] at all
        simp [other] at all

theorem multiBasic_written (bound : quotes ≤ 2) (cs read : List Char)
    (apart : rest.head? ≠ some '"') :
    multiBasic read (multiBody quotes cs ++ '"' :: '"' :: '"' :: rest) =
      some (String.ofList (read.reverse ++ cs), rest) := by
  induction cs generalizing quotes read with
  | nil =>
    have closed := closing_append (multiBody_unclosed bound []) apart
    exact multiBasic_closed closed read
  | cons c cs ih =>
    have shift : (c :: read).reverse ++ cs = read.reverse ++ c :: cs := by simp
    have closed := closing_append (multiBody_unclosed bound (c :: cs)) apart
    rw [← shift]
    by_cases all : (multiBody quotes (c :: cs)).all (· == '"') = true
    · rw [if_pos all, multiBody_quotes all] at closed
      rw [multiBody_quotes all, shift]
      exact multiBasic_closed closed read
    · rw [if_neg all] at closed
      by_cases quote : c = '"'
      · subst quote
        by_cases third : quotes = 2
        · have escaped : Shows ['\\', '"'] '"' := .escape (fun _ => rfl) fun _ => rfl
          rw [third, multiBody_escaped]
          exact (multiBasic_shows escaped read _).trans (ih (by omega) _)
        · rw [multiBody_quote third] at closed ⊢
          exact (multiBasic_plain closed (by decide) (by decide) read).trans (ih (by omega) _)
      · by_cases newline : c = '\n'
        · rw [newline, multiBody_newline]
          exact (multiBasic_newline read _).trans (ih (by omega) _)
        · rw [multiBody_other quote newline, List.append_assoc,
            multiBasic_shows (shows_escapeChar quote), ih (by omega)]

theorem le_longestRun (c : Char) (current longest : Nat) (cs : List Char) :
    max current longest ≤ longestRun c current longest cs := by
  induction cs generalizing current longest with
  | nil => exact Nat.le_refl _
  | cons d cs ih =>
    rw [longestRun]
    split
    · have later := ih (current + 1) longest
      omega
    · have later := ih 0 (max current longest)
      omega

theorem longestRun_mono (c : Char) {current longest : Nat} {more longer : Nat}
    (first : current ≤ more) (second : longest ≤ longer) (cs : List Char) :
    longestRun c current longest cs ≤ longestRun c more longer cs := by
  induction cs generalizing current longest more longer with
  | nil =>
    rw [longestRun, longestRun]
    omega
  | cons d cs ih =>
    rw [longestRun, longestRun]
    split
    · exact ih (by omega) second
    · exact ih (Nat.le_refl _) (by omega)

/-- Runs of a character do not get longer towards the end of a text. -/
theorem longestRun_tail (c d : Char) (cs : List Char) :
    longestRun c 0 0 cs ≤ longestRun c 0 0 (d :: cs) := by
  rw [longestRun]
  split
  · exact longestRun_mono c (Nat.zero_le _) (Nat.le_refl _) cs
  · exact Nat.le_refl _

theorem not_prefix_of_longestRun (runs : longestRun c 0 0 cs ≤ 2) : ¬ [c, c, c] <+: cs := by
  rintro ⟨rest, rfl⟩
  have three := le_longestRun c 3 0 rest
  simp [longestRun] at runs
  omega

theorem eq_zero_of_longestRun (runs : longestRun c 0 0 cs = 0) : c ∉ cs := by
  induction cs with
  | nil => simp
  | cons d cs ih =>
    have tail := longestRun_tail c d cs
    intro member
    rcases List.mem_cons.mp member with rfl | later
    · have one := le_longestRun c 1 0 cs
      simp [longestRun] at runs
      omega
    · exact ih (by omega) later

theorem multiLiteral_written (plain : ∀ c ∈ cs, c = '\n' ∨ isPlain c = true)
    (runs : longestRun '\x27' 0 0 cs ≤ 2) (read : List Char) (apart : rest.head? ≠ some '\x27') :
    multiLiteral read (cs ++ '\x27' :: '\x27' :: '\x27' :: rest) =
      some (String.ofList (read.reverse ++ cs), rest) := by
  induction cs generalizing read with
  | nil => exact multiLiteral_closed (closing_append (not_prefix_of_longestRun runs) apart) read
  | cons c cs ih =>
    have shift : (c :: read).reverse ++ cs = read.reverse ++ c :: cs := by simp
    have closed := closing_append (not_prefix_of_longestRun runs) apart
    have later := ih (fun d member => plain d (List.mem_cons_of_mem _ member))
      (Nat.le_trans (longestRun_tail _ c cs) runs) (c :: read)
    by_cases all : (c :: cs).all (· == '\x27') = true
    · rw [if_pos all] at closed
      exact multiLiteral_closed closed read
    · rw [if_neg all] at closed
      rw [← shift]
      rcases plain c List.mem_cons_self with rfl | first
      · exact (multiLiteral_newline read _).trans later
      · exact (multiLiteral_plain closed first read).trans later

end SeveralLines

section Styles

theorem plain_of_not_hard (soft : isHardControl c = false) : c = '\n' ∨ isPlain c = true := by
  by_cases control : isControl c = true
  · by_cases newline : c = '\n'
    · exact .inl newline
    · have tab : c = '\t' := by simpa [isHardControl, control, newline] using soft
      exact .inr (by rw [tab]; decide)
  · exact .inr (isPlain_of_not_isControl (by simpa using control))

/-- A string in single quotes needs no escapes. In double quotes every string can be written. -/
theorem style_cases (cs : List Char) : style cs = .basic ∨ style cs = .multiBasic ∨
    (style cs = .literal ∧ ∀ c ∈ cs, isPlain c = true ∧ c ≠ '\x27') ∨
    (style cs = .multiLiteral ∧ (∀ c ∈ cs, c = '\n' ∨ isPlain c = true) ∧
      longestRun '\x27' 0 0 cs ≤ 2) := by
  have soft (any : cs.any isHardControl = false) : ∀ c ∈ cs, c = '\n' ∨ isPlain c = true := by
    intro c member
    exact plain_of_not_hard (by simpa using List.any_eq_false.mp any c member)
  generalize known : style cs = chosen
  simp only [style] at known
  split at known
  · exact .inl known.symm
  · split at known
    · next fits =>
      simp only [Bool.and_eq_true, Bool.not_eq_true', beq_iff_eq, and_assoc] at fits
      obtain ⟨any, newline, runs⟩ := fits
      refine .inr (.inr (.inl ⟨known.symm, fun c member => ⟨?_, ?_⟩⟩))
      · rcases soft any c member with rfl | plain
        · simp [member] at newline
        · exact plain
      · rintro rfl
        exact eq_zero_of_longestRun runs member
    · split at known
      · exact .inr (.inl known.symm)
      · split at known
        · next fits =>
          simp only [Bool.and_eq_true, Bool.not_eq_true', decide_eq_true_eq] at fits
          exact .inr (.inr (.inr ⟨known.symm, soft fits.1, fits.2⟩))
        · split at known
          · exact .inr (.inl known.symm)
          · exact .inl known.symm

/-- No quote follows. -/
def Unquoted (rest : List Char) : Prop := ∀ c ∈ rest.head?, c ≠ '"' ∧ c ≠ '\x27'

theorem Unquoted.head_ne (unquoted : Unquoted rest) :
    rest.head? ≠ some '"' ∧ rest.head? ≠ some '\x27' :=
  ⟨fun same => (unquoted '"' same).1 rfl, fun same => (unquoted '\x27' same).2 rfl⟩

theorem quoted_basic (single : ¬ ['"', '"'] <+: cs) : quoted ('"' :: cs) = basic [] cs := by
  rw [quoted]
  rintro after rfl
  exact single (by simp)

theorem quoted_literal (single : ¬ ['\x27', '\x27'] <+: cs) :
    quoted ('\x27' :: cs) = literal [] cs := by
  rw [quoted]
  rintro after rfl
  exact single (by simp)

theorem skipNewline_other (other : ∀ c ∈ cs.head?, c ≠ '\n' ∧ c ≠ '\r') : skipNewline cs = cs := by
  unfold skipNewline afterNewline?
  split
  · exact absurd rfl (other '\n' rfl).1
  · exact absurd rfl (other '\r' rfl).2
  · rfl

theorem single_quote {quote : Char} {body : List Char} (front : body.head? ≠ some quote)
    (apart : rest.head? ≠ some quote) : ¬ [quote, quote] <+: body ++ quote :: rest := by
  cases body with
  | nil =>
    cases rest with
    | nil => simp
    | cons d rest =>
      have other : d ≠ quote := by simpa using apart
      simp [other.symm]
  | cons d body =>
    have other : d ≠ quote := by simpa using front
    simp [other.symm]

theorem quoted_basic_written (cs : List Char) (apart : rest.head? ≠ some '"') :
    quoted ('"' :: (cs.flatMap basicChar ++ '"' :: rest)) = some (String.ofList cs, rest) := by
  have front : (cs.flatMap basicChar).head? ≠ some '"' := by
    cases cs with
    | nil => simp
    | cons c cs =>
      obtain ⟨d, after, whole, other, _⟩ := (shows_basicChar c).head_ne
      simp [whole, other]
  rw [quoted_basic (single_quote front apart), basic_written]
  rfl

theorem quoted_literal_written (plain : ∀ c ∈ cs, isPlain c = true ∧ c ≠ '\x27')
    (apart : rest.head? ≠ some '\x27') :
    quoted ('\x27' :: (cs ++ '\x27' :: rest)) = some (String.ofList cs, rest) := by
  have front : cs.head? ≠ some '\x27' := by
    intro first
    exact (plain '\x27' (List.mem_of_head? first)).2 rfl
  rw [quoted_literal (single_quote front apart), literal_written plain]
  rfl

/-- The line break that is dropped is the one that is written for this. -/
theorem skipNewline_opening {body : List Char}
    (front : '\n' ∉ cs → ∀ c ∈ body.head?, c ≠ '\n' ∧ c ≠ '\r') :
    skipNewline (opening cs ++ body) = body := by
  by_cases newline : '\n' ∈ cs
  · simp [opening, newline, skipNewline, afterNewline?]
  · simpa [opening, newline] using skipNewline_other (front newline)

theorem quoted_multiBasic_written (cs : List Char) (apart : rest.head? ≠ some '"') :
    quoted ('"' :: '"' :: '"' ::
        (opening cs ++ (multiBody 0 cs ++ '"' :: '"' :: '"' :: rest))) =
      some (String.ofList cs, rest) := by
  have front (inline : '\n' ∉ cs) :
      ∀ c ∈ (multiBody 0 cs ++ '"' :: '"' :: '"' :: rest).head?, c ≠ '\n' ∧ c ≠ '\r' := by
    cases cs with
    | nil => simp [multiBody]
    | cons c cs =>
      have newline : c ≠ '\n' := fun same => inline (by simp [same])
      by_cases quote : c = '"'
      · simp [quote, multiBody_quote]
      · obtain ⟨d, after, whole, _, other⟩ := (shows_escapeChar quote).head_ne
        simpa [multiBody_other quote newline, whole] using other
  rw [quoted, skipNewline_opening front, multiBasic_written (by decide) cs [] apart]
  rfl

theorem quoted_multiLiteral_written (plain : ∀ c ∈ cs, c = '\n' ∨ isPlain c = true)
    (runs : longestRun '\x27' 0 0 cs ≤ 2) (apart : rest.head? ≠ some '\x27') :
    quoted ('\x27' :: '\x27' :: '\x27' ::
        (opening cs ++ (cs ++ '\x27' :: '\x27' :: '\x27' :: rest))) =
      some (String.ofList cs, rest) := by
  have front (inline : '\n' ∉ cs) :
      ∀ c ∈ (cs ++ '\x27' :: '\x27' :: '\x27' :: rest).head?, c ≠ '\n' ∧ c ≠ '\r' := by
    cases cs with
    | nil => simp
    | cons c cs =>
      have newline : c ≠ '\n' := fun same => inline (by simp [same])
      have other := ne_of_isPlain ((plain c List.mem_cons_self).resolve_left newline)
      simpa using other
  rw [quoted, skipNewline_opening front, multiLiteral_written plain runs [] apart]
  rfl

theorem quoted_writeString (text : String) (unquoted : Unquoted rest) :
    quoted (writeString text ++ rest) = some (text, rest) := by
  obtain ⟨double, single⟩ := unquoted.head_ne
  unfold writeString
  rcases style_cases text.toList with chosen | chosen | ⟨chosen, plain⟩ | ⟨chosen, plain, runs⟩
  · simp [chosen, quoted_basic_written _ double]
  · simp [chosen, quoted_multiBasic_written _ double]
  · simp [chosen, quoted_literal_written plain single]
  · simp [chosen, quoted_multiLiteral_written plain runs single]

end Styles

end SignalPaths.Toml
