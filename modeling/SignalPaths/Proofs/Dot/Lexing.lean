import SignalPaths.Dot.Quoted
import SignalPaths.Proofs.Dot.Grammar

/-!
Texts and the symbols they spell. The body of a quotation is made of pieces, one for each character
that stands for itself and one for each backslash with the character after it. A quoted text reads
back as it was before quoting, and a bare word of ASCII letters, digits and underscores is one
identifier if no further identifier character follows.
-/

namespace SignalPaths.Dot

/-- A piece of a quoted body. -/
inductive Piece where
  | plain (c : Char) (free : c ≠ '"' ∧ c ≠ '\\')
  | pair (c : Char)

namespace Piece

def text : Piece → List Char
  | plain c _ => [c]
  | pair c => ['\\', c]

/-- A backslash at the end of a line. -/
def joinsLines : Piece → Bool
  | plain _ _ => false
  | pair c => c == '\n'

/-- What a piece stands for. Before a quote or a backslash a backslash is dropped, at the end of a
line it is dropped with the line break, and elsewhere it is kept. -/
def meaning : Piece → List Char
  | plain c _ => [c]
  | pair c => if c = '"' ∨ c = '\\' then [c] else if c = '\n' then [] else ['\\', c]

/-- How a character is written in a quotation. -/
def ofChar (c : Char) : Piece :=
  if special : c = '"' ∨ c = '\\' then pair c else plain c (not_or.mp special)

theorem text_ofChar (c : Char) : (ofChar c).text = escapeChar c := by
  unfold ofChar escapeChar
  split <;> rfl

theorem meaning_ofChar (c : Char) : (ofChar c).meaning = [c] := by
  unfold ofChar
  split
  · next special => exact if_pos special
  · rfl

theorem joinsLines_ofChar (c : Char) : (ofChar c).joinsLines = false := by
  unfold ofChar
  split
  · next special => obtain rfl | rfl := special <;> rfl
  · rfl

end Piece

open Piece

def spelling (body : List Piece) : List Char := body.flatMap text

@[simp] theorem spelling_nil : spelling [] = [] := rfl

@[simp] theorem spelling_cons (piece : Piece) (body : List Piece) :
    spelling (piece :: body) = piece.text ++ spelling body := rfl

/-- No piece of the body is a backslash at the end of a line. -/
def Unjoined (body : List Piece) : Prop := ∀ piece ∈ body, piece.joinsLines = false

theorem closeQuote_piece (read : List Char) (piece : Piece) (rest : List Char) :
    closeQuote read (piece.text ++ rest) =
      if piece.joinsLines then none else closeQuote (piece.text.reverse ++ read) rest := by
  cases piece with
  | plain c free =>
    rw [text, List.singleton_append, closeQuote] <;> simp [free, joinsLines]
  | pair c =>
    by_cases broken : c = '\n'
    · subst broken
      rfl
    · rw [text, List.cons_append, List.singleton_append, closeQuote]
      · simp [joinsLines, broken]
      · simp [broken]

theorem closeQuote_spelling {body : List Piece} (unjoined : Unjoined body)
    (read rest : List Char) :
    closeQuote read (spelling body ++ rest) =
      closeQuote ((spelling body).reverse ++ read) rest := by
  induction body generalizing read with
  | nil => rfl
  | cons piece body ih =>
    have whole : piece.joinsLines = false := unjoined piece List.mem_cons_self
    have others : Unjoined body := fun other member =>
      unjoined other (List.mem_cons_of_mem _ member)
    rw [spelling_cons, List.append_assoc, closeQuote_piece, whole, if_neg Bool.false_ne_true,
      ih others]
    simp

theorem unescape_piece (piece : Piece) (rest : List Char) :
    unescape (piece.text ++ rest) = piece.meaning ++ unescape rest := by
  cases piece with
  | plain c free => rw [text, List.singleton_append, unescape] <;> simp [free, meaning]
  | pair c =>
    by_cases quote : c = '"'
    · subst quote
      rfl
    by_cases backslash : c = '\\'
    · subst backslash
      rfl
    by_cases newline : c = '\n'
    · subst newline
      rfl
    · have kept : unescape (c :: rest) = c :: unescape rest := by
        rw [unescape] <;> simp [backslash]
      rw [text, List.cons_append, List.singleton_append, unescape, kept] <;>
        simp [meaning, quote, backslash, newline]

theorem unescape_spelling (body : List Piece) :
    unescape (spelling body) = body.flatMap meaning := by
  induction body with
  | nil => rfl
  | cons piece body ih => rw [spelling_cons, unescape_piece, ih, List.flatMap_cons]

theorem escape_eq_spelling (s : List Char) : escape s = spelling (s.map ofChar) := by
  rw [escape, spelling, List.flatMap_map]
  simp only [text_ofChar]

theorem unescape_escape (s : List Char) : unescape (escape s) = s := by
  rw [escape_eq_spelling, unescape_spelling, List.flatMap_map]
  simp [meaning_ofChar]

theorem unjoined_ofChar (s : List Char) : Unjoined (s.map ofChar) := by
  simp [Unjoined, joinsLines_ofChar]

theorem closeQuote_escape (body s rest : List Char) :
    closeQuote body (escape s ++ '"' :: rest) = some (body.reverse ++ escape s, rest) := by
  rw [escape_eq_spelling, closeQuote_spelling (unjoined_ofChar s), closeQuote]
  simp

theorem lexeme_blank {c : Char} (blank : Text.isBlank c = true) (after : List Char) :
    lexeme c after = .gap ((c :: after.takeWhile Text.isBlank).count '\n')
      (after.dropWhile Text.isBlank) := by
  unfold lexeme
  rw [if_pos blank]

theorem lexeme_quoted (after : List Char) :
    lexeme '"' after = match closeQuote [] after with
      | some (body, rest) =>
        .symbol (.identifier (String.ofList (unescape body))) (body.count '\n') rest
      | none => .fault (.unexpectedCharacter '"') := rfl

theorem punctuation?_of_isIdentifierChar {c : Char} (first : isIdentifierChar c = true) :
    punctuation? c = none := by
  unfold punctuation?
  split <;> first | rfl | exact absurd first (by decide)

theorem lexeme_bare {c : Char} (ink : Text.isBlank c = false) (first : isIdentifierChar c = true)
    (after : List Char) : lexeme c after = bareIdentifier [c] after := by
  unfold lexeme
  rw [if_neg (by simp [ink]), punctuation?_of_isIdentifierChar first]
  dsimp only
  split <;>
    first
    | exact absurd first (by decide)
    | rw [if_pos first]

def isPlain (c : Char) : Bool := c.isAlphanum || c == '_'

theorem isPlain_bounds {c : Char} (plain : isPlain c = true) :
    48 ≤ c.toNat ∧ c.toNat ≤ 57 ∨ 65 ≤ c.toNat ∧ c.toNat ≤ 90 ∨ c.toNat = 95 ∨
      97 ≤ c.toNat ∧ c.toNat ≤ 122 := by
  simp only [isPlain, Char.isAlphanum, Bool.or_eq_true, beq_iff_eq] at plain
  obtain (letter | digit) | rfl := plain
  · obtain upper | lower := (Bool.or_eq_true _ _).mp letter
    · exact .inr (.inl (of_decide_eq_true upper))
    · have both := (Bool.and_eq_true _ _).mp lower
      exact .inr (.inr (.inr ⟨of_decide_eq_true both.1, of_decide_eq_true both.2⟩))
  · exact .inl (Char.isDigit_iff_toNat.mp digit)
  · decide

theorem isIdentifierChar_of_isPlain {c : Char} (plain : isPlain c = true) :
    isIdentifierChar c = true := by
  have bounds := isPlain_bounds plain
  have ascii : c.toNat < 0x80 := by omega
  have word : Text.isWord c = true := by
    unfold Text.isWord
    rw [if_pos ascii]
    exact plain
  simp [isIdentifierChar, word]

theorem lexeme_plain {c : Char} (plain : isPlain c = true) (after : List Char) :
    lexeme c after = bareIdentifier [c] after := by
  have bounds := isPlain_bounds plain
  have ink : Text.isBlank c = false := by
    simp only [Text.isBlank, Bool.or_eq_false_iff, Bool.and_eq_false_iff, decide_eq_false_iff_not,
      beq_eq_false_iff_ne]
    omega
  exact lexeme_bare ink (isIdentifierChar_of_isPlain plain) after

/-- A text that is taken apart into gaps and symbols without a fault. -/
inductive Lexes : List Char → List Symbol → Prop where
  | nil : Lexes [] []
  | gap {c : Char} {after rest : List Char} {newlines : Nat} {w : List Symbol}
      (found : lexeme c after = .gap newlines rest) (others : Lexes rest w) : Lexes (c :: after) w
  | symbol {c : Char} {after rest : List Char} {newlines : Nat} {symbol : Symbol} {w : List Symbol}
      (found : lexeme c after = .symbol symbol newlines rest) (others : Lexes rest w) :
      Lexes (c :: after) (symbol :: w)

theorem scan_nil (line : Nat) (read : List Token) : scan line read [] = .ok read.reverse := by
  unfold scan
  rfl

theorem scan_gap {c : Char} {after rest : List Char} {newlines : Nat}
    (found : lexeme c after = .gap newlines rest) (line : Nat) (read : List Token) :
    scan line read (c :: after) = scan (line + newlines) read rest := by
  conv_lhs => unfold scan
  split <;> simp_all

theorem scan_symbol {c : Char} {after rest : List Char} {newlines : Nat} {symbol : Symbol}
    (found : lexeme c after = .symbol symbol newlines rest) (line : Nat) (read : List Token) :
    scan line read (c :: after) = scan (line + newlines) (⟨symbol, line⟩ :: read) rest := by
  conv_lhs => unfold scan
  split <;> simp_all

theorem scan_fault {c : Char} {after : List Char} {cause : SyntaxCause}
    (found : lexeme c after = .fault cause) (line : Nat) (read : List Token) :
    scan line read (c :: after) = .error ⟨line, cause⟩ := by
  unfold scan
  split <;> simp_all

namespace Lexes

variable {cs rest : List Char} {w : List Symbol}

theorem scan_eq (lexes : Lexes cs w) (line : Nat) (read : List Token) :
    ∃ found, scan line read cs = .ok (read.reverse ++ found) ∧ symbols found = w := by
  induction lexes generalizing line read with
  | nil => exact ⟨[], by simp [scan_nil], rfl⟩
  | gap found _ ih =>
    rw [scan_gap found]
    exact ih _ _
  | @symbol _ _ _ _ symbol _ found _ ih =>
    obtain ⟨others, scanned, same⟩ := ih (line + _) (⟨symbol, line⟩ :: read)
    refine ⟨⟨symbol, line⟩ :: others, ?_, by simp [same]⟩
    rw [scan_symbol found, scanned]
    simp

theorem tokens_eq {text : String} (lexes : Lexes text.toList w) :
    ∃ found, tokens text = .ok found ∧ symbols found = w :=
  lexes.scan_eq 1 []

theorem dropWhile_blank (lexes : Lexes cs w) : Lexes (cs.dropWhile Text.isBlank) w := by
  cases cs with
  | nil => exact lexes
  | cons c after =>
    rw [List.dropWhile_cons]
    split
    · next blank =>
      cases lexes with
      | gap found others =>
        rw [lexeme_blank blank, Lexeme.gap.injEq] at found
        exact found.2 ▸ others
      | symbol found =>
        rw [lexeme_blank blank] at found
        cases found
    · exact lexes

theorem blank {c : Char} (lexes : Lexes rest w) (blank : Text.isBlank c = true) :
    Lexes (c :: rest) w :=
  .gap (lexeme_blank blank rest) lexes.dropWhile_blank

theorem quoted (lexes : Lexes rest w) (s : String) :
    Lexes ((quote s).toList ++ rest) (.identifier s :: w) := by
  have found := lexeme_quoted (escape s.toList ++ '"' :: rest)
  rw [closeQuote_escape] at found
  simp only [List.reverse_nil, List.nil_append, unescape_escape, String.ofList_toList] at found
  simpa [quote] using Lexes.symbol found lexes

theorem word {text : String} (lexes : Lexes rest w) (plain : text.toList.all isPlain = true)
    (nonempty : text ≠ "") (stops : rest.takeWhile isIdentifierChar = []) :
    Lexes (text.toList ++ rest) (.identifier text :: w) := by
  cases spelled : text.toList with
  | nil => exact absurd (String.toList_eq_nil_iff.mp spelled) nonempty
  | cons c cs =>
    rw [spelled, List.all_eq_true] at plain
    have inner : ∀ d ∈ cs, isIdentifierChar d = true := fun d member =>
      isIdentifierChar_of_isPlain (plain d (List.mem_cons_of_mem c member))
    have kept : rest.dropWhile isIdentifierChar = rest := by
      simpa [stops] using List.takeWhile_append_dropWhile (p := isIdentifierChar) (l := rest)
    have found := lexeme_plain (plain c List.mem_cons_self) (cs ++ rest)
    rw [bareIdentifier, List.takeWhile_append_of_pos inner, List.dropWhile_append_of_pos inner,
      stops, kept, List.append_nil, List.singleton_append, ← spelled,
      String.ofList_toList] at found
    exact .symbol found lexes

end Lexes

end SignalPaths.Dot
