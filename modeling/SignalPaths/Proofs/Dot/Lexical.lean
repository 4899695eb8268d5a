import SignalPaths.Proofs.Dot.Lexing

/-!
The lexical rules of DOT. A text is cut from the left into gaps and words. What may follow a gap or
a word matters only where its end is not marked by itself: a line comment runs up to a line break,
and a bare word up to a character that no identifier holds.
-/

namespace SignalPaths.Dot

open Piece

theorem closeQuote_joined {body : List Piece} (joined : ¬ Unjoined body) (read rest : List Char) :
    closeQuote read (spelling body ++ rest) = none := by
  induction body generalizing read with
  | nil => exact absurd (fun _ member => nomatch member) joined
  | cons piece body ih =>
    rw [spelling_cons, List.append_assoc, closeQuote_piece]
    split
    · rfl
    · next whole =>
      apply ih
      intro others
      apply joined
      rw [Unjoined, List.forall_mem_cons]
      exact ⟨Bool.eq_false_iff.mpr whole, others⟩

theorem pieces_of_closeQuote {read cs inner rest : List Char}
    (closed : closeQuote read cs = some (inner, rest)) :
    ∃ body, Unjoined body ∧ cs = spelling body ++ '"' :: rest ∧
      inner = read.reverse ++ spelling body := by
  fun_induction closeQuote read cs with
  | case1 => simp at closed
  | case2 read after =>
    simp only [Option.some.injEq, Prod.mk.injEq] at closed
    exact ⟨[], by simp [Unjoined], by simp [closed.2], by simp [closed.1]⟩
  | case3 => simp at closed
  | case4 read c after unbroken ih =>
    obtain ⟨body, unjoined, split, same⟩ := ih closed
    refine ⟨.pair c :: body, ?_, by simp [text, split], by simp [text, same]⟩
    rw [Unjoined, List.forall_mem_cons]
    exact ⟨by simpa [joinsLines] using unbroken, unjoined⟩
  | case5 => simp at closed
  | case6 read c after unquoted _ paired ended ih =>
    obtain ⟨body, unjoined, split, same⟩ := ih closed
    have unescaped : c ≠ '\\' := by
      intro escaping
      cases after with
      | nil => exact ended escaping rfl
      | cons d others => exact paired d others escaping rfl
    refine ⟨.plain c ⟨unquoted, unescaped⟩ :: body, ?_, by simp [text, split], by simp [text, same]⟩
    rw [Unjoined, List.forall_mem_cons]
    exact ⟨rfl, unjoined⟩

/-- A block comment ends with its own last two characters, whatever comes after it. -/
theorem comment_of_closeComment {newlines count : Nat} {cs rest : List Char}
    (closed : closeComment newlines cs = some (count, rest)) :
    ∃ v, cs = v ++ '*' :: '/' :: rest ∧ count = newlines + v.count '\n' ∧
      ∀ more, closeComment newlines (v ++ '*' :: '/' :: more) = some (count, more) := by
  fun_induction closeComment newlines cs with
  | case1 => simp at closed
  | case2 newlines after =>
    simp only [Option.some.injEq, Prod.mk.injEq] at closed
    refine ⟨[], by simp [closed.2], by simp [closed.1], ?_⟩
    intro more
    simp [closeComment, closed.1]
  | case3 newlines c after unended ih =>
    obtain ⟨v, rfl, counted, closes⟩ := ih closed
    refine ⟨c :: v, rfl, ?_, ?_⟩
    · rw [counted, List.count_cons]
      simp only [beq_iff_eq]
      split <;> omega
    · intro more
      rw [List.cons_append, closeComment]
      · exact closes more
      · intro others star slash
        cases v with
        | nil => simp at slash
        | cons d v =>
          obtain ⟨rfl, _⟩ := List.cons.inj slash
          exact unended _ star rfl

/-- The character that comes next, if there is one, fails a test. -/
def Stops (test : Char → Bool) (rest : List Char) : Prop := ∀ c ∈ rest.head?, test c = false

section Runs

variable {test : Char → Bool} {v rest : List Char}

theorem stops_dropWhile (test : Char → Bool) (cs : List Char) : Stops test (cs.dropWhile test) := by
  intro c first
  have failing := List.head?_dropWhile_not test cs
  rw [first] at failing
  simpa using failing

theorem Stops.append_newline (stops : Stops test rest) (newline : test '\n' = false)
    (more : List Char) : Stops test (rest ++ '\n' :: more) := by
  cases rest with
  | nil => simpa [Stops] using newline
  | cons c rest => simpa [Stops] using stops

theorem takeWhile_run (inside : ∀ c ∈ v, test c = true) (stops : Stops test rest) :
    (v ++ rest).takeWhile test = v := by
  rw [List.takeWhile_append_of_pos inside]
  cases rest with
  | nil => simp
  | cons c rest => simp [stops c rfl]

theorem dropWhile_run (inside : ∀ c ∈ v, test c = true) (stops : Stops test rest) :
    (v ++ rest).dropWhile test = rest := by
  rw [List.dropWhile_append_of_pos inside]
  cases rest with
  | nil => rfl
  | cons c rest => simp [stops c rfl]

theorem count_newline_run (inside : ∀ c ∈ v, test c = true) (newline : test '\n' = false) :
    v.count '\n' = 0 := by
  rw [List.count_eq_zero]
  intro member
  rw [inside _ member] at newline
  cases newline

end Runs

/-- The texts between words, each with what comes after it. -/
inductive Gap : List Char → List Char → Prop where
  | blanks {v rest : List Char} (inside : ∀ c ∈ v, Text.isBlank c = true) : Gap v rest
  | line {mark v rest : List Char} (marked : mark = ['#'] ∨ mark = ['/', '/'])
      (inside : ∀ c ∈ v, (c != '\n') = true) (next : Stops (· != '\n') rest) : Gap (mark ++ v) rest
  | block {v rest : List Char}
      (closes : ∀ more, closeComment 0 (v ++ more) = some (v.count '\n', more)) :
      Gap ('/' :: '*' :: v) rest

/-- The texts of symbols, each with what comes after it. -/
inductive Word : Symbol → List Char → List Char → Prop where
  | punctuation {c : Char} {symbol : Symbol} {rest : List Char}
      (marked : punctuation? c = some symbol) : Word symbol [c] rest
  | arrow {rest : List Char} : Word .arrow ['-', '>'] rest
  | quotation {body : List Piece} {rest : List Char} (unjoined : Unjoined body) :
      Word (.identifier (String.ofList (unescape (spelling body))))
        ('"' :: (spelling body ++ ['"'])) rest
  | bare {c : Char} {v rest : List Char} (ink : Text.isBlank c = false)
      (inside : ∀ d ∈ c :: v, isIdentifierChar d = true) (next : Stops isIdentifierChar rest) :
      Word (.identifier (String.ofList (c :: v))) (c :: v) rest
  | signed {c : Char} {v rest : List Char} (inside : ∀ d ∈ c :: v, isIdentifierChar d = true)
      (next : Stops isIdentifierChar rest) :
      Word (.identifier (String.ofList ('-' :: c :: v))) ('-' :: c :: v) rest

/-- What a lexeme says about the text that it is taken from. -/
inductive Cut : List Char → Lexeme → Prop where
  | gap {cs v rest : List Char} {newlines : Nat} (split : cs = v ++ rest)
      (counted : newlines = v.count '\n') (gap : Gap v rest) : Cut cs (.gap newlines rest)
  | word {cs v rest : List Char} {newlines : Nat} {symbol : Symbol} (split : cs = v ++ rest)
      (counted : newlines = v.count '\n') (word : Word symbol v rest) :
      Cut cs (.symbol symbol newlines rest)
  | fault {cs : List Char} {cause : SyntaxCause} : Cut cs (.fault cause)

theorem exists_run (test : Char → Bool) (cs : List Char) :
    ∃ v, cs = v ++ cs.dropWhile test ∧ ∀ c ∈ v, test c = true :=
  ⟨cs.takeWhile test, List.takeWhile_append_dropWhile.symm, List.all_eq_true.mp List.all_takeWhile⟩

theorem cut_blanks {c : Char} (blank : Text.isBlank c = true) (cs : List Char) :
    Cut (c :: cs)
      (.gap ((c :: cs.takeWhile Text.isBlank).count '\n') (cs.dropWhile Text.isBlank)) := by
  refine .gap ?_ rfl (.blanks ?_)
  · rw [List.cons_append, List.takeWhile_append_dropWhile]
  · rw [List.forall_mem_cons]
    exact ⟨blank, List.all_eq_true.mp List.all_takeWhile⟩

theorem cut_block {cs rest : List Char} {newlines : Nat}
    (closed : closeComment 0 cs = some (newlines, rest)) :
    Cut ('/' :: '*' :: cs) (.gap newlines rest) := by
  obtain ⟨v, split, counted, closes⟩ := comment_of_closeComment closed
  have ended : (v ++ ['*', '/']).count '\n' = newlines := by simp [counted]
  refine .gap (v := '/' :: '*' :: (v ++ ['*', '/'])) (by simp [split]) (by simp [counted])
    (.block ?_)
  intro more
  rw [ended, List.append_assoc]
  exact closes more

theorem cut_line {mark : List Char} (marked : mark = ['#'] ∨ mark = ['/', '/']) (cs : List Char) :
    Cut (mark ++ cs) (.gap 0 (cs.dropWhile (· != '\n'))) := by
  obtain ⟨v, split, inside⟩ := exists_run (· != '\n') cs
  have unbroken : mark.count '\n' = 0 := by obtain rfl | rfl := marked <;> rfl
  refine .gap ?_ ?_ (.line marked inside (stops_dropWhile _ _))
  · rw [List.append_assoc, ← split]
  · rw [List.count_append, unbroken, count_newline_run inside rfl]

theorem cut_bareIdentifier (start cs : List Char) (unbroken : start.count '\n' = 0)
    (word : ∀ v rest, (∀ d ∈ v, isIdentifierChar d = true) → Stops isIdentifierChar rest →
      Word (.identifier (String.ofList (start ++ v))) (start ++ v) rest) :
    Cut (start ++ cs) (bareIdentifier start cs) := by
  have inside : ∀ d ∈ cs.takeWhile isIdentifierChar, isIdentifierChar d = true :=
    List.all_eq_true.mp List.all_takeWhile
  refine .word ?_ ?_ (word _ _ inside (stops_dropWhile _ _))
  · rw [List.append_assoc, List.takeWhile_append_dropWhile]
  · rw [List.count_append, unbroken, count_newline_run inside (by decide)]

theorem count_newline_punctuation {c : Char} {symbol : Symbol}
    (marked : punctuation? c = some symbol) : [c].count '\n' = 0 := by
  have other : c ≠ '\n' := by
    rintro rfl
    cases marked
  simp [other]

theorem lexeme_cut (c : Char) (after : List Char) : Cut (c :: after) (lexeme c after) := by
  have unbroken {d : Char} (first : isIdentifierChar d = true) : d ≠ '\n' := by
    rintro rfl
    exact absurd first (by decide)
  unfold lexeme
  split
  · next blank => exact cut_blanks blank after
  next ink =>
  split
  · next symbol marked =>
    exact .word (v := [c]) rfl (count_newline_punctuation marked).symm (.punctuation marked)
  split
  · exact cut_line (.inl rfl) _
  · exact cut_line (.inr rfl) _
  · split
    · next closed => exact cut_block closed
    · exact .fault
  · split
    · next closed =>
      obtain ⟨body, unjoined, split, rfl⟩ := pieces_of_closeQuote closed
      exact .word (by simp [split]) (by simp) (.quotation unjoined)
    · exact .fault
  · exact .word (v := ['-', '>']) rfl rfl .arrow
  · exact .fault
  · next d _ _ _ _ =>
    split
    · next first =>
      refine cut_bareIdentifier ['-', d] _ (by simp [unbroken first]) ?_
      intro v rest inside next
      exact .signed (List.forall_mem_cons.mpr ⟨first, inside⟩) next
    · exact .fault
  · split
    · next first =>
      refine cut_bareIdentifier [c] _ (by simp [unbroken first]) ?_
      intro v rest inside next
      exact .bare (Bool.eq_false_iff.mpr ink) (List.forall_mem_cons.mpr ⟨first, inside⟩) next
    · exact .fault

theorem lexeme_signed {c : Char} (first : isIdentifierChar c = true) (after : List Char) :
    lexeme '-' (c :: after) = bareIdentifier ['-', c] after := by
  have unmarked : punctuation? '-' = none := rfl
  have other : c ≠ '>' ∧ c ≠ '-' := by
    constructor <;> (rintro rfl; exact absurd first (by decide))
  unfold lexeme
  rw [if_neg (by decide), unmarked]
  dsimp only
  split <;> simp_all

theorem bareIdentifier_run {start v rest : List Char}
    (inside : ∀ c ∈ v, isIdentifierChar c = true) (next : Stops isIdentifierChar rest) :
    bareIdentifier start (v ++ rest) =
      .symbol (.identifier (String.ofList (start ++ v))) 0 rest := by
  rw [bareIdentifier, takeWhile_run inside next, dropWhile_run inside next]

theorem lexeme_punctuation {c : Char} {symbol : Symbol} (marked : punctuation? c = some symbol)
    (after : List Char) : lexeme c after = .symbol symbol 0 after := by
  have ink : Text.isBlank c = false := by
    unfold punctuation? at marked
    split at marked <;> first | rfl | cases marked
  unfold lexeme
  rw [if_neg (by simp [ink]), marked]

theorem lexeme_block {cs rest : List Char} {newlines : Nat}
    (closed : closeComment 0 cs = some (newlines, rest)) :
    lexeme '/' ('*' :: cs) = .gap newlines rest := by
  have unmarked : punctuation? '/' = none := rfl
  unfold lexeme
  rw [if_neg (by decide), unmarked]
  dsimp only
  split <;> simp_all

theorem scan_dropWhile_blank (line : Nat) (read : List Token) (cs : List Char) :
    scan line read cs =
      scan (line + (cs.takeWhile Text.isBlank).count '\n') read (cs.dropWhile Text.isBlank) := by
  cases cs with
  | nil => rfl
  | cons c after =>
    by_cases blank : Text.isBlank c = true
    · rw [scan_gap (lexeme_blank blank after), List.takeWhile_cons_of_pos blank,
        List.dropWhile_cons_of_pos blank]
    · rw [List.takeWhile_cons_of_neg blank, List.dropWhile_cons_of_neg blank]
      rfl

/-- Reading goes on after a gap, on a later line if there are line breaks in it. -/
theorem Gap.scan_eq {v rest : List Char} (gap : Gap v rest) (line : Nat) (read : List Token) :
    scan line read (v ++ rest) = scan (line + v.count '\n') read rest := by
  cases gap with
  | blanks inside =>
    rw [scan_dropWhile_blank, List.takeWhile_append_of_pos inside,
      List.dropWhile_append_of_pos inside, List.count_append, ← Nat.add_assoc,
      ← scan_dropWhile_blank]
  | @line mark v _ marked inside next =>
    have skipped := dropWhile_run inside next
    rw [List.count_append, count_newline_run inside rfl]
    obtain rfl | rfl := marked
    · have found : lexeme '#' (v ++ rest) = .gap 0 ((v ++ rest).dropWhile (· != '\n')) := rfl
      rw [skipped] at found
      exact scan_gap found line read
    · have found : lexeme '/' ('/' :: (v ++ rest)) = .gap 0 ((v ++ rest).dropWhile (· != '\n')) :=
        rfl
      rw [skipped] at found
      exact scan_gap found line read
  | @block v _ closes =>
    exact scan_gap (lexeme_block (closes rest)) line read

/-- Reading goes on after a word, whose symbol is put on the line where it starts. -/
theorem Word.scan_eq {symbol : Symbol} {v rest : List Char} (word : Word symbol v rest)
    (line : Nat) (read : List Token) :
    scan line read (v ++ rest) = scan (line + v.count '\n') (⟨symbol, line⟩ :: read) rest := by
  cases word with
  | @punctuation c _ _ marked =>
    rw [count_newline_punctuation marked]
    exact scan_symbol (lexeme_punctuation marked rest) line read
  | arrow =>
    have found : lexeme '-' ('>' :: rest) = .symbol .arrow 0 rest := rfl
    exact scan_symbol found line read
  | @quotation body _ unjoined =>
    have found := lexeme_quoted (spelling body ++ '"' :: rest)
    rw [closeQuote_spelling unjoined, closeQuote, List.append_nil, List.reverse_reverse] at found
    have scanned := scan_symbol found line read
    simpa using scanned
  | @bare c v _ ink inside next =>
    rw [count_newline_run inside (by decide)]
    rw [List.forall_mem_cons] at inside
    have found := lexeme_bare ink inside.1 (v ++ rest)
    rw [bareIdentifier_run inside.2 next] at found
    exact scan_symbol found line read
  | @signed c v _ inside next =>
    rw [List.count_cons_of_ne (by decide), count_newline_run inside (by decide)]
    rw [List.forall_mem_cons] at inside
    have found := lexeme_signed inside.1 (v ++ rest)
    rw [bareIdentifier_run inside.2 next] at found
    exact scan_symbol found line read

end SignalPaths.Dot
