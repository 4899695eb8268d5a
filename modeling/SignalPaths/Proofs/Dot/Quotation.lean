import SignalPaths.Proofs.Dot.Lines

/-!
Quotations of DOT. The reader that finds the end of a quotation and the one that undoes its escapes
go by the same pieces, with one exception: a backslash at the end of a line would be dropped with
the line break, but a quotation that holds one finds no end. Escaping never writes such a backslash,
so that every text can be quoted.
-/

namespace SignalPaths.Dot

open Piece

def quotation (body : List Piece) : String := "\"" ++ String.ofList (spelling body) ++ "\""

theorem tokens_quotation {body : List Piece} (unjoined : Unjoined body) :
    tokens (quotation body) =
      .ok [⟨.identifier (String.ofList (unescape (spelling body))), 1⟩] := by
  have word : Word _ _ [] := .quotation unjoined
  have scanned := word.scan_eq 1 []
  rw [scan_nil] at scanned
  simpa [tokens, quotation] using scanned

theorem tokens_quotation_joined {body : List Piece} (joined : ¬ Unjoined body) (rest : String) :
    tokens (quotation body ++ rest) = .error ⟨1, .unexpectedCharacter '"'⟩ := by
  have found := lexeme_quoted (spelling body ++ '"' :: rest.toList)
  rw [closeQuote_joined joined] at found
  simpa [tokens, quotation] using scan_fault found 1 []

/-- A quotation is one identifier, its body with the escapes undone, exactly if no backslash stands
at the end of a line. Otherwise it has no end and nothing is read. -/
theorem tokens_quotation_iff (body : List Piece) (rest : String) {others : List Token}
    (scanned : tokens rest = .ok others) :
    let identifier := Symbol.identifier (String.ofList (unescape (spelling body)))
    unescape (spelling body) = body.flatMap meaning ∧
      ((∃ more, tokens (quotation body ++ "\n" ++ rest) = .ok (⟨identifier, 1⟩ :: more)) ↔
        Unjoined body) ∧
      (Unjoined body → tokens (quotation body ++ "\n" ++ rest) =
        .ok (⟨identifier, 1⟩ :: others.map (Token.below (linesAbove (quotation body))))) ∧
      (¬ Unjoined body → tokens (quotation body ++ "\n" ++ rest) =
        .error ⟨1, .unexpectedCharacter '"'⟩) := by
  intro identifier
  have read (unjoined : Unjoined body) : tokens (quotation body ++ "\n" ++ rest) =
      .ok (⟨identifier, 1⟩ :: others.map (Token.below (linesAbove (quotation body)))) := by
    rw [tokens_stacked (tokens_quotation unjoined), scanned]
    rfl
  have refused (joined : ¬ Unjoined body) : tokens (quotation body ++ "\n" ++ rest) =
      .error ⟨1, .unexpectedCharacter '"'⟩ := by
    rw [String.append_assoc]
    exact tokens_quotation_joined joined _
  refine ⟨unescape_spelling body, ⟨?_, fun unjoined => ⟨_, read unjoined⟩⟩, read, refused⟩
  rintro ⟨more, ok⟩
  by_contra joined
  rw [refused joined] at ok
  cases ok

/-- A quote, a backslash, a letter and a line break, the last one without a backslash. -/
theorem tokens_quotation_iff_escapes :
    tokens (quotation [.pair '"', .pair '\\', .pair 'n', .plain '\n' (by decide)] ++ "\n" ++
        "-> b") =
      .ok [⟨.identifier "\"\\\\n\n", 1⟩, ⟨.arrow, 3⟩, ⟨.identifier "b", 3⟩] := by
  have scanned : tokens "-> b" = .ok [⟨.arrow, 1⟩, ⟨.identifier "b", 1⟩] := by decide +kernel
  rw [(tokens_quotation_iff _ "-> b" scanned).2.2.1 (by simp [Unjoined, joinsLines])]
  decide +kernel

/-- Not every quotation can be read: a line that is continued inside one is a fault. -/
theorem tokens_quotation_continued :
    ¬ ∀ (body : List Piece) (rest : String) (others : List Token), tokens rest = .ok others →
      ∃ line more, tokens (quotation body ++ "\n" ++ rest) =
        .ok (⟨.identifier (String.ofList (unescape (spelling body))), line⟩ :: more) := by
  intro all
  let body : List Piece := [.plain 'd' (by decide), .plain 'i' (by decide), .plain 'g' (by decide),
    .plain 'r' (by decide), .plain 'a' (by decide), .plain 'p' (by decide), .plain 'h' (by decide),
    .pair '\n']
  have scanned : tokens "\x7b \x7d" = .ok [⟨.openBrace, 1⟩, ⟨.closeBrace, 1⟩] := by decide +kernel
  have refused : tokens (quotation body ++ "\n" ++ "\x7b \x7d") =
      .error ⟨1, .unexpectedCharacter '"'⟩ := by decide +kernel
  obtain ⟨line, more, ok⟩ := all body _ _ scanned
  rw [refused] at ok
  cases ok

/-- Puts a text in place of every occurrence of a character. -/
def replaceChar (c : Char) (text s : List Char) : List Char :=
  s.flatMap fun d => if d = c then text else [d]

/-- Escaping takes backslashes first: those that it writes before quotes are not escaped again. -/
theorem escape_eq_replaceChar (s : List Char) :
    escape s = replaceChar '"' ['\\', '"'] (replaceChar '\\' ['\\', '\\'] s) := by
  unfold escape replaceChar
  rw [List.flatMap_assoc]
  apply List.flatMap_congr
  intro c _
  unfold escapeChar
  by_cases backslash : c = '\\'
  · subst backslash
    rfl
  · by_cases quote : c = '"' <;> simp [backslash, quote]

theorem word_quote (s : String) (rest : List Char) :
    Word (.identifier s) (quote s).toList rest := by
  have word : Word _ _ rest := .quotation (unjoined_ofChar s.toList)
  rw [← escape_eq_spelling, unescape_escape, String.ofList_toList] at word
  simpa [quote] using word

theorem count_newline_escape (s : List Char) : (escape s).count '\n' = s.count '\n' := by
  induction s with
  | nil => rfl
  | cons c s ih =>
    have each : (escapeChar c).count '\n' = [c].count '\n' := by
      unfold escapeChar
      split
      · exact List.count_cons_of_ne (by decide)
      · rfl
    rw [escape, List.flatMap_cons, List.count_append, each, ← escape, ih, ← List.count_append,
      List.singleton_append]

theorem count_newline_quote (s : String) : (quote s).toList.count '\n' = s.toList.count '\n' := by
  simp [quote, count_newline_escape]

/-- Every text can be quoted, whatever comes after the quotation. The quotation reads as the text,
and the rest as it reads alone, as many lines further down as there are line breaks in the text. -/
theorem tokens_quote (s rest : String) :
    let down := s.toList.count '\n'
    tokens (quote s ++ rest) =
      ((tokens rest).map fun others =>
        ⟨.identifier s, 1⟩ :: others.map (Token.below down)).mapError (SyntaxError.below down) ∧
    escape s.toList = replaceChar '"' ['\\', '"'] (replaceChar '\\' ['\\', '\\'] s.toList) ∧
    unescape (escape s.toList) = s.toList ∧
    closeQuote [] (escape s.toList ++ '"' :: rest.toList) =
      some (escape s.toList, rest.toList) := by
  intro down
  refine ⟨?_, escape_eq_replaceChar s.toList, unescape_escape s.toList,
    closeQuote_escape [] s.toList rest.toList⟩
  have read := (word_quote s rest.toList).tokens_append
  rwa [String.ofList_toList, count_newline_quote] at read

end SignalPaths.Dot
