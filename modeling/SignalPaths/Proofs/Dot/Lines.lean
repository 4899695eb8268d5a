import SignalPaths.Proofs.Dot.Lexical

/-!
Lines of DOT texts. A token stands on the line where its text starts, so that a text put below
another one has the same tokens and the same fault, as many lines further down as there are above
it.
-/

namespace SignalPaths

def SyntaxError.below (n : Nat) (error : SyntaxError) : SyntaxError :=
  { error with line := error.line + n }

namespace Dot

def Token.below (n : Nat) (token : Token) : Token := { token with line := token.line + n }

/-- Reading that starts further down, after other tokens, finds the same. -/
theorem scan_below (n line : Nat) (before read : List Token) (cs : List Char) :
    scan (line + n) (read.map (Token.below n) ++ before) cs =
      ((scan line read cs).map fun found => before.reverse ++ found.map (Token.below n)).mapError
        (SyntaxError.below n) := by
  fun_induction scan line read cs with
  | case1 line read => simp [scan_nil, Except.map, Except.mapError]
  | case2 line read c after newlines rest found ih =>
    rw [scan_gap found, Nat.add_right_comm]
    exact ih
  | case3 line read c after symbol newlines rest found ih =>
    rw [scan_symbol found, Nat.add_right_comm]
    exact ih
  | case4 line read c after cause found =>
    rw [scan_fault found]
    rfl

theorem Gap.append_newline {v rest : List Char} (gap : Gap v rest) (more : List Char) :
    Gap v (rest ++ '\n' :: more) := by
  cases gap with
  | blanks inside => exact .blanks inside
  | line marked inside next => exact .line marked inside (next.append_newline rfl more)
  | block closes => exact .block closes

theorem Word.append_newline {symbol : Symbol} {v rest : List Char} (word : Word symbol v rest)
    (more : List Char) : Word symbol v (rest ++ '\n' :: more) := by
  cases word with
  | punctuation marked => exact .punctuation marked
  | arrow => exact .arrow
  | quotation unjoined => exact .quotation unjoined
  | bare ink inside next => exact .bare ink inside (next.append_newline (by decide) more)
  | signed inside next => exact .signed inside (next.append_newline (by decide) more)

/-- Nothing before a line break is read otherwise for what comes after it. -/
theorem scan_append_newline {line : Nat} {read found : List Token} {cs : List Char}
    (scanned : scan line read cs = .ok found) (more : List Char) :
    scan line read (cs ++ '\n' :: more) = scan (line + cs.count '\n' + 1) found.reverse more := by
  fun_induction scan line read cs with
  | case1 line read =>
    obtain rfl := Except.ok.inj scanned
    have newline : Gap ['\n'] more := .blanks (by simp [Text.isBlank])
    rw [List.reverse_reverse]
    exact newline.scan_eq line read
  | case2 line read c after newlines rest taken ih =>
    have cut := lexeme_cut c after
    rw [taken] at cut
    cases cut with
    | gap split counted gap =>
      rw [split, List.append_assoc, (gap.append_newline more).scan_eq, ← counted, ih scanned,
        List.count_append, ← counted, Nat.add_assoc line]
  | case3 line read c after symbol newlines rest taken ih =>
    have cut := lexeme_cut c after
    rw [taken] at cut
    cases cut with
    | word split counted word =>
      rw [split, List.append_assoc, (word.append_newline more).scan_eq, ← counted, ih scanned,
        List.count_append, ← counted, Nat.add_assoc line]
  | case4 => cases scanned

theorem Word.tokens_append {symbol : Symbol} {v : List Char} {rest : String}
    (word : Word symbol v rest.toList) :
    tokens (String.ofList v ++ rest) =
      ((tokens rest).map fun others =>
        ⟨symbol, 1⟩ :: others.map (Token.below (v.count '\n'))).mapError
          (SyntaxError.below (v.count '\n')) := by
  have moved := scan_below (v.count '\n') 1 [⟨symbol, 1⟩] [] rest.toList
  rw [tokens, tokens, String.toList_append, String.toList_ofList, word.scan_eq]
  exact moved

/-- The lines that a text and the line break after it take up. -/
def linesAbove (upper : String) : Nat := upper.toList.count '\n' + 1

theorem tokens_stacked {upper : String} {found : List Token} (scanned : tokens upper = .ok found)
    (lower : String) :
    tokens (upper ++ "\n" ++ lower) =
      ((tokens lower).map fun others =>
        found ++ others.map (Token.below (linesAbove upper))).mapError
          (SyntaxError.below (linesAbove upper)) := by
  have moved := scan_below (linesAbove upper) 1 found.reverse [] lower.toList
  rw [List.map_nil, List.nil_append, List.reverse_reverse] at moved
  rw [tokens, tokens, ← moved]
  simpa [linesAbove, Nat.add_assoc] using scan_append_newline scanned lower.toList

/-- A text below another one, after a line break, is read as it is read alone, so many lines further
down: neither the tokens nor the fault of the one depend on the other. -/
theorem tokens_append_newline {upper : String} {found : List Token}
    (scanned : tokens upper = .ok found) (lower : String) :
    (∀ others, tokens lower = .ok others →
      tokens (upper ++ "\n" ++ lower) =
        .ok (found ++ others.map (Token.below (linesAbove upper)))) ∧
    ∀ error, tokens lower = .error error →
      tokens (upper ++ "\n" ++ lower) = .error (error.below (linesAbove upper)) := by
  rw [tokens_stacked scanned]
  constructor
  · intro others ok
    rw [ok]
    rfl
  · intro error failed
    rw [failed]
    rfl

/-- Comments and a quotation with line breaks stand above. -/
theorem tokens_append_newline_comments :
    tokens ("a /* b\n */ \"c\nd\" // e" ++ "\n" ++ "->\n-1 # f") =
        .ok [⟨.identifier "a", 1⟩, ⟨.identifier "c\nd", 2⟩, ⟨.arrow, 4⟩, ⟨.identifier "-1", 5⟩] ∧
      tokens ("a /* b\n */ \"c\nd\" // e" ++ "\n" ++ "x\n@") =
        .error ⟨5, .unexpectedCharacter '@'⟩ := by
  have scanned : tokens "a /* b\n */ \"c\nd\" // e" =
      .ok [⟨.identifier "a", 1⟩, ⟨.identifier "c\nd", 2⟩] := by decide +kernel
  exact ⟨(tokens_append_newline scanned "->\n-1 # f").1 [⟨.arrow, 1⟩, ⟨.identifier "-1", 2⟩]
      (by decide +kernel),
    (tokens_append_newline scanned "x\n@").2 ⟨2, .unexpectedCharacter '@'⟩ (by decide +kernel)⟩

end Dot

end SignalPaths
