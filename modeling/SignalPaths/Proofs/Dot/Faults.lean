import SignalPaths.Proofs.Dot.Stages

/-!
Faults of DOT documents and the lines that they are reported on. Tokens are viable if a document
starts with them. The fault of a text that is no document lies at the first token with which its
beginning is no longer viable, or at the end of the text. It is reported there, except that a wrong
word in the heading is always reported on the first line, and a subgraph on the line of the token
after its keyword.
-/

namespace SignalPaths.Dot

open Stage

variable {tokens : List Token}

def Viable (tokens : List Token) : Prop := ∃ more found, statements (tokens ++ more) = .ok found

theorem accepts_iff :
    (∃ found, statements tokens = .ok found) ↔ follow start tokens = ⟨true, []⟩ := by
  have tracked := statements_tracks tokens
  generalize statements tokens = result at tracked
  cases tracked with
  | ok fine => simp [fine]
  | error incomplete =>
    refine ⟨by simp, ?_⟩
    intro complete
    rw [complete] at incomplete
    cases incomplete

theorem viable_iff : Viable tokens ↔ (follow start tokens).rest = [] := by
  obtain ⟨used, split, ⟨more, completed⟩, refused⟩ := follow_split start tokens
  constructor
  · rintro ⟨more, accepted⟩
    cases left : (follow start tokens).rest with
    | nil => rfl
    | cons token after =>
      have stuck := refused token (by rw [left]; rfl) (after ++ more)
      rw [left] at split
      rw [accepts_iff, split, List.append_assoc, List.cons_append, stuck] at accepted
      cases accepted
  · intro followed
    rw [followed, List.append_nil] at split
    exact ⟨more, accepts_iff.mpr (split ▸ completed)⟩

/-- The tokens are viable up to the rest and not with its first token. -/
structure BreaksOff (tokens used rest : List Token) : Prop where
  split : tokens = used ++ rest
  viable : Viable used
  refused : ∀ token ∈ rest.head?, ¬ Viable (used ++ [token])

theorem breaksOff_follow (tokens : List Token) :
    ∃ used, BreaksOff tokens used (follow start tokens).rest := by
  obtain ⟨used, split, ⟨more, completed⟩, refused⟩ := follow_split start tokens
  refine ⟨used, split, ⟨more, accepts_iff.mpr completed⟩, ?_⟩
  intro token first viable
  rw [viable_iff, refused token first []] at viable
  cases viable

theorem Reported.line_iff {last : Nat} {rest : List Token} {error : SyntaxError}
    (reported : Reported last rest error) :
    error.line = lineAt last rest ↔
      (∀ word, error.cause = .expectedDigraph word → lineAt last rest = 1) ∧
        (error.cause = .subgraph → lineAt last rest.tail = lineAt last rest) := by
  cases reported with
  | there unnested headed => simp [unnested, headed]
  | firstLine => simp [eq_comm]
  | nextToken => simp

/-- An error is reported on the line of the first token that no document has there, or of the last
token if the text ends too early, exactly if it is no wrong word of a heading below the first line
and no subgraph whose keyword ends a line. -/
theorem statements_error_line {error : SyntaxError} (failed : statements tokens = .error error) :
    ∃ used rest, BreaksOff tokens used rest ∧ Reported (lastLine tokens) rest error ∧
      (error.line = lineAt (lastLine tokens) rest ↔
        (∀ word, error.cause = .expectedDigraph word → lineAt (lastLine tokens) rest = 1) ∧
          (error.cause = .subgraph →
            lineAt (lastLine tokens) rest.tail = lineAt (lastLine tokens) rest)) := by
  obtain ⟨used, breaks⟩ := breaksOff_follow tokens
  have tracked := statements_tracks tokens
  rw [failed] at tracked
  cases tracked with
  | error _ reported => exact ⟨used, _, breaks, reported, reported.line_iff⟩

/-- An attribute list in which a value is missing. -/
def unvalued : List Token :=
  [⟨.identifier "digraph", 1⟩, ⟨.openBrace, 1⟩, ⟨.identifier "a", 2⟩, ⟨.openBracket, 2⟩,
    ⟨.identifier "type", 2⟩, ⟨.equals, 2⟩, ⟨.closeBracket, 3⟩, ⟨.closeBrace, 4⟩]

theorem statements_error_line_unvalued :
    statements unvalued = .error ⟨3, .expectedIdentifier⟩ ∧
      ∃ used rest, BreaksOff unvalued used rest ∧ lineAt (lastLine unvalued) rest = 3 := by
  have failed : statements unvalued = .error ⟨3, .expectedIdentifier⟩ := by decide +kernel
  obtain ⟨used, rest, breaks, _, placed⟩ := statements_error_line failed
  exact ⟨failed, used, rest, breaks, (placed.mpr ⟨by simp, by simp⟩).symm⟩

/-- A subgraph whose keyword ends a line is reported on the next one. -/
theorem statements_error_line_below :
    ¬ ∀ (text : String) (found : List Token) (error : SyntaxError), Dot.tokens text = .ok found →
      found ≠ [] → statements found = .error error →
      ∃ used rest, BreaksOff found used rest ∧ error.line = lineAt (lastLine found) rest := by
  intro all
  let found : List Token :=
    [⟨.identifier "digraph", 1⟩, ⟨.openBrace, 1⟩, ⟨.identifier "subgraph", 2⟩, ⟨.openBrace, 3⟩,
      ⟨.closeBrace, 3⟩, ⟨.closeBrace, 4⟩]
  have scanned : Dot.tokens "digraph \x7b\n subgraph\n \x7b \x7d\n\x7d" = .ok found := by
    decide +kernel
  have failed : statements found = .error ⟨3, .subgraph⟩ := by decide +kernel
  obtain ⟨used, rest, breaks, placed⟩ := all _ found _ scanned (by simp [found]) failed
  have viable := viable_iff.mp breaks.viable
  -- The tokens on the third line come after the keyword, which is not viable.
  have none : ∀ n < 7, (follow start (found.take n)).rest = [] →
      lineAt (lastLine found) (found.drop n) ≠ 3 := by decide +kernel
  have before : found.take used.length = used := by simp [breaks.split]
  have after : found.drop used.length = rest := by simp [breaks.split]
  have bound : used.length < 7 := by
    have total := congrArg List.length breaks.split
    rw [List.length_append] at total
    have : found.length = 6 := rfl
    omega
  exact none used.length bound (before.symm ▸ viable) (after.symm ▸ placed.symm)

end SignalPaths.Dot
