import SignalPaths.Proofs.Dot.Grammar

/-!
The stages of a DOT document. A document nests nothing, so that a finite number of stages says what
may come next. From every stage a document can be completed; the readers of documents go through the
stages and fail where the stages end.
-/

namespace SignalPaths.Dot

open Grammar Statement

/-- What was read last, as far as it bears on what may come next. -/
inductive Stage where
  | start | strict | digraph | named
  | items | subject | assigning | linking | linked | listed
  | entries | key | valuing | value
  | closed
  deriving DecidableEq, Repr

namespace Stage

/-- Steps that end the statement before, if there is one. -/
def item : Symbol → Option Stage
  | .closeBrace => some closed
  | .semicolon => some items
  | .identifier word =>
    if word = "graph" ∨ word = "node" ∨ word = "edge" then some listed
    else if word = "subgraph" then none
    else some subject
  | _ => none

/-- Steps that end the attribute before, if there is one. -/
def entry : Symbol → Option Stage
  | .closeBracket => some listed
  | .identifier _ => some key
  | _ => none

def next : Stage → Symbol → Option Stage
  | start, .identifier word =>
    if isWord "strict" word then some strict
    else if isWord "digraph" word then some digraph
    else none
  | strict, .identifier word => if isWord "digraph" word then some digraph else none
  | digraph, .identifier _ => some named
  | digraph, .openBrace => some items
  | named, .openBrace => some items
  | items, symbol => item symbol
  | subject, .equals => some assigning
  | subject, .arrow => some linking
  | subject, .openBracket => some entries
  | subject, symbol => item symbol
  | assigning, .identifier _ => some items
  | linking, .identifier _ => some linked
  | linked, .arrow => some linking
  | linked, .openBracket => some entries
  | linked, symbol => item symbol
  | listed, .openBracket => some entries
  | listed, symbol => item symbol
  | entries, symbol => entry symbol
  | key, .equals => some valuing
  | key, .comma => some entries
  | key, .semicolon => some entries
  | key, symbol => entry symbol
  | valuing, .identifier _ => some value
  | value, .comma => some entries
  | value, .semicolon => some entries
  | value, symbol => entry symbol
  | _, _ => none

/-- Nothing but an identifier can come next. -/
structure AwaitsIdentifier (stage : Stage) : Prop where
  unclosed : stage ≠ closed
  refuses : ∀ symbol, (∀ text, symbol ≠ .identifier text) → stage.next symbol = none

/-- Symbols that complete a document. -/
def completion : Stage → List Symbol
  | start | strict => [.identifier "digraph", .openBrace, .closeBrace]
  | digraph | named => [.openBrace, .closeBrace]
  | items | subject | linked | listed => [.closeBrace]
  | assigning | linking => [.identifier "0", .closeBrace]
  | entries | key | value => [.closeBracket, .closeBrace]
  | valuing => [.identifier "0", .closeBracket, .closeBrace]
  | closed => []

theorem awaitsIdentifier {stage : Stage}
    (listed : stage = start ∨ stage = strict ∨ stage = assigning ∨ stage = linking ∨
      stage = valuing) : stage.AwaitsIdentifier := by
  obtain rfl | rfl | rfl | rfl | rfl := listed
  all_goals
    refine ⟨by decide, ?_⟩
    intro symbol other
    cases symbol <;> first | rfl | exact absurd rfl (other _)

end Stage

open Stage

/-- How far tokens can be followed: whether they complete a document, and those from the first one
on that cannot come where it comes. -/
structure Course where
  complete : Bool
  rest : List Token
  deriving DecidableEq

def follow (stage : Stage) : List Token → Course
  | [] => ⟨stage == closed, []⟩
  | token :: rest =>
    match stage.next token.symbol with
    | some after => follow after rest
    | none => ⟨false, token :: rest⟩

section Follow

variable {stage after : Stage} {token : Token} {tokens rest : List Token}

theorem follow_step (step : stage.next token.symbol = some after) :
    follow stage (token :: rest) = follow after rest := by
  rw [follow, step]

theorem follow_stop (refused : stage.next token.symbol = none) :
    follow stage (token :: rest) = ⟨false, token :: rest⟩ := by
  rw [follow, refused]

theorem follow_completion (stage : Stage) :
    follow stage (stage.completion.map fun symbol => ⟨symbol, 1⟩) = ⟨true, []⟩ := by
  cases stage <;> decide +kernel

/-- Tokens that can be followed go on to a document, and those that cannot do not, whatever comes
after the token that is refused. -/
theorem follow_split (stage : Stage) (tokens : List Token) :
    ∃ used, tokens = used ++ (follow stage tokens).rest ∧
      (∃ more, follow stage (used ++ more) = ⟨true, []⟩) ∧
      ∀ token ∈ (follow stage tokens).rest.head?, ∀ more,
        follow stage (used ++ token :: more) = ⟨false, token :: more⟩ := by
  induction tokens generalizing stage with
  | nil => exact ⟨[], rfl, ⟨_, follow_completion stage⟩, by simp [follow]⟩
  | cons token tokens ih =>
    cases step : stage.next token.symbol with
    | none =>
      rw [follow_stop step]
      refine ⟨[], rfl, ⟨_, follow_completion stage⟩, ?_⟩
      intro other first more
      obtain rfl := Option.some.inj first
      exact follow_stop step
    | some after =>
      obtain ⟨used, split, ⟨more, completed⟩, refused⟩ := ih after
      rw [follow_step step]
      refine ⟨token :: used, by rw [List.cons_append, ← split], ⟨more, ?_⟩, ?_⟩
      · rw [List.cons_append, follow_step step, completed]
      · intro other first more
        rw [List.cons_append, follow_step step, refused other first more]

/-- Two stages that differ only in some symbols go the same way where none of these comes next. -/
theorem follow_avoiding {stops : List Symbol} (unclosed : stage ≠ closed ∧ after ≠ closed)
    (alike : ∀ symbol, symbol ∉ stops → stage.next symbol = after.next symbol)
    (avoids : HeadAvoids stops (symbols tokens)) : follow stage tokens = follow after tokens := by
  cases tokens with
  | nil => simp [follow, unclosed]
  | cons token rest =>
    rw [symbols_cons, headAvoids_cons] at avoids
    rw [follow, follow, alike token.symbol avoids]

theorem follow_subject (avoids : HeadAvoids [.equals, .arrow] (symbols tokens)) :
    follow subject tokens = follow listed tokens := by
  refine follow_avoiding (by decide) ?_ avoids
  intro symbol other
  cases symbol <;> first | rfl | simp at other

theorem follow_linked (avoids : HeadAvoids [.arrow] (symbols tokens)) :
    follow linked tokens = follow listed tokens := by
  refine follow_avoiding (by decide) ?_ avoids
  intro symbol other
  cases symbol <;> first | rfl | simp at other

theorem follow_listed (avoids : HeadAvoids [.openBracket] (symbols tokens)) :
    follow listed tokens = follow items tokens := by
  refine follow_avoiding (by decide) ?_ avoids
  intro symbol other
  cases symbol <;> first | rfl | simp at other

theorem follow_key (avoids : HeadAvoids [.equals] (symbols tokens)) :
    follow key tokens = follow value tokens := by
  refine follow_avoiding (by decide) ?_ avoids
  intro symbol other
  cases symbol <;> first | rfl | simp at other

theorem follow_value (tokens : List Token) :
    follow value tokens = follow entries (skipSeparator tokens) := by
  cases tokens with
  | nil => rfl
  | cons token rest =>
    obtain ⟨symbol, line⟩ := token
    cases symbol <;> rfl

end Follow

def lineAt (last : Nat) (tokens : List Token) : Nat := (tokens.head?.map Token.line).getD last

/-- Where an error is reported that the first of the given tokens gives rise to, or the end of the
text if there is none. -/
inductive Reported (last : Nat) : List Token → SyntaxError → Prop where
  | there {rest : List Token} {cause : SyntaxCause} (unnested : cause ≠ .subgraph)
      (headed : ∀ word, cause ≠ .expectedDigraph word) :
      Reported last rest ⟨lineAt last rest, cause⟩
  | firstLine {word : String} {line : Nat} {rest : List Token} :
      Reported last (⟨.identifier word, line⟩ :: rest) ⟨1, .expectedDigraph word⟩
  | nextToken {line : Nat} {rest : List Token} :
      Reported last (⟨.identifier "subgraph", line⟩ :: rest) ⟨lineAt last rest, .subgraph⟩

/-- A reader that succeeds in keeping with a course, or else fails where the course ends. -/
inductive Tracks {α : Type} (last : Nat) (good : α → Course → Prop) (course : Course) :
    Except SyntaxError α → Prop where
  | ok {result : α} (fine : good result course) : Tracks last good course (.ok result)
  | error {error : SyntaxError} (incomplete : course.complete = false)
      (reported : Reported last course.rest error) : Tracks last good course (.error error)

/-- The course goes on from a stage with the tokens that a reader leaves. -/
def Leaves (stage : Stage) (rest : List Token) (course : Course) : Prop :=
  course = follow stage rest

namespace Tracks

variable {α β : Type} {last : Nat} {good : β → Course → Prop} {course : Course} {stage : Stage}
  {tokens : List Token}

theorem bind {x : Except SyntaxError α} {f : α → Except SyntaxError β}
    {middle : α → Course → Prop} (first : Tracks last middle course x)
    (others : ∀ result, middle result course → Tracks last good course (f result)) :
    Tracks last good course (x >>= f) := by
  cases first with
  | ok fine => exact others _ fine
  | error incomplete reported => exact .error incomplete reported

theorem fail {cause : SyntaxCause}
    (refused : ∀ token ∈ tokens.head?, stage.next token.symbol = none)
    (unclosed : stage ≠ closed) (unnested : cause ≠ .subgraph)
    (headed : ∀ word, cause ≠ .expectedDigraph word) :
    Tracks last good (follow stage tokens) (fail last tokens cause) := by
  cases tokens with
  | nil => exact .error (by simpa [follow] using unclosed) (.there unnested headed)
  | cons token rest =>
    rw [follow_stop (refused token rfl)]
    exact .error rfl (.there unnested headed)

theorem expectedIdentifier (waits : stage.AwaitsIdentifier)
    (missing : ∀ text line rest, tokens = ⟨.identifier text, line⟩ :: rest → False) :
    Tracks last good (follow stage tokens) (Statement.fail last tokens .expectedIdentifier) := by
  refine fail ?_ waits.unclosed (by decide) (by simp)
  intro token first
  obtain ⟨rest, rfl⟩ := List.head?_eq_some_iff.mp first
  apply waits.refuses
  rintro text same
  exact missing text token.line rest (same ▸ rfl)

end Tracks

theorem headAvoids_of_ne {stops : List Symbol} {tokens : List Token}
    (unlike : ∀ symbol ∈ stops, ∀ line rest, tokens = ⟨symbol, line⟩ :: rest → False) :
    HeadAvoids stops (symbols tokens) := by
  cases tokens with
  | nil => simp [HeadAvoids]
  | cons token rest =>
    obtain ⟨symbol, line⟩ := token
    rw [symbols_cons, headAvoids_cons]
    intro listed
    exact unlike symbol listed line rest rfl

section Readers

variable (last : Nat)

theorem attributes_tracks (inside : Bool) (read : List (String × String)) (tokens : List Token) :
    Tracks last (Leaves items ·.2) (follow (if inside then entries else listed) tokens)
      (attributes last inside read tokens) := by
  fun_induction attributes last inside read tokens with
  | case1 _ _ _ ih => exact ih
  | case2 _ _ unlisted => exact .ok (follow_listed (headAvoids_of_ne (by simpa using unlisted)))
  | case3 _ _ _ ih => exact ih
  | case4 read key _ _ value _ rest ih =>
    change Tracks last _ (follow Stage.value rest) _
    rw [follow_value]
    exact ih
  | case5 _ _ _ _ rest unvalued =>
    change Tracks last _ (follow valuing rest) _
    exact .expectedIdentifier (awaitsIdentifier (by simp)) unvalued
  | case6 _ _ _ rest _ unequal ih =>
    change Tracks last _ (follow Stage.key rest) _
    rw [follow_key (headAvoids_of_ne (by simpa using unequal)), follow_value]
    exact ih
  | case7 _ rest unclosed _ _ unkeyed =>
    change Tracks last _ (follow entries rest) _
    refine Tracks.fail ?_ (by decide) (by decide) (by simp)
    rintro ⟨symbol, line⟩ first
    obtain ⟨others, rfl⟩ := List.head?_eq_some_iff.mp first
    cases symbol <;> first | rfl | exact (unkeyed _ _ _ rfl).elim | exact (unclosed _ _ rfl).elim

theorem links_tracks (read : List String) (tokens : List Token) :
    Tracks last (Leaves listed ·.2) (follow linked tokens) (links last read tokens) := by
  fun_induction links last read tokens with
  | case1 _ _ _ _ _ ih => exact ih
  | case2 _ _ rest unlinked =>
    change Tracks last _ (follow linking rest) _
    exact .expectedIdentifier (awaitsIdentifier (by simp)) unlinked
  | case3 _ _ _ unlinked => exact .ok (follow_linked (headAvoids_of_ne (by simpa using unlinked)))

theorem identifier_cases (tokens : List Token) :
    (∃ text line rest, tokens = ⟨.identifier text, line⟩ :: rest) ∨
      identifier last tokens = fail last tokens .expectedIdentifier ∧
        ∀ text line rest, tokens = ⟨.identifier text, line⟩ :: rest → False := by
  unfold identifier
  split
  · next text line rest => exact .inl ⟨text, line, rest, rfl⟩
  · next missing => exact .inr ⟨rfl, missing⟩

theorem identifier_tracks {stage after : Stage} (waits : stage.AwaitsIdentifier)
    (steps : ∀ text, stage.next (.identifier text) = some after) (tokens : List Token) :
    Tracks last (Leaves after ·.2) (follow stage tokens) (identifier last tokens) := by
  unfold identifier
  split
  · exact .ok (follow_step (steps _))
  · next missing => exact .expectedIdentifier waits missing

theorem continued_tracks {first : String} (free : first ∉ reservedWords) (tokens : List Token) :
    Tracks last (Leaves items ·.2) (follow subject tokens) (continued last first tokens) := by
  have free := not_mem_reservedWords.mp free
  unfold continued
  rw [if_neg free.1, if_neg free.2]
  split
  · next line rest =>
    refine Tracks.bind (identifier_tracks last (awaitsIdentifier (by simp)) (fun _ => rfl) rest) ?_
    intro value left
    exact .ok left
  · next line rest =>
    refine Tracks.bind (identifier_tracks last (awaitsIdentifier (by simp)) (fun _ => rfl) rest) ?_
    intro second left
    rw [left]
    refine Tracks.bind (links_tracks last [] second.2) ?_
    intro others left
    rw [left]
    refine Tracks.bind (attributes_tracks last false [] others.2) ?_
    intro lists left
    exact .ok left
  · next unassigned unlinked =>
    have other : HeadAvoids [.equals, .arrow] (symbols tokens) :=
      headAvoids_of_ne (by simpa using ⟨unassigned, unlinked⟩)
    rw [follow_subject other]
    refine Tracks.bind (attributes_tracks last false [] tokens) ?_
    intro lists left
    exact .ok left

theorem read_tracks {tokens : List Token}
    (unended : HeadAvoids [.closeBrace, .semicolon] (symbols tokens)) :
    Tracks last (Leaves items ·.2) (follow items tokens) (Statement.read last tokens) := by
  unfold Statement.read
  split
  · next first line rest =>
    by_cases default : first = "graph" ∨ first = "node" ∨ first = "edge"
    · have step : items.next (.identifier first) = some listed := if_pos default
      rw [follow_step step]
      unfold continued
      rw [if_pos default]
      refine Tracks.bind (attributes_tracks last false [] rest) ?_
      intro lists left
      exact .ok left
    by_cases nested : first = "subgraph"
    · have refused : items.next (.identifier first) = none := (if_neg default).trans (if_pos nested)
      rw [follow_stop refused]
      unfold continued
      rw [if_neg default, if_pos nested]
      subst nested
      exact .error rfl .nextToken
    · have step : items.next (.identifier first) = some subject :=
        (if_neg default).trans (if_neg nested)
      rw [follow_step step]
      exact continued_tracks last (not_mem_reservedWords.mpr ⟨default, nested⟩) rest
  · next missing =>
    refine Tracks.fail ?_ (by decide) (by decide) (by simp)
    rintro ⟨symbol, line⟩ first
    obtain ⟨others, rfl⟩ := List.head?_eq_some_iff.mp first
    cases symbol <;> first | rfl | exact (missing _ _ _ rfl).elim | simp at unended

/-- A statement is read where neither the end of the document nor a semicolon comes. -/
theorem item_tracks {token : Token} (others : List Token)
    (unended : ∀ line, token = ⟨.closeBrace, line⟩ → False)
    (unseparated : ∀ line, token = ⟨.semicolon, line⟩ → False) :
    Tracks last (Leaves items ·.2) (follow items (token :: others))
      (Statement.read last (token :: others)) := by
  apply read_tracks
  apply headAvoids_of_ne
  intro symbol listed line rest same
  obtain ⟨rfl, _⟩ := List.cons.inj same
  rcases List.mem_pair.mp listed with rfl | rfl
  · exact unended line rfl
  · exact unseparated line rfl

theorem body_tracks (found : List Statement) (tokens : List Token) :
    Tracks last (fun _ course => course = ⟨true, []⟩) (follow items tokens)
      (body last found tokens) := by
  fun_induction body last found tokens with
  | case1 => exact .error rfl (.there (by decide) (by simp))
  | case2 found line rest ended =>
    obtain rfl := List.isEmpty_iff.mp ended
    exact .ok rfl
  | case3 found line rest trailing =>
    cases rest with
    | nil => exact absurd rfl trailing
    | cons token rest => exact .error rfl (.there (by decide) (by simp))
  | case4 found line rest ih => exact ih
  | case5 found token others unended unseparated statement rest read ih =>
    have tracked := item_tracks last others unended unseparated
    rw [read] at tracked
    cases tracked with
    | ok fine =>
      rw [fine]
      exact ih
  | case6 found token others unended unseparated error read =>
    have tracked := item_tracks last others unended unseparated
    rw [read] at tracked
    cases tracked with
    | error incomplete reported => exact .error incomplete reported

theorem openBrace_tracks {stage : Stage} {tokens : List Token} (unclosed : stage ≠ closed)
    (brace : stage.next .openBrace = some items)
    (others : ∀ token ∈ tokens.head?, token.symbol ≠ .openBrace → stage.next token.symbol = none) :
    Tracks last (Leaves items) (follow stage tokens) (openBrace last tokens) := by
  unfold openBrace
  split
  · exact .ok (follow_step brace)
  · next missing =>
    refine Tracks.fail ?_ unclosed (by decide) (by simp)
    intro token first
    apply others token first
    obtain ⟨rest, rfl⟩ := List.head?_eq_some_iff.mp first
    intro same
    exact missing token.line rest (same ▸ rfl)

theorem name_tracks (tokens : List Token) :
    Tracks last (Leaves items) (follow digraph tokens) (openBrace last (skipName tokens)) := by
  unfold skipName
  split
  · next rest =>
    change Tracks last _ (follow named rest) _
    refine openBrace_tracks last (by decide) rfl ?_
    rintro ⟨symbol, line⟩ first other
    cases symbol <;> first | rfl | exact absurd rfl other
  · next unnamed =>
    refine openBrace_tracks last (by decide) rfl ?_
    rintro ⟨symbol, line⟩ first other
    obtain ⟨rest, rfl⟩ := List.head?_eq_some_iff.mp first
    cases symbol <;> first | rfl | exact absurd rfl other | exact (unnamed _ _ _ rfl).elim

/-- The word that has to be there is the one that the stage takes. -/
theorem digraph_tracks {stage : Stage} {word : String} {line : Nat} {rest : List Token}
    (step : stage.next (.identifier word) = if isWord "digraph" word then some digraph else none) :
    Tracks last (Leaves items) (follow stage (⟨.identifier word, line⟩ :: rest))
      (if isWord "digraph" word then openBrace last (skipName rest)
        else .error ⟨1, .expectedDigraph word⟩) := by
  split
  · next directed =>
    rw [follow_step (step.trans (if_pos directed))]
    exact name_tracks last rest
  · next other =>
    rw [follow_stop (step.trans (if_neg other))]
    exact .error rfl .firstLine

theorem heading_tracks (tokens : List Token) :
    Tracks last (Leaves items) (follow start tokens) (heading last tokens) := by
  unfold heading
  rcases identifier_cases last tokens with ⟨first, line, rest, rfl⟩ | ⟨failed, missing⟩
  · rw [identifier, Traced.ok_bind]
    by_cases marked : isWord "strict" first = true
    · have step : start.next (.identifier first) = some strict := if_pos marked
      rw [follow_step step]
      dsimp only
      rw [if_pos marked]
      rcases identifier_cases last rest with ⟨word, _, following, rfl⟩ | ⟨failed, missing⟩
      · exact digraph_tracks last rfl
      · rw [failed]
        exact .expectedIdentifier (awaitsIdentifier (by simp)) missing
    · dsimp only
      rw [if_neg marked]
      exact digraph_tracks last (if_neg marked)
  · rw [failed]
    exact .expectedIdentifier (awaitsIdentifier (by simp)) missing

def lastLine (tokens : List Token) : Nat := (tokens.getLast?.map Token.line).getD 1

theorem statements_tracks (tokens : List Token) :
    Tracks (lastLine tokens) (fun _ course => course = ⟨true, []⟩) (follow start tokens)
      (statements tokens) := by
  refine Tracks.bind (heading_tracks (lastLine tokens) tokens) ?_
  intro rest left
  rw [left]
  exact body_tracks (lastLine tokens) [] rest

end Readers

end SignalPaths.Dot
