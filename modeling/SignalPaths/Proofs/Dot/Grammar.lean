import SignalPaths.Dot.Document
import SignalPaths.Proofs.Computation

/-!
The grammar of DOT documents, as relations between what is read and the symbols that spell it.

    document   = ["strict"] "digraph" [ID] "{" item* "}"
    item       = ";" | statement
    statement  = ("graph" | "node" | "edge") attributes
               | ID "=" ID
               | ID ("->" ID)+ attributes
               | ID attributes
    attributes = ("[" (ID ["=" ID] ["," | ";"])* "]")*

The ID that starts one of the last three statements is none of "graph", "node", "edge" and
"subgraph". Reading by recursive descent succeeds on the symbols of a document and on nothing else,
and what it reads is what the derivation says: a document has one meaning.
-/

namespace SignalPaths.Dot

open Statement

def symbols (tokens : List Token) : List Symbol := tokens.map Token.symbol

@[simp] theorem symbols_nil : symbols [] = [] := rfl

@[simp] theorem symbols_cons (symbol : Symbol) (line : Nat) (rest : List Token) :
    symbols (⟨symbol, line⟩ :: rest) = symbol :: symbols rest := rfl

theorem eq_cons_of_symbols {tokens : List Token} {symbol : Symbol} {w : List Symbol}
    (spelled : symbols tokens = symbol :: w) :
    ∃ line rest, tokens = ⟨symbol, line⟩ :: rest ∧ symbols rest = w := by
  obtain ⟨⟨_, line⟩, rest, rfl, rfl, same⟩ := List.map_eq_cons_iff.mp spelled
  exact ⟨line, rest, rfl, same⟩

namespace Grammar

inductive Many {α : Type} (item : α → List Symbol → Prop) : List α → List Symbol → Prop where
  | nil : Many item [] []
  | cons {x : α} {xs : List α} {v w : List Symbol} (first : item x v) (others : Many item xs w) :
      Many item (x :: xs) (v ++ w)

namespace Many

variable {α β : Type} {item : α → List Symbol → Prop}

theorem append {xs ys : List α} {v w : List Symbol} (left : Many item xs v)
    (right : Many item ys w) : Many item (xs ++ ys) (v ++ w) := by
  induction left with
  | nil => exact right
  | cons first _ ih =>
    rw [List.append_assoc]
    exact .cons first ih

theorem flatMap {read : β → List α} {spelled : β → List Symbol}
    (each : ∀ x, Many item (read x) (spelled x)) (xs : List β) :
    Many item (xs.flatMap read) (xs.flatMap spelled) := by
  induction xs with
  | nil => exact .nil
  | cons x xs ih => exact (each x).append ih

end Many

def Optional (word : List Symbol → Prop) (w : List Symbol) : Prop := w = [] ∨ word w

inductive Separator : List Symbol → Prop where
  | comma : Separator [.comma]
  | semicolon : Separator [.semicolon]

/-- An attribute without a value is true. -/
inductive Attribute : String × String → List Symbol → Prop where
  | flag {key : String} {w : List Symbol} (separator : Optional Separator w) :
      Attribute (key, "true") (.identifier key :: w)
  | valued {key value : String} {w : List Symbol} (separator : Optional Separator w) :
      Attribute (key, value) (.identifier key :: .equals :: .identifier value :: w)

inductive AttributeList : List (String × String) → List Symbol → Prop where
  | brackets {found : List (String × String)} {w : List Symbol} (entries : Many Attribute found w) :
      AttributeList found (.openBracket :: (w ++ [.closeBracket]))

inductive Attributes : List (String × String) → List Symbol → Prop where
  | lists {lists : List (List (String × String))} {w : List Symbol}
      (all : Many AttributeList lists w) : Attributes lists.flatten w

inductive Link : String → List Symbol → Prop where
  | arrow (id : String) : Link id [.arrow, .identifier id]

def defaultWords : List String := ["graph", "node", "edge"]

def reservedWords : List String := ["graph", "node", "edge", "subgraph"]

theorem not_mem_reservedWords {word : String} :
    word ∉ reservedWords ↔
      ¬ (word = "graph" ∨ word = "node" ∨ word = "edge") ∧ word ≠ "subgraph" := by
  simp [reservedWords, and_assoc]

inductive Sentence : Statement → List Symbol → Prop where
  | defaults {word : String} {found : List (String × String)} {w : List Symbol}
      (listed : word ∈ defaultWords) (attributes : Attributes found w) :
      Sentence .ignored (.identifier word :: w)
  | assignment {first : String} (value : String) (free : first ∉ reservedWords) :
      Sentence .ignored [.identifier first, .equals, .identifier value]
  | chain {first second : String} {others : List String} {found : List (String × String)}
      {v w : List Symbol} (free : first ∉ reservedWords) (links : Many Link (second :: others) v)
      (attributes : Attributes found w) :
      Sentence (.chain first second others) (.identifier first :: (v ++ w))
  | node {first : String} {found : List (String × String)} {w : List Symbol}
      (free : first ∉ reservedWords) (attributes : Attributes found w) :
      Sentence (.node first found) (.identifier first :: w)

inductive Item : List Statement → List Symbol → Prop where
  | semicolon : Item [] [.semicolon]
  | statement {statement : Statement} {w : List Symbol} (sentence : Sentence statement w) :
      Item [statement] w

/-- A word of the heading, in which the case of ASCII letters does not count. -/
inductive Keyword (word : String) : List Symbol → Prop where
  | spelled {text : String} (same : text.toLower = word) : Keyword word [.identifier text]

inductive Name : List Symbol → Prop where
  | identifier (id : String) : Name [.identifier id]

inductive Heading : List Symbol → Prop where
  | words {u v w : List Symbol} (strict : Optional (Keyword "strict") u)
      (digraph : Keyword "digraph" v) (name : Optional Name w) : Heading (u ++ v ++ w)

inductive Document : List Statement → List Symbol → Prop where
  | graph {items : List (List Statement)} {v w : List Symbol} (heading : Heading v)
      (body : Many Item items w) : Document items.flatten (v ++ .openBrace :: (w ++ [.closeBrace]))

/-- The symbol that comes next, if there is one, is none of the given ones. -/
def HeadAvoids (stops w : List Symbol) : Prop := ∀ symbol ∈ w.head?, symbol ∉ stops

@[simp] theorem headAvoids_cons {stops w : List Symbol} {symbol : Symbol} :
    HeadAvoids stops (symbol :: w) ↔ symbol ∉ stops := by
  simp [HeadAvoids]

theorem HeadAvoids.mono {stops fewer w : List Symbol} (avoids : HeadAvoids stops w)
    (subset : fewer ⊆ stops) : HeadAvoids fewer w :=
  fun symbol member listed => avoids symbol member (subset listed)

end Grammar

open Grammar

section Reading

variable {last : Nat} {tokens rest : List Token}

/-! What is read is spelled by the tokens that are used up. -/

theorem identifier_spelled {text : String} (ok : identifier last tokens = .ok (text, rest)) :
    symbols tokens = .identifier text :: symbols rest := by
  unfold identifier at ok
  split at ok
  · cases ok; rfl
  · simp [fail] at ok

theorem skipSeparator_spelled (tokens : List Token) :
    ∃ w, Optional Separator w ∧ symbols tokens = w ++ symbols (skipSeparator tokens) := by
  unfold skipSeparator
  split
  · exact ⟨[.comma], .inr .comma, rfl⟩
  · exact ⟨[.semicolon], .inr .semicolon, rfl⟩
  · exact ⟨[], .inl rfl, rfl⟩

/-- What may follow while a list is open or no list is open: the rest of that list and more
lists. -/
inductive Pending : Bool → List (String × String) → List Symbol → Prop where
  | closed {found : List (String × String)} {w : List Symbol} (lists : Attributes found w) :
      Pending false found w
  | opened {entries found : List (String × String)} {v w : List Symbol}
      (current : Many Attribute entries v) (lists : Attributes found w) :
      Pending true (entries ++ found) (v ++ .closeBracket :: w)

theorem Pending.open_list {found : List (String × String)} {w : List Symbol}
    (pending : Pending true found w) : Pending false found (.openBracket :: w) := by
  cases pending with
  | opened current lists =>
    obtain ⟨all⟩ := lists
    simpa using Pending.closed (.lists (.cons (.brackets current) all))

theorem Pending.close_list {found : List (String × String)} {w : List Symbol}
    (pending : Pending false found w) : Pending true found (.closeBracket :: w) := by
  cases pending with
  | closed lists => exact .opened .nil lists

theorem Pending.add_entry {entry : String × String} {found : List (String × String)}
    {v w : List Symbol} (pending : Pending true found w) (added : Attribute entry v) :
    Pending true (entry :: found) (v ++ w) := by
  cases pending with
  | opened current lists => simpa using Pending.opened (.cons added current) lists

theorem attributes_pending {inside : Bool} {read found : List (String × String)}
    (ok : attributes last inside read tokens = .ok (found, rest)) :
    ∃ more w, Pending inside more w ∧ found = read.reverse ++ more ∧
      symbols tokens = w ++ symbols rest := by
  fun_induction attributes last inside read tokens with
  | case1 read line after ih =>
    obtain ⟨more, w, pending, same, spelled⟩ := ih ok
    exact ⟨more, _, pending.open_list, same, by simp [spelled]⟩
  | case2 =>
    cases ok
    exact ⟨[], [], .closed (.lists .nil), by simp, rfl⟩
  | case3 read line after ih =>
    obtain ⟨more, w, pending, same, spelled⟩ := ih ok
    exact ⟨more, _, pending.close_list, same, by simp [spelled]⟩
  | case4 read key _ _ value _ after ih =>
    obtain ⟨more, w, pending, same, spelled⟩ := ih ok
    obtain ⟨v, separator, skipped⟩ := skipSeparator_spelled after
    exact ⟨(key, value) :: more, _, pending.add_entry (.valued separator), by simp [same],
      by simp [skipped, spelled]⟩
  | case5 => simp [fail] at ok
  | case6 read key _ after _ _ ih =>
    obtain ⟨more, w, pending, same, spelled⟩ := ih ok
    obtain ⟨v, separator, skipped⟩ := skipSeparator_spelled after
    exact ⟨(key, "true") :: more, _, pending.add_entry (.flag separator), by simp [same],
      by simp [skipped, spelled]⟩
  | case7 => simp [fail] at ok

theorem attributes_spelled {found : List (String × String)}
    (ok : attributes last false [] tokens = .ok (found, rest)) :
    ∃ w, Attributes found w ∧ symbols tokens = w ++ symbols rest := by
  obtain ⟨more, w, ⟨lists⟩, rfl, spelled⟩ := attributes_pending ok
  exact ⟨w, lists, spelled⟩

theorem links_spelled {read found : List String} (ok : links last read tokens = .ok (found, rest)) :
    ∃ more w, Many Link more w ∧ found = read.reverse ++ more ∧
      symbols tokens = w ++ symbols rest := by
  fun_induction links last read tokens with
  | case1 read _ id _ after ih =>
    obtain ⟨more, w, all, same, spelled⟩ := ih ok
    exact ⟨id :: more, _, .cons (.arrow id) all, by simp [same], by simp [spelled]⟩
  | case2 => simp [fail] at ok
  | case3 =>
    cases ok
    exact ⟨[], [], .nil, by simp, rfl⟩

theorem continued_spelled {first : String} {statement : Statement}
    (ok : continued last first tokens = .ok (statement, rest)) :
    ∃ w, Sentence statement (.identifier first :: w) ∧ symbols tokens = w ++ symbols rest := by
  unfold continued at ok
  split at ok
  · next listed =>
    obtain ⟨⟨found, _⟩, read, done⟩ := except_bind_ok ok
    cases done
    obtain ⟨w, lists, spelled⟩ := attributes_spelled read
    exact ⟨w, .defaults (by simpa [defaultWords] using listed) lists, spelled⟩
  next other =>
  split at ok
  · simp [fail] at ok
  next nested =>
  have free : first ∉ reservedWords := not_mem_reservedWords.mpr ⟨other, nested⟩
  split at ok
  · obtain ⟨⟨value, _⟩, read, done⟩ := except_bind_ok ok
    cases done
    exact ⟨_, .assignment value free, by simp [identifier_spelled read]⟩
  · obtain ⟨⟨second, _⟩, read, ok⟩ := except_bind_ok ok
    obtain ⟨⟨others, _⟩, linked, ok⟩ := except_bind_ok ok
    obtain ⟨⟨found, _⟩, ended, done⟩ := except_bind_ok ok
    cases done
    obtain ⟨more, v, all, rfl, linked⟩ := links_spelled linked
    obtain ⟨w, lists, ended⟩ := attributes_spelled ended
    exact ⟨_, .chain free (.cons (.arrow second) all) lists,
      by simp [identifier_spelled read, linked, ended]⟩
  · obtain ⟨⟨found, _⟩, read, done⟩ := except_bind_ok ok
    cases done
    obtain ⟨w, lists, spelled⟩ := attributes_spelled read
    exact ⟨w, .node free lists, spelled⟩

theorem read_spelled {statement : Statement}
    (ok : Statement.read last tokens = .ok (statement, rest)) :
    ∃ w, Sentence statement w ∧ symbols tokens = w ++ symbols rest := by
  unfold Statement.read at ok
  split at ok
  · obtain ⟨w, sentence, spelled⟩ := continued_spelled ok
    exact ⟨_, sentence, by simp [spelled]⟩
  · simp [fail] at ok

theorem body_spelled {found statements : List Statement}
    (ok : body last found tokens = .ok statements) :
    ∃ items w, Many Item items w ∧ statements = found.reverse ++ items.flatten ∧
      symbols tokens = w ++ [.closeBrace] := by
  fun_induction body last found tokens with
  | case1 => simp [fail] at ok
  | case2 found line after closed =>
    cases ok
    exact ⟨[], [], .nil, by simp, by simp [List.isEmpty_iff.mp closed]⟩
  | case3 => simp [fail] at ok
  | case4 found line after ih =>
    obtain ⟨items, w, all, same, spelled⟩ := ih ok
    exact ⟨_, _, .cons .semicolon all, by simpa using same, by simp [spelled]⟩
  | case5 found token others _ _ statement after read ih =>
    obtain ⟨items, w, all, same, spelled⟩ := ih ok
    obtain ⟨v, sentence, used⟩ := read_spelled read
    exact ⟨_, _, .cons (.statement sentence) all, by simp [same], by simp [used, spelled]⟩
  | case6 => simp at ok

theorem openBrace_spelled (ok : openBrace last tokens = .ok rest) :
    symbols tokens = .openBrace :: symbols rest := by
  unfold openBrace at ok
  split at ok
  · cases ok; rfl
  · simp [fail] at ok

theorem skipName_spelled (tokens : List Token) :
    ∃ w, Optional Name w ∧ symbols tokens = w ++ symbols (skipName tokens) := by
  unfold skipName
  split
  · next id _ after => exact ⟨[.identifier id], .inr (.identifier id), rfl⟩
  · exact ⟨[], .inl rfl, rfl⟩

theorem heading_spelled (ok : heading last tokens = .ok rest) :
    ∃ w, Heading w ∧ symbols tokens = w ++ .openBrace :: symbols rest := by
  have finish {u : List Symbol} {word : String} {following : List Token}
      (strict : Optional (Keyword "strict") u)
      (spelled : symbols tokens = u ++ .identifier word :: symbols following)
      (ok : (if isWord "digraph" word then openBrace last (skipName following)
        else .error ⟨1, .expectedDigraph word⟩) = .ok rest) :
      ∃ w, Heading w ∧ symbols tokens = w ++ .openBrace :: symbols rest := by
    split at ok
    · next directed =>
      have digraph : Keyword "digraph" [.identifier word] :=
        .spelled (by simpa [isWord] using directed)
      obtain ⟨w, name, skipped⟩ := skipName_spelled following
      exact ⟨_, .words strict digraph name, by simp [spelled, skipped, openBrace_spelled ok]⟩
    · simp at ok
  unfold heading at ok
  obtain ⟨⟨first, after⟩, read, ok⟩ := except_bind_ok ok
  have read := identifier_spelled read
  dsimp only at ok
  split at ok
  · next marked =>
    obtain ⟨⟨word, following⟩, chosen, ok⟩ := except_bind_ok ok
    have marked : Keyword "strict" [.identifier first] :=
      .spelled (by simpa [isWord] using marked)
    exact finish (.inr marked) (by simp [read, identifier_spelled chosen]) ok
  · exact finish (.inl rfl) read ok

/-! The symbols of a document are read as the grammar says. What follows a word is known where its
end is not marked by the word itself. -/

theorem skipSeparator_of_spelled {v w : List Symbol} (separator : Optional Separator v)
    (spelled : symbols tokens = v ++ w) (next : HeadAvoids [.comma, .semicolon] w) :
    symbols (skipSeparator tokens) = w := by
  obtain rfl | separator := separator
  · cases tokens with
    | nil => exact spelled
    | cons token others =>
      obtain ⟨symbol, line⟩ := token
      simp only [symbols_cons, List.nil_append] at spelled
      subst spelled
      cases symbol <;> simp [skipSeparator] at next ⊢
  · cases separator <;> (obtain ⟨line, after, rfl, same⟩ := eq_cons_of_symbols spelled; exact same)

theorem headAvoids_entries {found : List (String × String)} {w v : List Symbol}
    (entries : Many Attribute found w) :
    HeadAvoids [.comma, .semicolon, .equals] (w ++ .closeBracket :: v) := by
  cases entries with
  | nil => simp
  | cons first others => cases first <;> simp

theorem attributes_flag {read : List (String × String)} {key : String} {line : Nat}
    (next : HeadAvoids [.equals] (symbols rest)) :
    attributes last true read (⟨.identifier key, line⟩ :: rest) =
      attributes last true ((key, "true") :: read) (skipSeparator rest) := by
  cases rest with
  | nil => rw [attributes] <;> simp
  | cons token others =>
    obtain ⟨symbol, _⟩ := token
    simp only [symbols_cons, headAvoids_cons, List.mem_singleton] at next
    rw [attributes] <;> simp [next]

end Reading

section Completeness

variable (last : Nat) {tokens : List Token}

theorem attributes_of_entries (read : List (String × String))
    {found : List (String × String)} {v w : List Symbol}
    (entries : Many Attribute found w) (spelled : symbols tokens = w ++ .closeBracket :: v) :
    ∃ rest, symbols rest = v ∧
      attributes last true read tokens = attributes last false (found.reverse ++ read) rest := by
  induction entries generalizing tokens read with
  | nil =>
    obtain ⟨line, rest, rfl, same⟩ := eq_cons_of_symbols spelled
    exact ⟨rest, same, by simp [attributes]⟩
  | @cons entry found _ w first others ih =>
    have next : HeadAvoids [.comma, .semicolon, .equals] (w ++ .closeBracket :: v) :=
      headAvoids_entries others
    have skip {u : List Symbol} {after : List Token} (separator : Optional Separator u)
        (spelled : symbols after = u ++ (w ++ .closeBracket :: v)) :=
      ih (entry :: read) (skipSeparator_of_spelled separator spelled (next.mono (by simp)))
    rw [List.append_assoc] at spelled
    cases first with
    | flag separator =>
      obtain ⟨_, after, rfl, valueless⟩ := eq_cons_of_symbols spelled
      obtain ⟨rest, same, step⟩ := skip separator valueless
      have unequal : HeadAvoids [.equals] (symbols after) := by
        rw [valueless]
        obtain rfl | separator := separator
        · exact next.mono (by simp)
        · cases separator <;> simp
      exact ⟨rest, same, by rw [attributes_flag unequal, step]; simp⟩
    | valued separator =>
      obtain ⟨_, _, rfl, equated⟩ := eq_cons_of_symbols spelled
      obtain ⟨_, _, rfl, valued⟩ := eq_cons_of_symbols equated
      obtain ⟨_, after, rfl, separated⟩ := eq_cons_of_symbols valued
      obtain ⟨rest, same, step⟩ := skip separator separated
      exact ⟨rest, same, by simp [attributes, step]⟩

theorem attributes_stop (read : List (String × String))
    (next : HeadAvoids [.openBracket] (symbols tokens)) :
    attributes last false read tokens = .ok (read.reverse, tokens) := by
  cases tokens with
  | nil => rw [attributes]; simp
  | cons token others =>
    obtain ⟨symbol, _⟩ := token
    simp only [symbols_cons, headAvoids_cons, List.mem_singleton] at next
    rw [attributes]
    simp [next]

theorem attributes_of_lists (read : List (String × String))
    {lists : List (List (String × String))} {v w : List Symbol} (all : Many AttributeList lists w)
    (spelled : symbols tokens = w ++ v) (next : HeadAvoids [.openBracket] v) :
    ∃ rest, symbols rest = v ∧
      attributes last false read tokens = .ok (read.reverse ++ lists.flatten, rest) := by
  induction all generalizing tokens read with
  | nil =>
    subst spelled
    exact ⟨tokens, rfl, by simpa using attributes_stop last read next⟩
  | cons first others ih =>
    obtain ⟨entries⟩ := first
    simp only [List.cons_append, List.append_assoc] at spelled
    obtain ⟨_, _, rfl, opened⟩ := eq_cons_of_symbols spelled
    obtain ⟨_, closed, step⟩ := attributes_of_entries last read entries opened
    obtain ⟨rest, same, ended⟩ := ih _ closed
    exact ⟨rest, same, by rw [attributes, step, ended]; simp⟩

theorem attributes_of_spelled {found : List (String × String)} {v w : List Symbol}
    (lists : Attributes found w) (spelled : symbols tokens = w ++ v)
    (next : HeadAvoids [.openBracket] v) :
    ∃ rest, symbols rest = v ∧ attributes last false [] tokens = .ok (found, rest) := by
  obtain ⟨all⟩ := lists
  exact attributes_of_lists last [] all spelled next

theorem links_stop (read : List String)
    (next : HeadAvoids [.arrow] (symbols tokens)) :
    links last read tokens = .ok (read.reverse, tokens) := by
  cases tokens with
  | nil => rw [links] <;> simp
  | cons token others =>
    obtain ⟨symbol, _⟩ := token
    simp only [symbols_cons, headAvoids_cons, List.mem_singleton] at next
    rw [links] <;> simp [next]

theorem links_of_many (read : List String) {ids : List String} {v w : List Symbol}
    (all : Many Link ids w) (spelled : symbols tokens = w ++ v) (next : HeadAvoids [.arrow] v) :
    ∃ rest, symbols rest = v ∧ links last read tokens = .ok (read.reverse ++ ids, rest) := by
  induction all generalizing tokens read with
  | nil =>
    subst spelled
    exact ⟨tokens, rfl, by simpa using links_stop last read next⟩
  | cons first others ih =>
    obtain ⟨id⟩ := first
    obtain ⟨_, _, rfl, linked⟩ := eq_cons_of_symbols spelled
    obtain ⟨_, _, rfl, following⟩ := eq_cons_of_symbols linked
    obtain ⟨rest, same, ended⟩ := ih _ following
    exact ⟨rest, same, by rw [links, ended]; simp⟩

theorem continued_node {first : String} {found : List (String × String)}
    (free : first ∉ reservedWords) (next : HeadAvoids [.arrow, .equals] (symbols tokens))
    (read : attributes last false [] tokens = .ok (found, rest)) :
    continued last first tokens = .ok (.node first found, rest) := by
  have free := not_mem_reservedWords.mp free
  simp only [continued, if_neg free.1, if_neg free.2]
  split
  · simp at next
  · simp at next
  · simp [read]

/-- Attributes are empty or start with a bracket. -/
theorem headAvoids_attributes {found : List (String × String)} {stops v w : List Symbol}
    (lists : Attributes found w) (next : HeadAvoids stops v) (other : .openBracket ∉ stops) :
    HeadAvoids stops (w ++ v) := by
  obtain ⟨_ | ⟨⟨_⟩, _⟩⟩ := lists
  · exact next
  · simpa using other

theorem read_of_sentence {statement : Statement} {v w : List Symbol}
    (sentence : Sentence statement w) (spelled : symbols tokens = w ++ v)
    (next : HeadAvoids [.openBracket, .arrow, .equals] v) :
    ∃ rest, symbols rest = v ∧ Statement.read last tokens = .ok (statement, rest) := by
  have unlisted : HeadAvoids [.openBracket] v := next.mono (by simp)
  have unlinked : HeadAvoids [.arrow, .equals] v := next.mono (by simp)
  cases sentence with
  | @defaults word found u listed lists =>
    obtain ⟨_, after, rfl, listing⟩ := eq_cons_of_symbols spelled
    obtain ⟨rest, same, read⟩ := attributes_of_spelled last lists listing unlisted
    have listed : word = "graph" ∨ word = "node" ∨ word = "edge" := by
      simpa [defaultWords] using listed
    exact ⟨rest, same, by simp [Statement.read, continued, listed, read]⟩
  | @assignment first value free =>
    obtain ⟨_, _, rfl, equated⟩ := eq_cons_of_symbols spelled
    obtain ⟨_, _, rfl, valued⟩ := eq_cons_of_symbols equated
    obtain ⟨_, rest, rfl, same⟩ := eq_cons_of_symbols valued
    have free := not_mem_reservedWords.mp free
    exact ⟨rest, same, by simp [Statement.read, continued, free, identifier]⟩
  | @chain first second others found _ u free all lists =>
    have unchained : HeadAvoids [.arrow] (u ++ v) :=
      headAvoids_attributes lists (unlinked.mono (by simp)) (by simp)
    obtain ⟨_, _, rfl, chained⟩ := eq_cons_of_symbols spelled
    cases all with
    | cons link all =>
    obtain ⟨_⟩ := link
    obtain ⟨_, _, rfl, linked⟩ := eq_cons_of_symbols chained
    obtain ⟨_, after, rfl, following⟩ := eq_cons_of_symbols linked
    obtain ⟨_, listing, ended⟩ := links_of_many last [] all (by simpa using following) unchained
    obtain ⟨rest, same, read⟩ := attributes_of_spelled last lists listing unlisted
    have free := not_mem_reservedWords.mp free
    exact ⟨rest, same, by simp [Statement.read, continued, free, identifier, ended, read]⟩
  | @node first found u free lists =>
    obtain ⟨_, after, rfl, listing⟩ := eq_cons_of_symbols spelled
    obtain ⟨rest, same, read⟩ := attributes_of_spelled last lists listing unlisted
    have alone : HeadAvoids [.arrow, .equals] (symbols after) := by
      rw [listing]
      exact headAvoids_attributes lists unlinked (by simp)
    exact ⟨rest, same, continued_node last free alone read⟩

theorem headAvoids_items {items : List (List Statement)} {w : List Symbol}
    (all : Many Item items w) :
    HeadAvoids [.openBracket, .arrow, .equals] (w ++ [.closeBrace]) := by
  obtain _ | ⟨_ | ⟨_ | _⟩, _⟩ := all <;> simp

theorem sentence_starts {statement : Statement} {w : List Symbol}
    (sentence : Sentence statement w) : ∃ first v, w = .identifier first :: v := by
  cases sentence <;> exact ⟨_, _, rfl⟩

theorem body_of_read (found : List Statement) {statement : Statement} {first : String} {line : Nat}
    {after rest : List Token}
    (read : Statement.read last (⟨.identifier first, line⟩ :: after) = .ok (statement, rest)) :
    body last found (⟨.identifier first, line⟩ :: after) = body last (statement :: found) rest := by
  rw [body]
  · split
    · next again =>
      rw [read] at again
      cases again
      rfl
    · next again =>
      rw [read] at again
      cases again
  all_goals simp

theorem body_of_items (found : List Statement) {items : List (List Statement)} {w : List Symbol}
    (all : Many Item items w) (spelled : symbols tokens = w ++ [.closeBrace]) :
    body last found tokens = .ok (found.reverse ++ items.flatten) := by
  induction all generalizing tokens found with
  | nil =>
    obtain ⟨_, rest, rfl, same⟩ := eq_cons_of_symbols spelled
    have ended : rest = [] := by simpa [symbols] using same
    simp [body, ended]
  | cons first others ih =>
    rw [List.append_assoc] at spelled
    cases first with
    | semicolon =>
      obtain ⟨_, rest, rfl, same⟩ := eq_cons_of_symbols spelled
      rw [body, ih found same]
      simp
    | @statement statement v sentence =>
      obtain ⟨rest, same, read⟩ := read_of_sentence last sentence spelled (headAvoids_items others)
      obtain ⟨first, _, rfl⟩ := sentence_starts sentence
      obtain ⟨_, _, rfl, _⟩ := eq_cons_of_symbols spelled
      rw [body_of_read last found read, ih (statement :: found) same]
      simp

theorem skipName_of_spelled {v w : List Symbol} (name : Optional Name w)
    (spelled : symbols tokens = w ++ .openBrace :: v) :
    symbols (skipName tokens) = .openBrace :: v := by
  obtain rfl | name := name
  · obtain ⟨_, _, rfl, same⟩ := eq_cons_of_symbols spelled
    exact congrArg (Symbol.openBrace :: ·) same
  · obtain ⟨_⟩ := name
    obtain ⟨_, _, rfl, same⟩ := eq_cons_of_symbols spelled
    exact same

theorem openBrace_of_spelled {v : List Symbol} (spelled : symbols tokens = .openBrace :: v) :
    ∃ rest, symbols rest = v ∧ openBrace last tokens = .ok rest := by
  obtain ⟨_, rest, rfl, same⟩ := eq_cons_of_symbols spelled
  exact ⟨rest, same, rfl⟩

theorem heading_of_spelled {v w : List Symbol} (words : Heading w)
    (spelled : symbols tokens = w ++ .openBrace :: v) :
    ∃ rest, symbols rest = v ∧ heading last tokens = .ok rest := by
  obtain ⟨strict, digraph, name⟩ := words
  obtain ⟨directed⟩ := digraph
  simp only [List.append_assoc, List.cons_append, List.nil_append] at spelled
  obtain rfl | strict := strict
  · obtain ⟨_, _, rfl, following⟩ := eq_cons_of_symbols spelled
    obtain ⟨rest, same, opened⟩ := openBrace_of_spelled last (skipName_of_spelled name following)
    exact ⟨rest, same, by simp [heading, identifier, isWord, directed, opened]⟩
  · obtain ⟨marked⟩ := strict
    obtain ⟨_, _, rfl, after⟩ := eq_cons_of_symbols spelled
    obtain ⟨_, _, rfl, following⟩ := eq_cons_of_symbols after
    obtain ⟨rest, same, opened⟩ := openBrace_of_spelled last (skipName_of_spelled name following)
    exact ⟨rest, same, by simp [heading, identifier, isWord, marked, directed, opened]⟩

end Completeness

theorem statements_eq_ok_iff (tokens : List Token) (found : List Statement) :
    statements tokens = .ok found ↔ Document found (symbols tokens) := by
  constructor
  · intro ok
    obtain ⟨rest, headed, read⟩ := except_bind_ok ok
    obtain ⟨v, heading, spelled⟩ := heading_spelled headed
    obtain ⟨items, w, all, rfl, closed⟩ := body_spelled read
    rw [spelled, closed]
    exact .graph heading all
  · intro document
    generalize spelled : symbols tokens = w at document
    obtain ⟨heading, all⟩ := document
    let last := (tokens.getLast?.map Token.line).getD 1
    obtain ⟨rest, same, headed⟩ := heading_of_spelled last heading spelled
    have read := body_of_items last [] all same
    simp only [statements, last] at headed read ⊢
    simp [headed, read]

/-- Reading succeeds on the documents of the grammar and on nothing else, and gives the statements
of the derivation, whichever derivation is taken. -/
theorem statements_accepts_iff (tokens : List Token) :
    ((∃ found, statements tokens = .ok found) ↔ ∃ found, Document found (symbols tokens)) ∧
      ∀ found, statements tokens = .ok found ↔ Document found (symbols tokens) :=
  ⟨exists_congr (statements_eq_ok_iff tokens), statements_eq_ok_iff tokens⟩

end SignalPaths.Dot
