import Mathlib.Data.List.Nodup
import SignalPaths.Proofs.Toml.Values

/-!
Documents of tables that are written and read again. Each header and each entry takes one line, and
the lines put together the tables they were written from, if names and keys are bare words and none
is given twice.
-/

namespace SignalPaths.Toml

variable {c : Char} {key name : String} {text rest : List Char} {item : Item}

section Keys

/-- A word that needs no quotes as a key. -/
def IsBare (key : String) : Prop := key.toList ≠ [] ∧ key.toList.all isBareKeyChar = true

instance (key : String) : Decidable (IsBare key) := inferInstanceAs (Decidable (_ ∧ _))

theorem ne_of_isBareKeyChar {d : Char} (bare : isBareKeyChar c = true)
    (mark : isBareKeyChar d = false) : c ≠ d := by
  rintro rfl
  rw [bare] at mark
  cases mark

theorem IsBare.exists_head (bare : IsBare key) :
    ∃ c after, key.toList = c :: after ∧ isBareKeyChar c = true := by
  obtain ⟨c, after, whole⟩ := List.exists_cons_of_ne_nil bare.1
  exact ⟨c, after, whole, List.all_eq_true.mp bare.2 c (by simp [whole])⟩

theorem skipBlank_ink (ink : isBlank c = false) (cs : List Char) : skipBlank (c :: cs) = c :: cs :=
  List.dropWhile_cons_of_neg (by simp [ink])

theorem isBlank_of_isBareKeyChar (bare : isBareKeyChar c = true) : isBlank c = false := by
  simp [isBlank, ne_of_isBareKeyChar bare (d := ' ') (by decide),
    ne_of_isBareKeyChar bare (d := '\t') (by decide)]

theorem simpleKey_bare (bare : IsBare key) (mark : isBareKeyChar c = false) (rest : List Char) :
    simpleKey (key.toList ++ c :: rest) = some (key, c :: rest) := by
  have all : ∀ d ∈ key.toList, isBareKeyChar d = true := List.all_eq_true.mp bare.2
  have stops : ¬ isBareKeyChar c = true := by simp [mark]
  have front : (key.toList ++ c :: rest).takeWhile isBareKeyChar = key.toList := by
    rw [List.takeWhile_append_of_pos all, List.takeWhile_cons_of_neg stops, List.append_nil]
  have back : (key.toList ++ c :: rest).dropWhile isBareKeyChar = c :: rest := by
    rw [List.dropWhile_append_of_pos all, List.dropWhile_cons_of_neg stops]
  have word : String.ofList key.toList = key := String.ofList_toList
  obtain ⟨first, after, whole, letter⟩ := bare.exists_head
  rw [whole, List.cons_append] at front back ⊢
  rw [whole] at word
  rw [simpleKey, front, back, ← word]
  · intro _ same
    exact ne_of_isBareKeyChar letter (by decide) (List.cons.inj same).1
  · intro _ same
    exact ne_of_isBareKeyChar letter (by decide) (List.cons.inj same).1

/-- A key is read with the blanks after it. -/
theorem keyPath_bare (bare : IsBare key) {d : Char} {after : List Char}
    (mark : isBareKeyChar c = false) (stops : skipBlank (c :: rest) = d :: after)
    (dotless : d ≠ '.') :
    keyPath (key.toList ++ c :: rest) = some ([], key, d :: after) := by
  have ink : skipBlank (key.toList ++ c :: rest) = key.toList ++ c :: rest := by
    obtain ⟨first, others, whole, letter⟩ := bare.exists_head
    rw [whole, List.cons_append, skipBlank_ink (isBlank_of_isBareKeyChar letter)]
  rw [keyPath, nestingLimit, dottedKey, ink, simpleKey_bare bare mark]
  simp only [stops]
  split
  · next same => exact absurd (List.cons.inj same).1 dotless
  · rfl

end Keys

section Lines

theorem line_header (bare : IsBare name) (rest : List Char) :
    line ('[' :: (name.toList ++ ']' :: '\n' :: rest)) =
      some (.header (.table [] name), rest) := by
  have path : keyPath (name.toList ++ ']' :: '\n' :: rest) = some ([], name, ']' :: '\n' :: rest) :=
    keyPath_bare bare (by decide) rfl (by decide)
  obtain ⟨first, after, whole, letter⟩ := bare.exists_head
  rw [whole, List.cons_append] at path ⊢
  rw [line, path]
  · rfl
  · intro _ same
    exact ne_of_isBareKeyChar letter (by decide) (List.cons.inj same).1

theorem line_entry (bare : IsBare key) (spells : Spells text item) (rest : List Char) :
    line (key.toList ++ ' ' :: '=' :: ' ' :: (text ++ '\n' :: rest)) =
      some (.entry [] key item, rest) := by
  have path : keyPath (key.toList ++ ' ' :: '=' :: ' ' :: (text ++ '\n' :: rest)) =
      some ([], key, '=' :: ' ' :: (text ++ '\n' :: rest)) :=
    keyPath_bare bare (by decide) rfl (by decide)
  have ink : skipBlank (' ' :: (text ++ '\n' :: rest)) = text ++ '\n' :: rest := by
    obtain ⟨c, after, rfl, ink⟩ := spells.starts
    exact skipBlank_ink ink (after ++ '\n' :: rest)
  have found := spells.reads ('\n' :: rest) (ends_cons (by decide) (by decide) rest)
  obtain ⟨first, after, whole, letter⟩ := bare.exists_head
  have bracket : first ≠ '[' := ne_of_isBareKeyChar letter (by decide)
  rw [whole, List.cons_append] at path ⊢
  rw [line, path]
  · simp only [ink, found]
    rfl
  · intro _ same
    exact bracket (List.cons.inj same).1
  · intro _ same
    exact bracket (List.cons.inj same).1

/-- A text that gives some lines, if the fuel is more than the length of the text. -/
def Takes (text : List Char) (found : List Line) : Prop :=
  ∀ rest fuel read, (text ++ rest).length < fuel → ∃ left, rest.length < left ∧
    lines fuel read (text ++ rest) = lines left (found.reverse ++ read) rest

variable {first second : List Char} {found more : List Line} {one : Line}

theorem takes_nil : Takes [] [] := fun _ fuel _ enough => ⟨fuel, enough, rfl⟩

theorem Takes.append (left : Takes first found) (right : Takes second more) :
    Takes (first ++ second) (found ++ more) := by
  intro rest fuel read enough
  rw [List.append_assoc] at enough ⊢
  obtain ⟨fuel, enough, front⟩ := left _ fuel read enough
  obtain ⟨fuel, enough, back⟩ := right _ fuel (found.reverse ++ read) enough
  refine ⟨fuel, enough, ?_⟩
  rw [front, back, List.reverse_append, List.append_assoc]

theorem takes_break : Takes ['\n'] [] := by
  intro rest fuel read enough
  obtain ⟨fuel, rfl⟩ := Nat.exists_eq_add_one_of_ne_zero (Nat.ne_zero_of_lt enough)
  exact ⟨fuel, Nat.lt_of_succ_lt_succ enough, rfl⟩

theorem takes_line (starts : ∃ c after, text = c :: after ∧ (isBareKeyChar c = true ∨ c = '['))
    (reads : ∀ rest, line (text ++ rest) = some (one, rest)) : Takes text [one] := by
  intro rest fuel read enough
  obtain ⟨fuel, rfl⟩ := Nat.exists_eq_add_one_of_ne_zero (Nat.ne_zero_of_lt enough)
  have found := reads rest
  obtain ⟨c, after, rfl, start⟩ := starts
  have apart {d : Char} (mark : isBareKeyChar d = false) (other : '[' ≠ d) : c ≠ d := by
    rcases start with bare | rfl
    · exact ne_of_isBareKeyChar bare mark
    · exact other
  have ink : isBlank c = false := by
    simp [isBlank, apart (d := ' ') (by decide) (by decide),
      apart (d := '\t') (by decide) (by decide)]
  have full : ¬ (c = '#' ∨ c = '\n' ∨ c = '\r') := by
    simp [apart (d := '#') (by decide) (by decide), apart (d := '\n') (by decide) (by decide),
      apart (d := '\r') (by decide) (by decide)]
  refine ⟨fuel, ?_, ?_⟩
  · simp only [List.length_append, List.length_cons] at enough
    omega
  · rw [List.cons_append] at found ⊢
    rw [lines, skipBlank_ink ink]
    simp only [if_neg full, found]
    rfl

theorem Takes.lines_eq (takes : Takes text found) :
    lines (text.length + 1) [] text = some found := by
  obtain ⟨left, enough, same⟩ := takes [] (text.length + 1) [] (by simp)
  obtain ⟨left, rfl⟩ := Nat.exists_eq_add_one_of_ne_zero (Nat.ne_zero_of_lt enough)
  rw [List.append_nil, List.append_nil] at same
  rw [same, lines]
  simp [skipBlank]

end Lines

/-- An entry of a table as it is written, and the item it is read as. -/
structure Field where
  key : String
  text : List Char
  item : Item
  bare : IsBare key
  spells : Spells text item

/-- A table as it is written. -/
structure Block where
  name : String
  fields : List Field
  bare : IsBare name
  distinct : (fields.map Field.key).Nodup

namespace Block

def written (block : Block) : List Char :=
  writeTable block.name (block.fields.map fun field => (field.key, field.text))

def lines (block : Block) : List Line :=
  .header (.table [] block.name) :: block.fields.map fun field => .entry [] field.key field.item

def entries (block : Block) : Entries := block.fields.map fun field => (field.key, field.item)

theorem takes_fields (fields : List Field) :
    Takes ((fields.map fun field => (field.key, field.text)).flatMap
        fun entry => writeEntry entry.1 entry.2)
      (fields.map fun field => .entry [] field.key field.item) := by
  induction fields with
  | nil => exact takes_nil
  | cons field fields ih =>
    have one : Takes (writeEntry field.key field.text) [.entry [] field.key field.item] := by
      apply takes_line
      · obtain ⟨c, after, whole, letter⟩ := field.bare.exists_head
        exact ⟨c, _, by rw [writeEntry, whole]; rfl, .inl letter⟩
      · intro rest
        rw [← line_entry field.bare field.spells]
        simp [writeEntry]
    exact one.append ih

theorem takes (block : Block) : Takes block.written block.lines := by
  have header : Takes ('[' :: block.name.toList ++ [']', '\n'])
      [.header (.table [] block.name)] := by
    apply takes_line
    · exact ⟨'[', _, rfl, .inr rfl⟩
    · intro rest
      rw [← line_header block.bare]
      simp
  exact header.append (takes_fields block.fields)

theorem takes_all (blocks : List Block) :
    Takes (writeTables (blocks.map written)) (blocks.flatMap lines) := by
  induction blocks with
  | nil => exact takes_nil
  | cons block blocks ih =>
    cases blocks with
    | nil => simpa [writeTables] using block.takes
    | cons next blocks =>
      have whole : writeTables ((block :: next :: blocks).map written) =
          block.written ++ (['\n'] ++ writeTables ((next :: blocks).map written)) := by
        simp [writeTables, List.intercalate_cons_cons]
      rw [whole]
      exact block.takes.append (takes_break.append ih)

end Block

section Assembly

variable {document entries : Entries} {place : Place}

theorem lookup_of_fresh (fresh : key ∉ entries.map Prod.fst) : entries.lookup key = none := by
  rw [List.lookup_eq_none_iff]
  intro entry member
  rw [bne_iff_ne]
  rintro rfl
  exact fresh (List.mem_map_of_mem member)

theorem lookup_last (fresh : name ∉ document.map Prod.fst) (item : Item) :
    (document ++ [(name, item)]).lookup name = some item := by
  rw [List.lookup_append, lookup_of_fresh fresh, Option.none_or, List.lookup_cons_self]

theorem set_last (fresh : name ∉ document.map Prod.fst) (old new : Item) :
    Entries.set (document ++ [(name, old)]) name new = document ++ [(name, new)] := by
  have others : Entries.set document name new = document := by
    rw [Entries.set, List.map_congr_left, List.map_id]
    intro entry member
    apply if_neg
    rintro rfl
    exact fresh (List.mem_map_of_mem member)
  rw [Entries.set, List.map_append, ← Entries.set, others]
  simp

theorem addLine_header (fresh : name ∉ document.map Prod.fst) (place : Place) :
    addLine (document, place) (.header (.table [] name)) =
      some (document ++ [(name, .table .explicit [])], .table [] name) := by
  rw [addLine, Place.enter, Entries.within, Entries.openTable, lookup_of_fresh fresh]
  rfl

theorem addLine_entry (fresh : name ∉ document.map Prod.fst) (new : key ∉ entries.map Prod.fst)
    (item : Item) :
    addLine (document ++ [(name, .table .explicit entries)], .table [] name) (.entry [] key item) =
      some (document ++ [(name, .table .explicit (entries ++ [(key, item)]))], .table [] name) := by
  rw [addLine, Place.change, Entries.within, Entries.changeOpen, lookup_last fresh]
  simp only [Entries.insert, lookup_of_fresh new, set_last fresh]
  rfl

theorem foldlM_fields (fresh : name ∉ document.map Prod.fst) (fields : List Field)
    (entries : Entries) (distinct : (entries.map Prod.fst ++ fields.map Field.key).Nodup) :
    (fields.map fun field => Line.entry [] field.key field.item).foldlM addLine
        (document ++ [(name, .table .explicit entries)], .table [] name) =
      some (document ++ [(name, .table .explicit (entries ++
        fields.map fun field => (field.key, field.item)))], .table [] name) := by
  induction fields generalizing entries with
  | nil => simp
  | cons field fields ih =>
    have new : field.key ∉ entries.map Prod.fst := by
      intro member
      exact (List.nodup_append.mp distinct).2.2 _ member _ (by simp) rfl
    rw [List.map_cons, List.foldlM_cons, addLine_entry fresh new, Option.bind_eq_bind,
      Option.bind_some, ih _ (by simpa using distinct)]
    simp

theorem Block.foldlM_lines (block : Block) (fresh : block.name ∉ document.map Prod.fst) :
    block.lines.foldlM addLine (document, place) =
      some (document ++ [(block.name, .table .explicit block.entries)], .table [] block.name) := by
  rw [Block.lines, List.foldlM_cons, addLine_header fresh, Option.bind_eq_bind, Option.bind_some,
    foldlM_fields fresh block.fields [] block.distinct]
  rfl

/-- The document that some tables make. -/
def documentOf (blocks : List Block) : Entries :=
  blocks.map fun block => (block.name, .table .explicit block.entries)

theorem foldlM_blocks (blocks : List Block) (document : Entries) (place : Place)
    (distinct : (document.map Prod.fst ++ blocks.map Block.name).Nodup) :
    ∃ last, (blocks.flatMap Block.lines).foldlM addLine (document, place) =
      some (document ++ documentOf blocks, last) := by
  induction blocks generalizing document place with
  | nil => exact ⟨place, by simp [documentOf]⟩
  | cons block blocks ih =>
    have fresh : block.name ∉ document.map Prod.fst := by
      intro member
      exact (List.nodup_append.mp distinct).2.2 _ member _ (by simp) rfl
    obtain ⟨last, rest⟩ := ih (document ++ [(block.name, .table .explicit block.entries)])
      (.table [] block.name) (by simpa using distinct)
    refine ⟨last, ?_⟩
    rw [List.flatMap_cons, List.foldlM_append, block.foldlM_lines fresh, Option.bind_eq_bind,
      Option.bind_some, rest]
    simp [documentOf]

end Assembly

/-- Tables that are written are read as they are. -/
theorem read_writeTables (blocks : List Block) (distinct : (blocks.map Block.name).Nodup) :
    read (String.ofList (writeTables (blocks.map Block.written))) = some (documentOf blocks) := by
  have unmarked : skipByteOrderMark (writeTables (blocks.map Block.written)) =
      writeTables (blocks.map Block.written) := by
    cases blocks with
    | nil => rfl
    | cons block blocks => cases blocks <;> rfl
  obtain ⟨last, made⟩ := foldlM_blocks blocks [] .root (by simpa)
  rw [read, String.toList_ofList, unmarked, (Block.takes_all blocks).lines_eq, Option.bind_some,
    ofLines, made]
  rfl

end SignalPaths.Toml
