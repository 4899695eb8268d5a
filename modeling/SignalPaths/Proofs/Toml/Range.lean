import SignalPaths.Toml.Reader

/-!
The integers of a document that was read lie in the range of TOML. This is seen word by word, and
every step that puts items together keeps it, so that no other integers can come about.
-/

namespace SignalPaths.Toml

/-- No integer in the item is out of range. -/
inductive Item.InRange : Item → Prop
  | string (text : String) : InRange (.string text)
  | integer {n : Int} (least : -(integerBound : Int) ≤ n) (most : n < integerBound) :
      InRange (.integer n)
  | boolean (b : Bool) : InRange (.boolean b)
  | float : InRange .float
  | dateTime : InRange .dateTime
  | array {items : List Item} (each : ∀ item ∈ items, InRange item) : InRange (.array items)
  | table {entries : List (String × Item)} (form : Form)
      (each : ∀ entry ∈ entries, InRange entry.2) : InRange (.table form entries)
  | tables {elements : List (List (String × Item))}
      (each : ∀ entries ∈ elements, ∀ entry ∈ entries, InRange entry.2) :
      InRange (.tables elements)

/-- What each step of a fold keeps, the whole fold keeps. -/
theorem foldlM_keeps {σ α : Type} {step : σ → α → Option σ} (Holds : σ → Prop) {xs : List α}
    (keeps : ∀ x ∈ xs, ∀ s t, step s x = some t → Holds s → Holds t) {first last : σ}
    (run : xs.foldlM step first = some last) (holds : Holds first) : Holds last := by
  induction xs generalizing first with
  | nil =>
    cases run
    exact holds
  | cons x xs ih =>
    rw [List.foldlM_cons] at run
    obtain ⟨next, here, run⟩ := Option.bind_eq_some_iff.mp run
    exact ih (fun y member => keeps y (List.mem_cons_of_mem _ member)) run
      (keeps x List.mem_cons_self first next here holds)

namespace Entries

variable {entries : Entries} {elements changed : List Entries} {key : String} {item : Item}
  {change : Entries → Option Entries}

def InRange (entries : Entries) : Prop := ∀ entry ∈ entries, entry.2.InRange

/-- A change that takes no integer out of range. -/
def Keeps (change : Entries → Option Entries) : Prop :=
  ∀ before after, change before = some after → before.InRange → after.InRange

theorem inRange_nil : InRange [] := by
  intro entry member
  cases member

theorem InRange.concat (range : entries.InRange) (new : item.InRange) (key : String) :
    InRange (entries ++ [(key, item)]) := by
  intro entry member
  rcases List.mem_append.mp member with old | last
  · exact range entry old
  · rw [List.mem_singleton.mp last]
    exact new

theorem InRange.set (range : entries.InRange) (new : item.InRange) (key : String) :
    InRange (entries.set key item) := by
  intro entry member
  obtain ⟨old, known, rfl⟩ := List.mem_map.mp member
  split
  · exact new
  · exact range old known

theorem InRange.lookup (range : entries.InRange) (found : entries.lookup key = some item) :
    item.InRange := by
  obtain ⟨front, back, rfl, _⟩ := List.lookup_eq_some_iff.mp found
  exact range (key, item) (by simp)

theorem changeLast_inRange (keeps : Keeps change) (made : changeLast change elements = some changed)
    (range : ∀ entries ∈ elements, InRange entries) : ∀ entries ∈ changed, InRange entries := by
  fun_induction changeLast change elements generalizing changed with
  | case1 => cases made
  | case2 last =>
    obtain ⟨after, same, rfl⟩ := Option.map_eq_some_iff.mp made
    intro entries member
    rw [List.mem_singleton.mp member]
    exact keeps last after same (range last (by simp))
  | case3 first rest _ ih =>
    obtain ⟨after, same, rfl⟩ := Option.map_eq_some_iff.mp made
    have others := ih same fun entries member => range entries (List.mem_cons_of_mem _ member)
    intro entries member
    rcases List.mem_cons.mp member with rfl | member
    · exact range entries List.mem_cons_self
    · exact others entries member

section Inner

-- A change of what a key holds: a table that is new, one that is there, or the last one of some.
variable {before after : Entries} {inner : Entries} {form : Form}

theorem Keeps.fresh (keeps : Keeps change) (range : before.InRange)
    (made : (change []).map (fun inner => before ++ [(key, .table form inner)]) = some after) :
    after.InRange := by
  obtain ⟨inner, same, rfl⟩ := Option.map_eq_some_iff.mp made
  exact range.concat (.table form (keeps [] inner same inRange_nil)) key

theorem Keeps.table (keeps : Keeps change) (range : before.InRange)
    (found : before.lookup key = some (.table form inner))
    (made : (change inner).map (fun inner => before.set key (.table form inner)) = some after) :
    after.InRange := by
  obtain ⟨changed, same, rfl⟩ := Option.map_eq_some_iff.mp made
  cases range.lookup found with
  | table form each => exact range.set (.table form (keeps inner changed same each)) key

theorem Keeps.tables (keeps : Keeps change) (range : before.InRange)
    (found : before.lookup key = some (.tables elements))
    (made : (changeLast change elements).map (fun elements => before.set key (.tables elements)) =
      some after) : after.InRange := by
  obtain ⟨changed, same, rfl⟩ := Option.map_eq_some_iff.mp made
  cases range.lookup found with
  | tables each => exact range.set (.tables (changeLast_inRange keeps same each)) key

end Inner

theorem insert_keeps (new : item.InRange) (key : String) (path : List String) :
    Keeps (insert item key path) := by
  induction path with
  | nil =>
    intro before after made range
    rw [insert] at made
    split at made
    · cases made
    · cases made
      exact range.concat new key
  | cons first path ih =>
    intro before after made range
    rw [insert] at made
    split at made
    · exact ih.fresh range made
    · next found => exact ih.table range found made
    · next found =>
      split at made
      · cases made
      · exact ih.table range found made
    · next found =>
      split at made
      · cases made
      · exact ih.tables range found made
    · cases made

theorem Keeps.within (keeps : Keeps change) (path : List String) : Keeps (within change path) := by
  induction path with
  | nil => exact keeps
  | cons first path ih =>
    intro before after made range
    rw [Entries.within] at made
    split at made
    · exact ih.fresh range made
    · cases made
    · next found => exact ih.table range found made
    · next found => exact ih.tables range found made
    · cases made

theorem Keeps.changeOpen (keeps : Keeps change) (key : String) : Keeps (changeOpen change key) := by
  intro before after made range
  rw [Entries.changeOpen] at made
  split at made
  · next found => exact keeps.table range found made
  · next found => exact keeps.tables range found made
  · cases made

theorem openTable_keeps (key : String) : Keeps (openTable key) := by
  intro before after made range
  rw [openTable] at made
  split at made
  · cases made
    exact range.concat (.table _ inRange_nil) key
  · next found =>
    cases made
    cases range.lookup found with
    | table form each => exact range.set (.table _ each) key
  · cases made

theorem openElement_keeps (key : String) : Keeps (openElement key) := by
  intro before after made range
  rw [openElement] at made
  split at made
  · cases made
    refine range.concat (.tables fun entries member => ?_) key
    rw [List.mem_singleton.mp member]
    exact inRange_nil
  · next found =>
    cases made
    cases range.lookup found with
    | tables each =>
      refine range.set (.tables fun entries member => ?_) key
      rcases List.mem_append.mp member with old | last
      · exact each entries old
      · rw [List.mem_singleton.mp last]
        exact inRange_nil
  · cases made

theorem ofPairs_inRange {pairs : List (List String × String × Item)} {after : Entries}
    (range : ∀ pair ∈ pairs, pair.2.2.InRange) (made : ofPairs pairs = some after) :
    after.InRange :=
  foldlM_keeps InRange (fun pair member => insert_keeps (range pair member) pair.2.1 pair.1) made
    inRange_nil

end Entries

section Lines

def Line.InRange : Line → Prop
  | .header _ => True
  | .entry _ _ item => item.InRange

theorem Place.enter_keeps (place : Place) : Entries.Keeps fun document => place.enter document := by
  cases place with
  | root =>
    intro before after made range
    cases made
    exact range
  | table path key => exact (Entries.openTable_keeps key).within path
  | element path key => exact (Entries.openElement_keeps key).within path

theorem Place.change_keeps {f : Entries → Option Entries} (keeps : Entries.Keeps f)
    (place : Place) : Entries.Keeps fun document => place.change f document := by
  cases place with
  | root => exact keeps
  | table path key => exact (keeps.changeOpen key).within path
  | element path key => exact (keeps.changeOpen key).within path

theorem addLine_inRange {line : Line} (inside : line.InRange) {before after : Entries × Place}
    (made : addLine before line = some after) (range : before.1.InRange) : after.1.InRange := by
  cases line with
  | header place =>
    obtain ⟨document, same, rfl⟩ := Option.map_eq_some_iff.mp made
    exact place.enter_keeps _ _ same range
  | entry path key item =>
    obtain ⟨document, same, rfl⟩ := Option.map_eq_some_iff.mp made
    exact Place.change_keeps (Entries.insert_keeps inside key path) before.2 _ _ same range

theorem ofLines_inRange {found : List Line} (inside : ∀ line ∈ found, line.InRange)
    {document : Entries} (made : ofLines found = some document) : document.InRange := by
  obtain ⟨last, run, rfl⟩ := Option.map_eq_some_iff.mp made
  exact foldlM_keeps (fun state => state.1.InRange)
    (fun line member _ _ => addLine_inRange (inside line member)) run Entries.inRange_nil

end Lines

section Reading

variable {cs rest : List Char} {item : Item} {value : List Char → Option (Item × List Char)}

/-- A reader whose items hold no integer out of range. -/
def Sound (value : List Char → Option (Item × List Char)) : Prop :=
  ∀ cs item rest, value cs = some (item, rest) → item.InRange

theorem inRange_of_some {n m : Int} (made : inRange n = some m) :
    -(integerBound : Int) ≤ m ∧ m < integerBound := by
  rw [inRange] at made
  split at made
  · next inside =>
    cases made
    exact inside
  · cases made

theorem integer?_inRange {n : Int} (made : integer? cs = some n) : (Item.integer n).InRange := by
  have bounds : -(integerBound : Int) ≤ n ∧ n < integerBound := by
    unfold integer? at made
    split at made
    all_goals
      obtain ⟨_, _, made⟩ := Option.bind_eq_some_iff.mp made
      exact inRange_of_some made
  exact .integer bounds.1 bounds.2

theorem scalar?_inRange (made : scalar? cs = some item) : item.InRange := by
  unfold scalar? at made
  split at made
  · cases made
    exact .boolean true
  split at made
  · cases made
    exact .boolean false
  split at made
  · next found =>
    cases made
    exact integer?_inRange found
  split at made
  · cases made
    exact .float
  split at made
  · cases made
    exact .dateTime
  · cases made

theorem scalar_sound : Sound scalar := by
  intro cs item rest made
  obtain ⟨found, known, made⟩ := Option.bind_eq_some_iff.mp made
  have same : found = item := by
    split at made
    · dsimp only at made
      split at made
      · cases made
        rfl
      · split at made
        · cases made
          rfl
        · cases made
    · cases made
      rfl
  rw [← same]
  exact scalar?_inRange known

theorem flatValue_sound : Sound flatValue := by
  intro cs item rest made
  unfold flatValue at made
  split at made
  · obtain ⟨pair, _, same⟩ := Option.map_eq_some_iff.mp made
    cases same
    exact .string pair.1
  · obtain ⟨pair, _, same⟩ := Option.map_eq_some_iff.mp made
    cases same
    exact .string pair.1
  · exact scalar_sound _ item rest made

theorem arrayItems_sound (sound : Sound value) (fuel : Nat) (read : List Item)
    (inside : ∀ item ∈ read, item.InRange) : Sound (arrayItems value fuel read) := by
  intro cs item rest made
  have array {read : List Item} (inside : ∀ item ∈ read, item.InRange) :
      (Item.array read.reverse).InRange :=
    .array fun item member => inside item (List.mem_reverse.mp member)
  fun_induction arrayItems value fuel read cs with
  | case1 => cases made
  | case2 =>
    cases made
    exact array inside
  | case3 _ _ _ _ _ _ _ _ known _ _ ih =>
    exact ih (List.forall_mem_cons.mpr ⟨sound _ _ _ known, inside⟩) made
  | case4 _ _ _ _ _ _ _ _ known =>
    cases made
    exact array (List.forall_mem_cons.mpr ⟨sound _ _ _ known, inside⟩)
  | case5 => cases made
  | case6 => cases made
  | case7 => cases made

theorem inlinePairs_sound (sound : Sound value) (fuel : Nat)
    (read : List (List String × String × Item)) (inside : ∀ pair ∈ read, pair.2.2.InRange) :
    Sound (inlinePairs value fuel read) := by
  intro cs item rest made
  fun_induction inlinePairs value fuel read cs with
  | case1 => cases made
  | case2 _ _ _ _ _ _ _ _ _ known _ _ _ ih =>
    exact ih (List.forall_mem_cons.mpr ⟨sound _ _ _ known, inside⟩) made
  | case3 _ read _ path key _ _ found _ known =>
    have all : ∀ pair ∈ (path, key, found) :: read, pair.2.2.InRange :=
      List.forall_mem_cons.mpr ⟨sound _ _ _ known, inside⟩
    obtain ⟨entries, collected, same⟩ := Option.map_eq_some_iff.mp made
    cases same
    exact .table _ (Entries.ofPairs_inRange
      (fun pair member => all pair (List.mem_reverse.mp member)) collected)
  | case4 => cases made
  | case5 => cases made
  | case6 => cases made

theorem inlineTable_sound (sound : Sound value) : Sound (inlineTable value) := by
  intro cs item rest made
  unfold inlineTable at made
  split at made
  · cases made
    exact .table _ Entries.inRange_nil
  · exact inlinePairs_sound sound _ [] (by simp) _ item rest made

theorem value_sound (depth : Nat) : Sound (Toml.value depth) := by
  induction depth with
  | zero => exact flatValue_sound
  | succ depth ih =>
    intro cs item rest made
    rw [Toml.value.eq_def] at made
    split at made
    · next zero => cases zero
    · next same =>
      cases same
      exact arrayItems_sound ih _ [] (by simp) _ item rest made
    · next same =>
      cases same
      exact inlineTable_sound ih _ item rest made
    · exact flatValue_sound _ item rest made

theorem line_inRange {found : Line} (made : line cs = some (found, rest)) : found.InRange := by
  unfold line at made
  split at made
  · split at made
    · obtain ⟨_, _, same⟩ := Option.map_eq_some_iff.mp made
      cases same
      trivial
    · cases made
  · split at made
    · obtain ⟨_, _, same⟩ := Option.map_eq_some_iff.mp made
      cases same
      trivial
    · cases made
  · split at made
    · split at made
      · next known =>
        obtain ⟨_, _, same⟩ := Option.map_eq_some_iff.mp made
        cases same
        exact value_sound _ _ _ _ known
      · cases made
    · cases made

theorem lines_inRange {fuel : Nat} {read found : List Line} (inside : ∀ line ∈ read, line.InRange)
    (made : lines fuel read cs = some found) : ∀ line ∈ found, line.InRange := by
  induction fuel generalizing read cs with
  | zero => cases made
  | succ fuel ih =>
    rw [lines] at made
    split at made
    · cases made
      exact fun line member => inside line (List.mem_reverse.mp member)
    · split at made
      · obtain ⟨rest, _, made⟩ := Option.bind_eq_some_iff.mp made
        exact ih inside made
      · split at made
        · next known => exact ih (List.forall_mem_cons.mpr ⟨line_inRange known, inside⟩) made
        · cases made

theorem read_inRange {text : String} {document : Entries} (made : read text = some document) :
    document.InRange := by
  obtain ⟨found, whole, made⟩ := Option.bind_eq_some_iff.mp made
  refine ofLines_inRange (lines_inRange ?_ whole) made
  intro line member
  cases member

end Reading

end SignalPaths.Toml
