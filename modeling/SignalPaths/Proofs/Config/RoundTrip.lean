import SignalPaths.Config.Toml
import SignalPaths.Proofs.Computation
import SignalPaths.Proofs.Toml.Document
import SignalPaths.Proofs.Toml.Range

/-!
Configurations that are written and read again. Four tables are written, with an entry for each
value that is set, and these are read as the same values. A configuration is read from some text if
and only if it is valid and TOML has its number, and then it can be written too.
-/

namespace SignalPaths.Config

/-- TOML has the number of the configuration. -/
def Writable (c : Config) : Prop := ∀ n ∈ c.minDegree, n.toNat < Toml.integerBound

section Document

/-- The entry of a value, if it is set. -/
def itemEntry {α : Type} (key : String) (toItem : α → Toml.Item) (value : Option α) :
    Toml.Entries :=
  value.toList.map fun value => (key, toItem value)

/-- The tables of a configuration. -/
def document (c : Config) : Toml.Entries :=
  [("load", .table .explicit (itemEntry "format" .string c.format ++
      itemEntry "check_registers" .boolean c.checkRegisters)),
    ("search", .table .explicit (itemEntry "all_paths" .boolean c.allPaths)),
    ("naming", .table .explicit (itemEntry "top_prefix" .string c.topPrefix ++
      [("ignore_markers", .array (c.ignoreMarkers.map .string))])),
    ("fan_out", .table .explicit
      (itemEntry "min_degree" (fun n : UInt64 => .integer n.toNat) c.minDegree))]

theorem part?_load (c : Config) :
    part? c.document "load" loadKeys =
      some [c.format.map .string, c.checkRegisters.map .boolean] := by
  rcases c with ⟨_ | _, _ | _, _, _, _, _⟩ <;> rfl

theorem part?_search (c : Config) :
    part? c.document "search" searchKeys = some [c.allPaths.map .boolean] := by
  rcases c with ⟨_, _, _ | _, _, _, _⟩ <;> rfl

theorem part?_naming (c : Config) :
    part? c.document "naming" namingKeys =
      some [c.topPrefix.map .string, some (.array (c.ignoreMarkers.map .string))] := by
  rcases c with ⟨_, _, _, _ | _, _, _⟩ <;> rfl

theorem part?_fanOut (c : Config) :
    part? c.document "fan_out" fanOutKeys =
      some [c.minDegree.map fun n : UInt64 => .integer n.toNat] := by
  rcases c with ⟨_, _, _, _, _, _ | _⟩ <;> rfl

theorem optional?_map {α : Type} {read : Toml.Item → Option α} {toItem : α → Toml.Item}
    (reads : ∀ value, read (toItem value) = some value) (value : Option α) :
    optional? read (value.map toItem) = some value := by
  cases value with
  | none => rfl
  | some value => rw [Option.map_some, optional?, reads, Option.map_some]

theorem strings?_array (texts : List String) :
    Toml.Item.strings? (.array (texts.map .string)) = some texts := by
  rw [Toml.Item.strings?]
  induction texts with
  | nil => rfl
  | cons text texts ih =>
    rw [List.map_cons, List.mapM_cons, ih]
    rfl

theorem count?_integer (n : UInt64) : Toml.Item.count? (.integer n.toNat) = some n := by
  change some (UInt64.ofNat n.toNat) = some n
  rw [UInt64.ofNat_toNat]

theorem ofToml?_document (c : Config) : ofToml? c.document = some c := by
  have text := @optional?_map String Toml.Item.string? .string fun _ => rfl
  have truth := @optional?_map Bool Toml.Item.boolean? .boolean fun _ => rfl
  have count := optional?_map count?_integer
  have markers : optional? Toml.Item.strings? (some (.array (c.ignoreMarkers.map .string))) =
      some (some c.ignoreMarkers) := by
    rw [optional?, strings?_array, Option.map_some]
  rw [ofToml?, part?_load, part?_search, part?_naming, part?_fanOut]
  simp only [Option.bind_eq_bind, Option.bind_some, text, truth, count, markers, Option.getD_some]
  rfl

end Document

section Written

/-- The field of a value, if it is set. -/
def field {α : Type} (key : String) (bare : Toml.IsBare key) (write : α → List Char)
    (toItem : α → Toml.Item) (value : Option α)
    (spells : ∀ v ∈ value, Toml.Spells (write v) (toItem v)) : List Toml.Field :=
  value.attach.toList.map fun v => ⟨key, write v.1, toItem v.1, bare, spells v.1 v.2⟩

section Field

variable {α : Type} {key : String} {bare : Toml.IsBare key} {write : α → List Char}
  {toItem : α → Toml.Item} {value : Option α}
  {spells : ∀ v ∈ value, Toml.Spells (write v) (toItem v)}

theorem field_texts : (field key bare write toItem value spells).map
    (fun field => (field.key, field.text)) = entry key write value := by
  cases value <;> rfl

theorem field_items : (field key bare write toItem value spells).map
    (fun field => (field.key, field.item)) = itemEntry key toItem value := by
  cases value <;> rfl

theorem field_keys : ((field key bare write toItem value spells).map Toml.Field.key).Sublist
    [key] := by
  cases value with
  | none => exact List.nil_sublist [key]
  | some value => exact List.Sublist.refl [key]

end Field

/-- The tables of a configuration as they are written. -/
def blocks (c : Config) (writable : c.Writable) : List Toml.Block :=
  [{ name := "load"
     fields :=
       field "format" (by decide) Toml.writeString .string c.format
         (fun text _ => (Toml.spellsFlat_string text).spells) ++
       field "check_registers" (by decide) Toml.writeBool .boolean c.checkRegisters
         (fun b _ => (Toml.spellsFlat_bool b).spells)
     bare := by decide
     distinct := by
       rw [List.map_append]
       exact (field_keys.append field_keys).nodup (by decide) },
   { name := "search"
     fields := field "all_paths" (by decide) Toml.writeBool .boolean c.allPaths
       (fun b _ => (Toml.spellsFlat_bool b).spells)
     bare := by decide
     distinct := field_keys.nodup (by decide) },
   { name := "naming"
     fields :=
       field "top_prefix" (by decide) Toml.writeString .string c.topPrefix
         (fun text _ => (Toml.spellsFlat_string text).spells) ++
       [{ key := "ignore_markers"
          text := Toml.writeStrings c.ignoreMarkers
          item := .array (c.ignoreMarkers.map .string)
          bare := by decide
          spells := Toml.spells_strings c.ignoreMarkers }]
     bare := by decide
     distinct := by
       rw [List.map_append]
       exact (field_keys.append (List.Sublist.refl ["ignore_markers"])).nodup (by decide) },
   { name := "fan_out"
     fields := field "min_degree" (by decide) (fun n : UInt64 => Text.decimal n.toNat)
       (fun n => .integer n.toNat) c.minDegree
       (fun n set => (Toml.spellsFlat_decimal (writable n set)).spells)
     bare := by decide
     distinct := field_keys.nodup (by decide) }]

theorem documentOf_blocks (c : Config) (writable : c.Writable) :
    Toml.documentOf (c.blocks writable) = c.document := by
  simp only [Toml.documentOf, blocks, Toml.Block.entries, List.map_cons, List.map_nil,
    List.map_append, field_items, document]

theorem toToml_eq (c : Config) (writable : c.Writable) :
    c.toToml =
      .ok (String.ofList (Toml.writeTables ((c.blocks writable).map Toml.Block.written))) := by
  have fits : ¬ (c.minDegree.any fun n => Toml.integerBound ≤ n.toNat) = true := by
    intro large
    rw [Option.any_eq_true] at large
    obtain ⟨n, set, large⟩ := large
    exact absurd (writable n set) (Nat.not_lt.mpr (of_decide_eq_true large))
  rw [toToml, if_neg fits]
  simp only [blocks, Toml.Block.written, List.map_cons, List.map_nil, List.map_append, field_texts]

theorem read_toToml (c : Config) (writable : c.Writable) :
    ∃ written, c.toToml = .ok written ∧ Toml.read written = some c.document := by
  refine ⟨_, c.toToml_eq writable, ?_⟩
  have distinct : ((c.blocks writable).map Toml.Block.name).Nodup := by
    change ["load", "search", "naming", "fan_out"].Nodup
    decide
  rw [Toml.read_writeTables _ distinct, documentOf_blocks]

end Written

section Range

variable {document : Toml.Entries} {item found : Toml.Item} {values : List (Option Toml.Item)}
  {keys : List String} {c : Config}

theorem values_inRange (range : item.InRange) (made : item.values keys = some values)
    (member : some found ∈ values) : found.InRange := by
  cases range with
  | string => cases made
  | integer => cases made
  | boolean => cases made
  | float => cases made
  | dateTime =>
    cases made
    simp at member
  | array each =>
    cases made
    obtain ⟨i, _, same⟩ := List.mem_map.mp member
    exact each found (List.mem_of_getElem? same)
  | table form each =>
    cases made
    obtain ⟨key, _, same⟩ := List.mem_map.mp member
    exact Toml.Entries.InRange.lookup each same
  | tables each =>
    cases made
    obtain ⟨i, _, same⟩ := List.mem_map.mp member
    obtain ⟨entries, element, rfl⟩ := Option.map_eq_some_iff.mp same
    exact .table .explicit (each entries (List.mem_of_getElem? element))

theorem part?_inRange (range : document.InRange) {name : String}
    (made : part? document name keys = some values) (member : some found ∈ values) :
    found.InRange := by
  rw [part?] at made
  split at made
  · next known => exact values_inRange (range.lookup known) made member
  · cases made
    simp at member

theorem count?_lt (range : item.InRange) {n : UInt64} (made : item.count? = some n) :
    n.toNat < Toml.integerBound := by
  cases range with
  | @integer k _ most =>
    cases k with
    | ofNat k =>
      have same : UInt64.ofNat k = n := Option.some.inj made
      have small : k % 2 ^ 64 ≤ k := Nat.mod_le k _
      have bound : k < Toml.integerBound := Int.ofNat_lt.mp most
      rw [← same, UInt64.toNat_ofNat']
      exact Nat.lt_of_le_of_lt small bound
    | negSucc => cases made
  | string => cases made
  | boolean => cases made
  | float => cases made
  | dateTime => cases made
  | array => cases made
  | table => cases made
  | tables => cases made

theorem optional?_eq_some {α : Type} {read : Toml.Item → Option α} {given : Option Toml.Item}
    {value : α} (made : optional? read given = some (some value)) :
    ∃ item, given = some item ∧ read item = some value := by
  cases given with
  | none => cases made
  | some item =>
    obtain ⟨other, known, same⟩ := Option.map_eq_some_iff.mp made
    exact ⟨item, rfl, Option.some.inj same ▸ known⟩

/-- The number of a configuration that was read is one that TOML has. -/
theorem writable_of_ofToml? (range : document.InRange) (made : ofToml? document = some c) :
    c.Writable := by
  simp only [ofToml?, Option.bind_eq_bind, Option.bind_eq_some_iff] at made
  obtain ⟨load, _, search, _, naming, _, fanOut, known, made⟩ := made
  split at made
  · simp only [Option.bind_eq_some_iff] at made
    obtain ⟨_, _, _, _, _, _, _, _, _, _, count, read, same⟩ := made
    cases same
    rintro n rfl
    obtain ⟨item, rfl, counted⟩ := optional?_eq_some read
    exact count?_lt (part?_inRange range known List.mem_cons_self) counted
  · cases made

end Range

/-- A configuration is read from a text if the text holds it and its values pass the checks. -/
theorem readToml_eq_ok_iff {text : String} {c : Config} :
    readToml text = .ok c ↔
      ∃ document, Toml.read text = some document ∧ ofToml? document = some c ∧
        c.validate = .ok () := by
  rw [readToml, parse?]
  constructor
  · intro read
    split at read
    · cases read
    · next known =>
      obtain ⟨document, whole, made⟩ := Option.bind_eq_some_iff.mp known
      obtain ⟨_, valid, same⟩ := except_bind_ok read
      cases same
      exact ⟨document, whole, made, valid⟩
  · rintro ⟨document, whole, made, valid⟩
    rw [whole, Option.bind_some, made]
    simp only [valid]
    rfl

/-- A valid configuration that can be written is read from what is written. -/
theorem readToml_of_writable {c : Config} (valid : c.validate = .ok ()) (writable : c.Writable) :
    ∃ written, c.toToml = .ok written ∧ Toml.read written = some c.document ∧
      readToml written = .ok c := by
  obtain ⟨written, made, known⟩ := c.read_toToml writable
  exact ⟨written, made, known, readToml_eq_ok_iff.mpr ⟨_, known, c.ofToml?_document, valid⟩⟩

theorem valid_of_readToml {text : String} {c : Config} (read : readToml text = .ok c) :
    c.validate = .ok () ∧ c.Writable := by
  obtain ⟨document, known, made, valid⟩ := readToml_eq_ok_iff.mp read
  exact ⟨valid, writable_of_ofToml? (Toml.read_inRange known) made⟩

/-- The configurations that texts hold are the valid ones whose number TOML has. Each of them is
written with an entry for every value that is set, and read again as it was. -/
theorem readToml_toToml (c : Config) :
    ((∃ text, readToml text = .ok c) ↔ c.validate = .ok () ∧ c.Writable) ∧
    ∀ text, readToml text = .ok c →
      ∃ written, c.toToml = .ok written ∧ Toml.read written = some c.document ∧
        readToml written = .ok c := by
  refine ⟨⟨?_, ?_⟩, ?_⟩
  · rintro ⟨text, read⟩
    exact valid_of_readToml read
  · rintro ⟨valid, writable⟩
    obtain ⟨written, _, _, read⟩ := readToml_of_writable valid writable
    exact ⟨written, read⟩
  · intro text read
    obtain ⟨valid, writable⟩ := valid_of_readToml read
    exact readToml_of_writable valid writable

/-- Tables out of order, a dotted key, and strings with quotes, a control and a line break. -/
def unevenText : String :=
  "fan_out.min_degree = 0x7fffffffffffffff\n[naming]\nignore_markers = ['a\"b', " ++
  "\"\"\"c\n'''\"\"\",]\ntop_prefix = \"\\u0001\\\\\"\n[load]\nformat = 'json'"

def unevenConfig : Config where
  format := some "json"
  topPrefix := some "\x01\\"
  ignoreMarkers := ["a\"b", "c\n'''"]
  minDegree := some 0x7fffffffffffffff

theorem readToml_toToml_uneven :
    readToml unevenText = .ok unevenConfig ∧
    ∃ written, unevenConfig.toToml = .ok written ∧ Toml.read written = some unevenConfig.document ∧
      readToml written = .ok unevenConfig := by
  have parsed : parse? unevenText = some unevenConfig := by decide +kernel
  have read : readToml unevenText = .ok unevenConfig := by
    rw [readToml, parsed]
    rfl
  exact ⟨read, (readToml_toToml unevenConfig).2 unevenText read⟩

end SignalPaths.Config
