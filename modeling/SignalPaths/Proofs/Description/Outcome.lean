import SignalPaths.Proofs.Description.Rebuild

/-!
The outcome of building a description, told from its records. A description is built exactly if its
ids are distinct, its words are known and its edges run between its ids; otherwise the first record
at fault is reported or, where there is none, the first edge. Numbers are the places of the records,
and the naming convention decides on the tops alone.
-/

namespace SignalPaths

namespace VertexRecord

/-- The words of a record are known. -/
structure Legible (record : VertexRecord) : Prop where
  kind : ∃ kind : Kind, kind.text = record.kind
  direction : ∀ word, record.direction = some word → ∃ direction : Direction, direction.text = word

/-- The word of a record that is not known. Of two, the kind. -/
inductive Misspelt (record : VertexRecord) : LoadError → Prop where
  | kind (unknown : ∀ kind : Kind, kind.text ≠ record.kind) :
      Misspelt record (.unknownKind record.kind)
  | direction {word : String} (known : ∃ kind : Kind, kind.text = record.kind)
      (given : record.direction = some word)
      (unknown : ∀ direction : Direction, direction.text ≠ word) :
      Misspelt record (.unknownDirection word)

/-- What a record says of its vertex. Where it has no direction, the vertex has none. -/
structure Conveys (naming : Convention) (record : VertexRecord) (info : VertexInfo) : Prop where
  kind : info.kind.text = record.kind
  undirected : record.direction = none → info.direction = .none
  directed : ∀ word, record.direction = some word → info.direction.text = word
  name : info.name = record.name
  location : info.location = record.location
  isTop : info.isTop = naming.isTop record.name

theorem legible_or_misspelt (record : VertexRecord) :
    record.Legible ∨ ∃ error, record.Misspelt error := by
  by_cases known : ∃ kind : Kind, kind.text = record.kind
  · by_cases spelled : ∀ word, record.direction = some word →
        ∃ direction : Direction, direction.text = word
    · exact .inl ⟨known, spelled⟩
    · push Not at spelled
      obtain ⟨word, given, unknown⟩ := spelled
      exact .inr ⟨_, .direction known given unknown⟩
  · push Not at known
    exact .inr ⟨_, .kind known⟩

theorem Legible.conveys {record : VertexRecord} (legible : record.Legible) (naming : Convention) :
    ∃ info, record.Conveys naming info := by
  obtain ⟨⟨kind, spelled⟩, direction⟩ := legible
  cases given : record.direction with
  | none =>
    refine ⟨⟨kind, .none, _, _, _⟩, spelled, fun _ => rfl, ?_, rfl, rfl, rfl⟩
    simp [given]
  | some word =>
    obtain ⟨direction, also⟩ := direction word given
    refine ⟨⟨kind, direction, _, _, _⟩, spelled, ?_, ?_, rfl, rfl, rfl⟩
    · simp [given]
    · simpa [given] using also

end VertexRecord

namespace Description

open SignalPaths.Graph VertexRecord

variable {naming other : Convention} {d : Description} {g h : Graph} {numbers : Numbering}
  {listed : List UInt64} {id : UInt64} {record : VertexRecord} {records : List VertexRecord}
  {info : VertexInfo} {infos : List VertexInfo} {edge : EdgeRecord} {edges : List EdgeRecord}
  {links : List (VertexId × VertexId)} {error : LoadError}

theorem vertexInfo_conveys (conveys : record.Conveys naming info) :
    vertexInfo naming record = .ok info := by
  obtain ⟨kind, direction, name, location, isTop⟩ := info
  obtain ⟨spelled, undirected, directed, rfl, rfl, rfl⟩ := conveys
  rw [vertexInfo, ← spelled, Kind.read_text]
  cases given : record.direction with
  | none =>
    obtain rfl := undirected given
    rfl
  | some word =>
    obtain rfl := directed word given
    simp only [Direction.read_text]
    rfl

theorem vertexInfo_misspelt (misspelt : record.Misspelt error) :
    vertexInfo naming record = .error error := by
  cases misspelt with
  | kind unknown =>
    have unread : Kind.read record.kind = .error (.unknownKind record.kind) :=
      readWord_unknown unknown .unknownKind
    rw [vertexInfo, unread]
    rfl
  | @direction word known given unknown =>
    obtain ⟨kind, spelled⟩ := known
    have unread : Direction.read word = .error (.unknownDirection word) :=
      readWord_unknown unknown .unknownDirection
    rw [vertexInfo, ← spelled, Kind.read_text, given]
    simp only [unread]
    rfl

theorem vertexInfo_outcome (naming : Convention) (record : VertexRecord) :
    (∀ info, vertexInfo naming record = .ok info ↔ record.Conveys naming info) ∧
      ∀ error, vertexInfo naming record = .error error ↔ record.Misspelt error := by
  apply outcome_iff (fun _ => vertexInfo_conveys) (fun _ => vertexInfo_misspelt)
  obtain legible | misspelt := record.legible_or_misspelt
  · exact .inl (legible.conveys naming)
  · exact .inr misspelt

/-- Records that can stand together. -/
structure Sound (records : List VertexRecord) : Prop where
  distinct : (records.map VertexRecord.id).Nodup
  legible : ∀ record ∈ records, record.Legible

def Linked (listed : List UInt64) (edge : EdgeRecord) : Prop :=
  edge.source ∈ listed ∧ edge.target ∈ listed

structure WellFormed (d : Description) : Prop where
  sound : Sound d.vertices
  linked : ∀ edge ∈ d.edges, Linked d.ids edge

/-- What is wrong with a record, given the ids before it. -/
inductive RecordFault (earlier : List UInt64) (record : VertexRecord) : LoadError → Prop where
  | duplicate (known : record.id ∈ earlier) :
      RecordFault earlier record (.duplicateVertex record.id)
  | misspelt {error : LoadError} (fresh : record.id ∉ earlier) (fault : record.Misspelt error) :
      RecordFault earlier record error

/-- What is wrong with an edge, its source before its target. -/
inductive EdgeFault (listed : List UInt64) (edge : EdgeRecord) : LoadError → Prop where
  | source (absent : edge.source ∉ listed) :
      EdgeFault listed edge (.unknownVertex edge.source.toNat.repr)
  | target (known : edge.source ∈ listed) (absent : edge.target ∉ listed) :
      EdgeFault listed edge (.unknownVertex edge.target.toNat.repr)

/-- The fault of the first record that has one or, where no record has one, of the first edge. -/
inductive FirstFault (d : Description) (error : LoadError) : Prop where
  | record (before : List VertexRecord) (record : VertexRecord) (after : List VertexRecord)
      (split : d.vertices = before ++ record :: after) (sound : Sound before)
      (fault : RecordFault (before.map VertexRecord.id) record error)
  | edge (before : List EdgeRecord) (edge : EdgeRecord) (after : List EdgeRecord)
      (sound : Sound d.vertices) (split : d.edges = before ++ edge :: after)
      (linked : ∀ earlier ∈ before, Linked d.ids earlier) (fault : EdgeFault d.ids edge error)

section Records

theorem addRecord_error_iff (places : Places listed numbers) :
    addRecord naming (g, numbers) record = .error error ↔ RecordFault listed record error := by
  by_cases known : record.id ∈ listed
  · rw [addRecord_known places known]
    constructor
    · intro same
      exact Except.error.inj same ▸ .duplicate known
    · intro fault
      cases fault with
      | duplicate => rfl
      | misspelt fresh => exact absurd known fresh
  · have answer : addRecord naming (g, numbers) record = .error error ↔
        vertexInfo naming record = .error error := by
      rw [addRecord_fresh places known]
      cases vertexInfo naming record <;> simp [Except.map]
    rw [answer, (vertexInfo_outcome naming record).2]
    constructor
    · exact .misspelt known
    · intro fault
      cases fault with
      | duplicate old => exact absurd old known
      | misspelt _ fault => exact fault

theorem sound_of_read (distinct : (records.map VertexRecord.id).Nodup)
    (read : List.Forall₂ (fun record info => vertexInfo naming record = .ok info) records infos) :
    Sound records where
  distinct := distinct
  legible record member := by
    obtain ⟨info, _, read⟩ := forall₂_mem_left read member
    have conveys := ((vertexInfo_outcome naming record).1 info).mp read
    refine ⟨⟨info.kind, conveys.kind⟩, ?_⟩
    intro word given
    exact ⟨info.direction, conveys.directed word given⟩

theorem Placed.sound (placed : Placed naming records infos g numbers) : Sound records :=
  sound_of_read placed.distinct placed.read

theorem Sound.read (sound : Sound records) (naming : Convention) :
    ∃ infos, List.Forall₂ (fun record info => vertexInfo naming record = .ok info)
      records infos := by
  apply exists_forall₂
  intro record member
  obtain ⟨info, conveys⟩ := (sound.legible record member).conveys naming
  exact ⟨info, vertexInfo_conveys conveys⟩

theorem Sound.placed (sound : Sound records) (naming : Convention) :
    ∃ infos next, records.foldlM (addRecord naming) (Graph.empty, ∅) = .ok next ∧
      Placed naming records infos next.1 next.2 := by
  obtain ⟨infos, read⟩ := sound.read naming
  obtain ⟨next, ok, placed⟩ := (placed_nil naming).foldlM_ok sound.distinct read
  exact ⟨infos, next, ok, placed⟩

theorem foldlM_addRecord_error_iff :
    records.foldlM (addRecord naming) (Graph.empty, ∅) = .error error ↔
      ∃ before record after, records = before ++ record :: after ∧ Sound before ∧
        RecordFault (before.map VertexRecord.id) record error := by
  rw [foldlM_error_iff]
  constructor
  · intro found
    obtain ⟨before, record, after, split, middle, fine, failed⟩ := found
    obtain ⟨infos, placed⟩ := (placed_nil naming).of_foldlM_ok fine
    exact ⟨before, record, after, split, placed.sound,
      (addRecord_error_iff placed.places).mp failed⟩
  · intro found
    obtain ⟨before, record, after, split, sound, fault⟩ := found
    obtain ⟨infos, middle, fine, placed⟩ := sound.placed naming
    exact ⟨before, record, after, split, middle, fine,
      (addRecord_error_iff placed.places).mpr fault⟩

end Records

section Edges

theorem exists_links_iff : (∃ link, Links listed edge link) ↔ Linked listed edge := by
  rw [Linked, List.mem_iff_getElem?, List.mem_iff_getElem?]
  constructor
  · intro found
    obtain ⟨link, left, right⟩ := found
    exact ⟨⟨link.1, left⟩, ⟨link.2, right⟩⟩
  · intro found
    obtain ⟨⟨source, left⟩, ⟨target, right⟩⟩ := found
    exact ⟨(source, target), left, right⟩

theorem Places.numberOf_absent (places : Places listed numbers) (absent : id ∉ listed) :
    numberOf numbers id = .error (.unknownVertex id.toNat.repr) := by
  rw [numberOf]
  cases found : numbers[id]? with
  | none => rfl
  | some n => exact absurd (List.mem_of_getElem? ((places id n).mp found)) absent

theorem addEdgeRecord_error_iff (places : Places listed numbers)
    (count : g.vertexCount = listed.length) :
    addEdgeRecord numbers g edge = .error error ↔ EdgeFault listed edge error := by
  by_cases left : edge.source ∈ listed
  · by_cases right : edge.target ∈ listed
    · obtain ⟨link, linked⟩ := exists_links_iff.mpr ⟨left, right⟩
      rw [(addEdgeRecord_ok_iff places count).mpr ⟨link, linked, rfl⟩]
      constructor
      · intro failed
        cases failed
      · intro fault
        cases fault with
        | source absent => exact absurd left absent
        | target _ absent => exact absurd right absent
    · obtain ⟨n, found⟩ := List.mem_iff_getElem?.mp left
      rw [addEdgeRecord, places.numberOf_ok_iff.mpr found, places.numberOf_absent right]
      constructor
      · intro failed
        exact Except.error.inj failed ▸ .target left right
      · intro fault
        cases fault with
        | source absent => exact absurd left absent
        | target => rfl
  · rw [addEdgeRecord, places.numberOf_absent left]
    constructor
    · intro failed
      exact Except.error.inj failed ▸ .source left
    · intro fault
      cases fault with
      | source => rfl
      | target known => exact absurd known left

theorem vertexCount_performAll_edges (g : Graph) (links : List (VertexId × VertexId)) :
    (g.performAll (links.map fun link => .edge link.1 link.2)).vertexCount = g.vertexCount := by
  induction links generalizing g with
  | nil => rfl
  | cons link links ih => exact (ih _).trans (vertexCount_perform_edge g link.1 link.2)

theorem foldlM_addEdgeRecord_error_iff (places : Places listed numbers)
    (count : g.vertexCount = listed.length) :
    edges.foldlM (addEdgeRecord numbers) g = .error error ↔
      ∃ before edge after, edges = before ++ edge :: after ∧
        (∀ earlier ∈ before, Linked listed earlier) ∧ EdgeFault listed edge error := by
  rw [foldlM_error_iff]
  have counted (links : List (VertexId × VertexId)) :=
    (vertexCount_performAll_edges g links).trans count
  constructor
  · intro found
    obtain ⟨before, edge, after, split, middle, fine, failed⟩ := found
    obtain ⟨links, linked, rfl⟩ := (foldlM_addEdgeRecord_ok_iff places count).mp fine
    refine ⟨before, edge, after, split, ?_,
      (addEdgeRecord_error_iff places (counted links)).mp failed⟩
    intro earlier member
    obtain ⟨link, _, links⟩ := forall₂_mem_left linked member
    exact exists_links_iff.mp ⟨link, links⟩
  · intro found
    obtain ⟨before, edge, after, split, linked, fault⟩ := found
    obtain ⟨links, each⟩ := exists_forall₂ fun earlier member =>
      exists_links_iff.mpr (linked earlier member)
    exact ⟨before, edge, after, split, _,
      (foldlM_addEdgeRecord_ok_iff places count).mpr ⟨links, each, rfl⟩,
      (addEdgeRecord_error_iff places (counted links)).mpr fault⟩

end Edges

theorem build_error_iff : d.build naming = .error error ↔ d.FirstFault error := by
  constructor
  · intro failed
    obtain early | ⟨state, vertices, late⟩ := except_bind_error failed
    · obtain ⟨before, record, after, split, sound, fault⟩ := foldlM_addRecord_error_iff.mp early
      exact .record before record after split sound fault
    · obtain ⟨infos, placed⟩ := (placed_nil naming).of_foldlM_ok vertices
      obtain ⟨before, edge, after, split, linked, fault⟩ :=
        (foldlM_addEdgeRecord_error_iff placed.places placed.vertexCount).mp late
      exact .edge before edge after placed.sound split linked fault
  · intro fault
    cases fault with
    | record before record after split sound fault =>
      rw [build, foldlM_addRecord_error_iff.mpr ⟨before, record, after, split, sound, fault⟩]
      rfl
    | edge before edge after sound split linked fault =>
      obtain ⟨infos, state, vertices, placed⟩ := sound.placed naming
      rw [build, vertices]
      exact (foldlM_addEdgeRecord_error_iff placed.places placed.vertexCount).mpr
        ⟨before, edge, after, split, linked, fault⟩

/-- Where edges run between the ids of a description, only its records can be at fault. -/
theorem build_error_of_linked (linked : ∀ edge ∈ d.edges, Linked d.ids edge)
    (failed : d.build naming = .error error) :
    (∃ id, error = .duplicateVertex id) ∨ (∃ word, error = .unknownKind word) ∨
      ∃ word, error = .unknownDirection word := by
  cases build_error_iff.mp failed with
  | record before record after split sound fault =>
    cases fault with
    | duplicate known => exact .inl ⟨_, rfl⟩
    | misspelt fresh misspelt =>
      cases misspelt with
      | kind unknown => exact .inr (.inl ⟨_, rfl⟩)
      | direction known given unknown => exact .inr (.inr ⟨_, rfl⟩)
  | edge before edge after sound split earlier fault =>
    have ends := linked edge (by rw [split]; exact List.mem_append_right _ List.mem_cons_self)
    cases fault with
    | source absent => exact absurd ends.1 absent
    | target known absent => exact absurd ends.2 absent

/-- The netlist of a description: a vertex for each record, and each edge once, between the places
of its ids. -/
structure Realises (d : Description) (naming : Convention) (g : Graph) : Prop where
  netlist : g.IsNetlist
  vertices : List.Forall₂ (fun record v => Conveys naming record v.toVertexInfo) d.vertices
    g.vertices.toList
  edges : g.edges.toList = (d.edges.map d.place).eraseDups

theorem Realises.unique (realises : d.Realises naming g) (also : d.Realises naming h) : g = h := by
  have read {g : Graph} (realises : d.Realises naming g) : d.vertices.mapM (vertexInfo naming) =
      .ok (g.vertices.toList.map Vertex.toVertexInfo) := by
    apply mapM_ok_iff.mpr
    apply List.forall₂_map_right_iff.mpr
    exact realises.vertices.imp fun _ _ => vertexInfo_conveys
  have infos : g.vertices.toList.map Vertex.toVertexInfo =
      h.vertices.toList.map Vertex.toVertexInfo :=
    Except.ok.inj ((read realises).symm.trans (read also))
  have vertices : g.vertices = h.vertices :=
    vertices_eq_of_infos realises.netlist.indexed.numbered also.netlist.indexed.numbered infos
  have edges : g.edges = h.edges := by
    rw [← Array.toList_inj, realises.edges, also.edges]
  rw [realises.netlist.eq_ofParts, also.netlist.eq_ofParts, vertices, edges]

theorem Builds.links_eq (builds : d.Builds naming infos links) : links = d.edges.map d.place := by
  have each : List.Forall₂ (fun link edge => link = d.place edge) links d.edges :=
    builds.linked.flip.imp fun _ _ linked => Links.eq_place linked builds.distinct
  exact List.forall₂_eq_eq_eq ▸ List.forall₂_map_right_iff.mpr each

theorem Builds.wellFormed (builds : d.Builds naming infos links) : d.WellFormed where
  sound := sound_of_read builds.distinct builds.read
  linked edge member := by
    obtain ⟨link, _, linked⟩ := forall₂_mem_left builds.linked member
    exact exists_links_iff.mp ⟨link, linked⟩

theorem Builds.realises (builds : d.Builds naming infos links) :
    d.Realises naming (assemble infos links) where
  netlist := isNetlist_assemble infos links
  vertices := by
    apply List.forall₂_map_right_iff.mp
    rw [builds.vertices]
    exact builds.read.imp fun record info => ((vertexInfo_outcome naming record).1 info).mp
  edges := by rw [builds.edges_eq, builds.links_eq]

theorem WellFormed.builds (wellFormed : d.WellFormed) (naming : Convention) :
    ∃ infos links, d.Builds naming infos links := by
  obtain ⟨infos, read⟩ := wellFormed.sound.read naming
  obtain ⟨links, linked⟩ := exists_forall₂ fun edge member =>
    exists_links_iff.mpr (wellFormed.linked edge member)
  exact ⟨infos, links, wellFormed.sound.distinct, read, linked⟩

theorem build_ok_iff_realises :
    d.build naming = .ok g ↔ d.WellFormed ∧ d.Realises naming g := by
  constructor
  · intro ok
    obtain ⟨infos, links, builds, rfl⟩ := build_ok_iff.mp ok
    exact ⟨builds.wellFormed, builds.realises⟩
  · intro both
    obtain ⟨infos, links, builds⟩ := both.1.builds naming
    exact build_ok_iff.mpr ⟨infos, links, builds, both.2.unique builds.realises⟩

theorem Realises.underNaming (realises : d.Realises naming g) (other : Convention) :
    d.Realises other (g.underNaming other) where
  netlist := by
    rw [← assemble_underNaming realises.netlist other]
    exact isNetlist_assemble _ _
  vertices := by
    rw [Graph.underNaming, Array.toList_map]
    apply List.forall₂_map_right_iff.mpr
    apply realises.vertices.imp
    intro record v conveys
    have top : other.isTop v.name = other.isTop record.name := congrArg other.isTop conveys.name
    exact { conveys with isTop := top }
  edges := realises.edges

/-- Another naming convention fails alike, or decides anew on the tops and on nothing else. -/
theorem build_underNaming (d : Description) (naming other : Convention) :
    d.build other = (d.build naming).map fun g => g.underNaming other := by
  cases built : d.build naming with
  | error error =>
    rw [build_error_iff] at built
    rw [build_error_iff.mpr built]
    rfl
  | ok g =>
    obtain ⟨wellFormed, realises⟩ := build_ok_iff_realises.mp built
    rw [build_ok_iff_realises.mpr ⟨wellFormed, realises.underNaming other⟩]
    rfl

/-- What a description builds, and how it fails. -/
theorem build_outcome (d : Description) (naming : Convention) :
    ((∃ g, d.build naming = .ok g) ↔ d.WellFormed) ∧
    (∀ g, d.build naming = .ok g ↔ d.WellFormed ∧ d.Realises naming g) ∧
    (∀ error, d.build naming = .error error ↔ d.FirstFault error) ∧
    ∀ other, d.build other = (d.build naming).map fun g => g.underNaming other := by
  refine ⟨⟨?_, ?_⟩, fun _ => build_ok_iff_realises, fun _ => build_error_iff,
    build_underNaming d naming⟩
  · intro built
    obtain ⟨g, built⟩ := built
    exact (build_ok_iff_realises.mp built).1
  · intro wellFormed
    obtain ⟨infos, links, builds⟩ := wellFormed.builds naming
    exact ⟨_, build_ok_iff.mpr ⟨infos, links, builds, rfl⟩⟩

end Description

end SignalPaths
