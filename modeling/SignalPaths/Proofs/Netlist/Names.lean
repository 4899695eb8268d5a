import Mathlib.Data.List.Sort
import SignalPaths.Netlist.Names
import SignalPaths.Proofs.Netlist.History

/-!
The listing of names. It is sorted by code point and lists each description once, so that it is
determined by the descriptions alone, and the order of the vertices does not matter. Descriptions of
different vertices may be equal, but never those of different kinds: a description starts with the
kind, and the first blank ends it.
-/

namespace SignalPaths

theorem mem_dropRepeats {texts : List String} {text : String} :
    text ∈ dropRepeats texts ↔ text ∈ texts := by
  fun_induction dropRepeats texts with
  | case1 => rfl
  | case2 => rfl
  | case3 name rest ih => simp [ih]
  | case4 name next rest other ih => simp [ih]

theorem pairwise_dropRepeats {texts : List String} (sorted : texts.Pairwise (· ≤ ·)) :
    (dropRepeats texts).Pairwise (· < ·) := by
  fun_induction dropRepeats texts with
  | case1 => exact .nil
  | case2 name => exact List.pairwise_singleton _ name
  | case3 name rest ih => exact ih sorted.tail
  | case4 name next rest other ih =>
    obtain ⟨below, later⟩ := List.pairwise_cons.mp sorted
    refine List.pairwise_cons.mpr ⟨?_, ih later⟩
    intro text member
    have above : next ≤ text := by
      rcases List.mem_cons.mp (mem_dropRepeats.mp member) with rfl | inside
      · exact String.le_refl _
      · exact (List.pairwise_cons.mp later).1 text inside
    have step : name < next := Std.lt_of_le_of_ne (below next List.mem_cons_self) other
    exact Std.lt_of_lt_of_le step above

theorem pairwise_mergeSort_texts (texts : List String) :
    (texts.mergeSort fun a b => decide (a ≤ b)).Pairwise (· ≤ ·) := by
  have transitive (a b c : String) (first : decide (a ≤ b) = true)
      (second : decide (b ≤ c) = true) : decide (a ≤ c) = true :=
    decide_eq_true (String.le_trans (of_decide_eq_true first) (of_decide_eq_true second))
  have total (a b : String) : (decide (a ≤ b) || decide (b ≤ a)) = true := by
    simpa using String.le_total a b
  exact (List.pairwise_mergeSort transitive total texts).imp of_decide_eq_true

namespace Vertex

variable {v w : Vertex}

theorem describe_eq (v : Vertex) :
    v.describe = v.kind.text ++ " " ++
      if v.direction = .none then v.name else v.direction.text ++ " " ++ v.name := by
  unfold describe
  split <;> simp_all [String.append_assoc]

theorem describe_congr (same : v.toVertexInfo = w.toVertexInfo) : v.describe = w.describe := by
  simp only [describe, same]

/-- The kind that a description starts with. -/
def describedKind? (text : String) : Option Kind :=
  Kind.ofText? (String.ofList (text.toList.takeWhile (· != ' ')))

theorem describedKind?_describe (v : Vertex) : describedKind? v.describe = some v.kind := by
  have solid : v.kind.text.toList.all (· != ' ') = true := by cases v.kind <;> decide
  have inside := List.all_eq_true.mp solid
  rw [describe_eq, describedKind?, String.append_assoc, String.toList_append,
    List.takeWhile_append_of_pos inside]
  simp [Kind.ofText?_text]

theorem kind_of_describe (same : v.describe = w.describe) : v.kind = w.kind := by
  rw [← Option.some_inj, ← describedKind?_describe, ← describedKind?_describe, same]

end Vertex

namespace NameFilter

variable {v w : Vertex}

theorem accepts_congr (filter : NameFilter) (same : v.kind = w.kind) :
    filter.accepts v = filter.accepts w := by
  simp only [accepts, same]

theorem accepts_all_iff :
    all.accepts v = true ↔
      registers.accepts v = true ∨ ports.accepts v = true ∨ nets.accepts v = true := by
  unfold accepts
  cases v.kind <;> decide

/-- No vertex is listed under two of the narrow filters. -/
theorem accepts_apart (v : Vertex) :
    ¬ (registers.accepts v = true ∧ ports.accepts v = true) ∧
      ¬ (registers.accepts v = true ∧ nets.accepts v = true) ∧
      ¬ (ports.accepts v = true ∧ nets.accepts v = true) := by
  unfold accepts
  cases v.kind <;> decide

end NameFilter

namespace Graph

variable {g h : Graph} {filter narrow other : NameFilter} {text : String}

theorem mem_names :
    text ∈ g.names filter ↔ ∃ v ∈ g.vertices, filter.accepts v = true ∧ v.describe = text := by
  simp [names, mem_dropRepeats, and_assoc]

theorem pairwise_names (g : Graph) (filter : NameFilter) : (g.names filter).Pairwise (· < ·) :=
  pairwise_dropRepeats (pairwise_mergeSort_texts _)

theorem names_subset
    (covered : g.vertices.toList.map Vertex.toVertexInfo ⊆
      h.vertices.toList.map Vertex.toVertexInfo) : g.names filter ⊆ h.names filter := by
  intro text listed
  obtain ⟨v, member, accepted, rfl⟩ := mem_names.mp listed
  obtain ⟨w, found, same⟩ := List.mem_map.mp
    (covered (List.mem_map_of_mem (Array.mem_toList_iff.mpr member)))
  refine mem_names.mpr ⟨w, Array.mem_toList_iff.mp found, ?_, Vertex.describe_congr same⟩
  rw [filter.accepts_congr (congrArg VertexInfo.kind same), accepted]

theorem names_eq_of_perm
    (reordered : (g.vertices.toList.map Vertex.toVertexInfo).Perm
      (h.vertices.toList.map Vertex.toVertexInfo)) : g.names filter = h.names filter := by
  apply (g.pairwise_names filter).eq_of_mem_iff (h.pairwise_names filter)
  intro text
  exact ⟨fun listed => names_subset reordered.subset listed,
    fun listed => names_subset reordered.symm.subset listed⟩

theorem disjoint_names
    (apart : ∀ v, ¬ (narrow.accepts v = true ∧ other.accepts v = true)) :
    (g.names narrow).Disjoint (g.names other) := by
  intro text first second
  obtain ⟨v, _, accepted, described⟩ := mem_names.mp first
  obtain ⟨w, _, also, same⟩ := mem_names.mp second
  have kinds : v.kind = w.kind := Vertex.kind_of_describe (described.trans same.symm)
  exact apart w ⟨narrow.accepts_congr kinds ▸ accepted, also⟩

theorem mem_names_all :
    text ∈ g.names .all ↔ text ∈ g.names .registers ++ g.names .ports ++ g.names .nets := by
  simp only [List.mem_append, mem_names, NameFilter.accepts_all_iff, or_and_right, and_or_left,
    exists_or, or_assoc]

theorem nodup_names (g : Graph) (filter : NameFilter) : (g.names filter).Nodup :=
  (g.pairwise_names filter).imp fun below => Std.ne_of_lt below

theorem disjoint_narrow (g : Graph) :
    (g.names .registers).Disjoint (g.names .ports) ∧
      (g.names .registers).Disjoint (g.names .nets) ∧
      (g.names .ports).Disjoint (g.names .nets) :=
  ⟨disjoint_names fun v => (NameFilter.accepts_apart v).1,
    disjoint_names fun v => (NameFilter.accepts_apart v).2.1,
    disjoint_names fun v => (NameFilter.accepts_apart v).2.2⟩

/-- No repeats have to be dropped where the narrow listings are put together. -/
theorem names_all_eq (g : Graph) :
    g.names .all = (g.names .registers ++ g.names .ports ++ g.names .nets).mergeSort
      fun a b => decide (a ≤ b) := by
  obtain ⟨ports, nets, others⟩ := g.disjoint_narrow
  have once : (g.names .registers ++ g.names .ports ++ g.names .nets).Nodup := by
    refine List.Nodup.append (List.Nodup.append (g.nodup_names _) (g.nodup_names _) ports)
      (g.nodup_names _) ?_
    exact List.disjoint_append_left.mpr ⟨nets, others⟩
  have same : (g.names .all).Perm (g.names .registers ++ g.names .ports ++ g.names .nets) :=
    (List.perm_ext_iff_of_nodup (g.nodup_names _) once).mpr fun text => mem_names_all
  have sorted : (g.names .all).Pairwise (· ≤ ·) := (g.pairwise_names _).imp Std.le_of_lt
  exact List.Perm.eq_of_pairwise (fun _ _ _ _ => String.le_antisymm) sorted
    (pairwise_mergeSort_texts _) (same.trans (List.mergeSort_perm _ _).symm)

/-- The listing is strictly increasing, and holds the descriptions of the accepted vertices and no
others. The vertices may have been added in any order, with any edges between them. The listing of
all names is put together from those of the registers, the ports and the nets, no two of which have
a description in common. -/
theorem names_listing (g : Graph) (filter : NameFilter) :
    (g.names filter).Pairwise (· < ·) ∧
    (∀ text, text ∈ g.names filter ↔
      ∃ v ∈ g.vertices, filter.accepts v = true ∧
        text = v.kind.text ++ " " ++
          if v.direction = .none then v.name else v.direction.text ++ " " ++ v.name) ∧
    (∀ operations others : List Operation,
      (Ledger.ofHistory operations).vertices.Perm (Ledger.ofHistory others).vertices →
      (empty.performAll operations).names filter = (empty.performAll others).names filter) ∧
    g.names .all = (g.names .registers ++ g.names .ports ++ g.names .nets).mergeSort
      (fun a b => decide (a ≤ b)) ∧
    (g.names .registers).Disjoint (g.names .ports) ∧
      (g.names .registers).Disjoint (g.names .nets) ∧
      (g.names .ports).Disjoint (g.names .nets) := by
  refine ⟨g.pairwise_names filter, ?_, ?_, g.names_all_eq, g.disjoint_narrow⟩
  · intro text
    simp only [mem_names, Vertex.describe_eq, eq_comm]
  · intro operations others reordered
    apply names_eq_of_perm
    rwa [(records_ofHistory operations).vertices, (records_ofHistory others).vertices]

/-- Two ports with the same description. Read backwards, the edge comes before its ends. -/
def crossedHistory : List Operation :=
  [.vertex ⟨.port, .input, "x", "", true⟩, .vertex ⟨.wire, .none, "w", "", false⟩, .edge 0 1,
    .vertex ⟨.port, .none, "IN x", "", false⟩]

theorem names_listing_crossed :
    let g := empty.performAll crossedHistory
    let backwards := empty.performAll crossedHistory.reverse
    (Ledger.ofHistory crossedHistory).vertices.Perm
        (Ledger.ofHistory crossedHistory.reverse).vertices ∧
      g.names .all = backwards.names .all ∧ "PORT IN x" ∈ g.names .all ∧
      "PORT IN x" ∈ g.names .ports ∧ "PORT IN x" ∉ g.names .nets := by
  intro g backwards
  have reordered : (Ledger.ofHistory crossedHistory).vertices.Perm
      (Ledger.ofHistory crossedHistory.reverse).vertices := by decide
  obtain ⟨_, every, same, _⟩ := names_listing g .all
  obtain ⟨_, ports, _, _, _, _, apart⟩ := names_listing g .ports
  have member : g.vertices[0] ∈ g.vertices := Array.getElem_mem _
  have described : "PORT IN x" ∈ g.names .ports := (ports _).mpr ⟨_, member, rfl, rfl⟩
  exact ⟨reordered, same _ _ reordered, (every _).mpr ⟨_, member, rfl, rfl⟩, described,
    fun listed => apart described listed⟩

end Graph

end SignalPaths
