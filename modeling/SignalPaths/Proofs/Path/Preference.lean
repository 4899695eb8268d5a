import SignalPaths.Proofs.Path.Role

/-!
Which vertex a name stands for. Of the vertices of a name that can play a role, the kinds of the
role are tried in their order, and within a kind the vertex with the smallest number is taken. The
index of names gives the same answer as a look through all vertices, and a vertex that comes in
later takes the name over only where its kind is tried before.
-/

namespace SignalPaths

namespace Role

/-- The kind of the one vertex is tried before that of the other, or they are of one kind and the
numbers decide. -/
def Prefers (role : Role) (v w : Vertex) : Prop :=
  role.kinds.idxOf v.kind < role.kinds.idxOf w.kind ∨ v.kind = w.kind ∧ v.id ≤ w.id

theorem Prefers.id_eq {role : Role} {v w : Vertex} (left : role.Prefers v w)
    (right : role.Prefers w v) : v.id = w.id := by
  obtain before | ⟨same, below⟩ := left <;> obtain after | ⟨equal, above⟩ := right
  · exact absurd after (Nat.lt_asymm before)
  · exact absurd before (equal ▸ Nat.lt_irrefl _)
  · exact absurd after (same ▸ Nat.lt_irrefl _)
  · exact Nat.le_antisymm below above

theorem kinds_excluded {role : Role} {kind : Kind} (suits : kind ∈ role.kinds) :
    kind.isLogic = false ∧ (role = .start → kind ≠ .regDst) ∧ (role = .stop → kind ≠ .regSrc) ∧
      (role = .through → kind.isRegister = false) := by
  cases role <;> revert suits <;> cases kind <;> decide

end Role

namespace Graph

variable {g : Graph} {name : String} {role : Role} {kind : Kind} {id : VertexId} {v : Vertex}

structure Candidate (g : Graph) (name : String) (role : Role) (v : Vertex) : Prop where
  member : v ∈ g.vertices.toList
  named : v.name = name
  suits : v.kind ∈ role.kinds

/-- The vertex that a name stands for in a role. The empty name stands for none. -/
structure Chosen (g : Graph) (name : String) (role : Role) (v : Vertex) : Prop
    extends g.Candidate name role v where
  nonempty : name ≠ ""
  preferred : ∀ w, g.Candidate name role w → role.Prefers v w

/-- Where the numbers increase, the first vertex that passes a test has the smallest number. -/
theorem id_le_of_find? {vertices : List Vertex} {test : Vertex → Bool}
    (increasing : vertices.Pairwise fun v w => v.id < w.id) (found : vertices.find? test = some v)
    {w : Vertex} (member : w ∈ vertices) (passes : test w = true) : v.id ≤ w.id := by
  obtain ⟨_, before, after, rfl, fails⟩ := List.find?_eq_some_iff_append.mp found
  rcases List.mem_append.mp member with early | late
  · have refused := fails w early
    simp [passes] at refused
  rcases List.mem_cons.mp late with rfl | later
  · exact Nat.le_refl _
  · have ordered := (List.pairwise_append.mp increasing).2.1
    exact Nat.le_of_lt (List.rel_of_pairwise_cons ordered later)

namespace Chosen

theorem id_eq {w : Vertex} (chosen : g.Chosen name role v) (rival : g.Chosen name role w) :
    v.id = w.id :=
  (chosen.preferred w rival.toCandidate).id_eq (rival.preferred v chosen.toCandidate)

theorem offers (chosen : g.Chosen name role v) : g.Offers name role :=
  ⟨chosen.nonempty, v, Array.mem_toList_iff.mp chosen.member, chosen.named, chosen.suits⟩

end Chosen

namespace Indexed

theorem named_eq_map (indexed : g.Indexed) (nonempty : name ≠ "") :
    g.named name = (g.vertices.toList.filter fun v => v.name == name).map Vertex.id := by
  rw [indexed.named name nonempty, ← indexed.map_id, List.filter_map]
  apply congrArg
  apply List.filter_congr
  intro v member
  simp [name?, indexed.getElem?_id member]

/-- What the index finds is the first vertex of the name and the kind. -/
theorem find?_eq (indexed : g.Indexed) (nonempty : name ≠ "") (kind : Kind) :
    g.find? name kind =
      (g.vertices.toList.find? fun v => v.name == name && v.kind == kind).map Vertex.id := by
  have same : ∀ v ∈ g.vertices.toList,
      (g.kind? v.id == some kind && v.name == name) = (v.name == name && v.kind == kind) := by
    intro v member
    simp [kind?, indexed.getElem?_id member, Bool.and_comm]
  rw [find?, indexed.named_eq_map nonempty, List.find?_map, ← List.head?_filter,
    ← List.head?_filter, List.filter_filter]
  exact congrArg (fun vertices => vertices.head?.map Vertex.id) (List.filter_congr same)

/-- A kind is passed over where no vertex of the name has it. -/
theorem find?_ne_none (indexed : g.Indexed) (nonempty : name ≠ "") (member : v ∈ g.vertices.toList)
    (named : v.name = name) : g.find? name v.kind ≠ none := by
  intro nothing
  rw [indexed.find?_eq nonempty, Option.map_eq_none_iff, List.find?_eq_none] at nothing
  exact nothing v member (by simp [named])

theorem chosen_of_resolve (indexed : g.Indexed) (resolved : g.resolve name role = .ok id) :
    ∃ v, g.Chosen name role v ∧ v.id = id := by
  obtain ⟨nonempty, _⟩ := indexed.resolve_vertex resolved
  obtain ⟨before, kind, after, tried, found, passed⟩ := resolve_ok_split resolved
  have untried : ∀ w ∈ g.vertices.toList, w.name = name → w.kind ∉ before := by
    intro w member named early
    exact indexed.find?_ne_none nonempty member named (passed w.kind early)
  rw [indexed.find?_eq nonempty, Option.map_eq_some_iff] at found
  obtain ⟨v, first, rfl⟩ := found
  have member := List.mem_of_find?_eq_some first
  have passes := List.find?_some first
  simp only [Bool.and_eq_true, beq_iff_eq] at passes
  obtain ⟨named, rfl⟩ := passes
  have suits : v.kind ∈ role.kinds := by simp [tried]
  refine ⟨v, ⟨⟨member, named, suits⟩, nonempty, ?_⟩, rfl⟩
  intro w candidate
  by_cases same : v.kind = w.kind
  · refine .inr ⟨same, id_le_of_find? indexed.pairwise_id first candidate.member ?_⟩
    simp [candidate.named, same]
  · left
    rw [tried, List.idxOf_append_of_notMem (untried v member named),
      List.idxOf_append_of_notMem (untried w candidate.member candidate.named),
      List.idxOf_cons_self, List.idxOf_cons_ne after same]
    exact Nat.add_lt_add_left (Nat.succ_pos _) _

theorem resolve_ok_iff_chosen (indexed : g.Indexed) :
    g.resolve name role = .ok id ↔ ∃ v, g.Chosen name role v ∧ v.id = id := by
  constructor
  · exact indexed.chosen_of_resolve
  · rintro ⟨v, chosen, rfl⟩
    obtain ⟨other, resolved⟩ := indexed.resolve_ok_iff.mpr chosen.offers
    obtain ⟨w, rival, rfl⟩ := indexed.chosen_of_resolve resolved
    rw [resolved, chosen.id_eq rival]

end Indexed

namespace Chosen

/-- A vertex that comes in with a number of its own does not matter to a name that is taken by a
kind tried no later. -/
theorem addVertex (chosen : g.Chosen name role v) (indexed : g.Indexed) {info : VertexInfo}
    (later : info.name = name → role.kinds.idxOf v.kind ≤ role.kinds.idxOf info.kind) :
    (g.addVertex info).Chosen name role v := by
  have grown : (g.addVertex info).vertices.toList =
      g.vertices.toList ++ [{ info with id := g.vertexCount }] := by
    simp [Graph.addVertex]
  refine ⟨⟨?_, chosen.named, chosen.suits⟩, chosen.nonempty, ?_⟩
  · rw [grown]
    exact List.mem_append_left _ chosen.member
  intro w candidate
  have member := candidate.member
  rw [grown, List.mem_append, List.mem_singleton] at member
  obtain old | rfl := member
  · exact chosen.preferred w ⟨old, candidate.named, candidate.suits⟩
  obtain before | level := Nat.lt_or_eq_of_le (later candidate.named)
  · exact .inl before
  · refine .inr ⟨(List.idxOf_inj chosen.suits).mp level, ?_⟩
    exact Nat.le_of_lt (indexed.id_lt chosen.member)

theorem perform (chosen : g.Chosen name role v) (indexed : g.Indexed) {operation : Operation}
    (later : ∀ info, operation = .vertex info → info.name = name →
      role.kinds.idxOf v.kind ≤ role.kinds.idxOf info.kind) :
    (g.perform operation).Chosen name role v := by
  cases operation with
  | vertex info => exact chosen.addVertex indexed (later info rfl)
  | edge source target =>
    rcases g.perform_edge_cases source target with same | ⟨_, _, _, added⟩
    · rw [same]
      exact chosen
    · rw [added]
      exact ⟨⟨chosen.member, chosen.named, chosen.suits⟩, chosen.nonempty,
        fun w candidate => chosen.preferred w ⟨candidate.member, candidate.named, candidate.suits⟩⟩

theorem performAll (chosen : g.Chosen name role v) (indexed : g.Indexed)
    {operations : List Operation}
    (later : ∀ info, .vertex info ∈ operations → info.name = name →
      role.kinds.idxOf v.kind ≤ role.kinds.idxOf info.kind) :
    (g.performAll operations).Chosen name role v := by
  induction operations generalizing g with
  | nil => exact chosen
  | cons operation rest ih =>
    apply ih (chosen.perform indexed ?_) (indexed.perform operation)
    · intro info member
      exact later info (List.mem_cons_of_mem _ member)
    · rintro info rfl
      exact later info List.mem_cons_self

end Chosen

/-- After any history, a name stands in a role for the vertex that the role prefers among those that
have the name, and for none if no vertex of the name suits. The answer is of no kind that the role
excludes, and it stays through all that follows as long as no vertex of the name comes in whose kind
is tried before. -/
theorem resolve_preferred (operations : List Operation) (name : String) (role : Role) :
    let g := empty.performAll operations
    (∀ id, g.resolve name role = .ok id ↔ ∃ v, g.Chosen name role v ∧ v.id = id) ∧
      (∀ error, g.resolve name role = .error error ↔
        error = .vertexNotFound name ∧ ¬ g.Offers name role) ∧
      ∀ id, g.resolve name role = .ok id → ∃ v, g.vertex id = .ok v ∧
        v.kind.isLogic = false ∧ (role = .start → v.kind ≠ .regDst) ∧
        (role = .stop → v.kind ≠ .regSrc) ∧ (role = .through → v.kind.isRegister = false) ∧
        ∀ further : List Operation,
          (∀ info, .vertex info ∈ further → info.name = name →
            role.kinds.idxOf v.kind ≤ role.kinds.idxOf info.kind) →
          (empty.performAll (operations ++ further)).resolve name role = .ok id := by
  intro g
  have indexed : g.Indexed := Indexed.empty.performAll operations
  refine ⟨fun id => indexed.resolve_ok_iff_chosen, ?_, ?_⟩
  · intro error
    constructor
    · intro failed
      obtain rfl := eq_of_resolve_error failed
      exact ⟨rfl, indexed.resolve_error_iff.mp failed⟩
    · rintro ⟨rfl, missing⟩
      exact indexed.resolve_error_iff.mpr missing
  · intro id resolved
    obtain ⟨v, chosen, rfl⟩ := indexed.resolve_ok_iff_chosen.mp resolved
    obtain ⟨logic, start, stop, through⟩ := Role.kinds_excluded chosen.suits
    refine ⟨v, vertex_ok_iff.mpr (indexed.getElem?_id chosen.member), logic, start, stop, through,
      ?_⟩
    intro further later
    have kept := chosen.performAll indexed later
    have run : empty.performAll (operations ++ further) = g.performAll further :=
      List.foldl_append
    rw [run]
    exact (indexed.performAll further).resolve_ok_iff_chosen.mpr ⟨v, kept, rfl⟩

-- A source register takes the name over from a variable, and a second one does not.
example : [1, 2, 3].map (fun count =>
    let kinds : List Kind := [.var, .regSrc, .regSrc]
    let history : List Operation := (kinds.take count).map (.vertex ⟨·, .none, "a", "", false⟩)
    (empty.performAll history).resolve "a" .start) = [.ok 0, .ok 1, .ok 1] := by
  decide +kernel

end Graph

end SignalPaths
