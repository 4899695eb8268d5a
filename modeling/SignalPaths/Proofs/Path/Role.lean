import SignalPaths.Path.Waypoints
import SignalPaths.Proofs.Computation
import SignalPaths.Proofs.Netlist.History

/-!
Names in the roles they play on a path. A name stands for a vertex where one of that name has a kind
that suits the role; of several names in a row, the first one that stands for nothing is reported.
-/

namespace SignalPaths

namespace Graph

variable {g : Graph} {name : String} {role : Role} {kind : Kind} {id : VertexId} {v : Vertex}

/-- There is a vertex of the name that can play the role. The empty name names nothing. -/
def Offers (g : Graph) (name : String) (role : Role) : Prop :=
  name ≠ "" ∧ ∃ v ∈ g.vertices, v.name = name ∧ v.kind ∈ role.kinds

theorem find?_spec (found : g.find? name kind = some id) :
    id ∈ g.named name ∧ g.kind? id = some kind := by
  refine ⟨List.mem_of_find?_eq_some found, ?_⟩
  simpa using List.find?_some found

theorem find?_isSome_iff :
    (g.find? name kind).isSome ↔ ∃ id ∈ g.named name, g.kind? id = some kind := by
  rw [find?, List.find?_isSome]
  simp

/-- The kinds before the one that is found have been tried in vain. -/
theorem resolve_ok_split (resolved : g.resolve name role = .ok id) :
    ∃ before kind after, role.kinds = before ++ kind :: after ∧ g.find? name kind = some id ∧
      ∀ earlier ∈ before, g.find? name earlier = none := by
  rw [resolve] at resolved
  split at resolved
  · next found known =>
    obtain rfl := Except.ok.inj resolved
    exact List.findSome?_eq_some_iff.mp known
  · cases resolved

theorem resolve_ok (resolved : g.resolve name role = .ok id) :
    ∃ kind ∈ role.kinds, g.find? name kind = some id := by
  obtain ⟨before, kind, after, tried, found, _⟩ := resolve_ok_split resolved
  exact ⟨kind, by simp [tried], found⟩

theorem resolve_cases (g : Graph) (name : String) (role : Role) :
    (∃ id, g.resolve name role = .ok id) ∨
      g.resolve name role = .error (.vertexNotFound name) := by
  rw [resolve]
  split
  · rename_i id _
    exact .inl ⟨id, rfl⟩
  · exact .inr rfl

theorem eq_of_resolve_error {error : PathError} (failed : g.resolve name role = .error error) :
    error = .vertexNotFound name := by
  rcases g.resolve_cases name role with ⟨id, resolved⟩ | other
  · rw [failed] at resolved
    cases resolved
  · rw [failed] at other
    exact Except.error.inj other

namespace Indexed

theorem named_ne (indexed : g.Indexed) (member : id ∈ g.named name) : name ≠ "" := by
  intro unnamed
  rw [unnamed, indexed.unnamed] at member
  cases member

theorem resolve_vertex (indexed : g.Indexed) (resolved : g.resolve name role = .ok id) :
    name ≠ "" ∧ ∃ v, g.vertices[id]? = some v ∧ v.name = name ∧ v.kind ∈ role.kinds := by
  obtain ⟨kind, allowed, found⟩ := resolve_ok resolved
  obtain ⟨member, hasKind⟩ := find?_spec found
  have nonempty := indexed.named_ne member
  obtain ⟨v, known, named⟩ := (indexed.mem_named nonempty).mp member
  rw [vertex_ok_iff] at known
  refine ⟨nonempty, v, known, named, ?_⟩
  have same : v.kind = kind := by simpa [kind?, known] using hasKind
  rw [same]
  exact allowed

theorem resolve_inside (indexed : g.Indexed) (resolved : g.resolve name role = .ok id) :
    id < g.vertexCount := by
  obtain ⟨_, v, known, _⟩ := indexed.resolve_vertex resolved
  exact (Array.getElem?_eq_some_iff.mp known).1

theorem resolve_ok_iff (indexed : g.Indexed) :
    (∃ id, g.resolve name role = .ok id) ↔ g.Offers name role := by
  constructor
  · rintro ⟨id, resolved⟩
    obtain ⟨nonempty, v, known, named, suits⟩ := indexed.resolve_vertex resolved
    exact ⟨nonempty, v, Array.mem_of_getElem? known, named, suits⟩
  · rintro ⟨nonempty, v, member, named, suits⟩
    obtain ⟨id, known⟩ := Array.mem_iff_getElem?.mp member
    have listed : id ∈ g.named name :=
      (indexed.mem_named nonempty).mpr ⟨v, vertex_ok_iff.mpr known, named⟩
    have found : (g.find? name v.kind).isSome :=
      find?_isSome_iff.mpr ⟨id, listed, by simp [kind?, known]⟩
    rw [resolve]
    split
    · rename_i first _
      exact ⟨first, rfl⟩
    · rename_i nothing
      rw [List.findSome?_eq_none_iff.mp nothing v.kind suits] at found
      cases found

theorem resolve_error_iff (indexed : g.Indexed) :
    g.resolve name role = .error (.vertexNotFound name) ↔ ¬ g.Offers name role := by
  rw [← indexed.resolve_ok_iff]
  rcases g.resolve_cases name role with ⟨id, resolved⟩ | failed
  · simp [resolved]
  · simp [failed]

end Indexed

/-- The name is the first in a list of names that finds no vertex for its role. -/
def FirstMissing (g : Graph) (points : List (String × Role)) (name : String) : Prop :=
  ∃ before role after, points = before ++ (name, role) :: after ∧
    (∀ point ∈ before, g.Offers point.1 point.2) ∧ ¬ g.Offers name role

end Graph

namespace Waypoints

variable {g : Graph}

/-- The names on a path in order, with the roles that they play. -/
def roles (start : String) (through : List String) (stop : String) : List (String × Role) :=
  (start, .start) :: through.map (·, .through) ++ [(stop, .stop)]

/-- The vertices stand for the names, each in its role. -/
def Stand (g : Graph) (points : List (String × Role)) (ids : List VertexId) : Prop :=
  List.Forall₂ (fun point id => g.resolve point.1 point.2 = .ok id) points ids

theorem Stand.unique {points : List (String × Role)} {ids others : List VertexId}
    (stand : Stand g points ids) (also : Stand g points others) : ids = others := by
  have listed := mapM_ok_iff.mpr stand
  rw [mapM_ok_iff.mpr also] at listed
  exact (Except.ok.inj listed).symm

theorem Stand.inside {points : List (String × Role)} {ids : List VertexId}
    (stand : Stand g points ids) (indexed : g.Indexed) : ∀ id ∈ ids, id < g.vertexCount := by
  induction stand with
  | nil => simp
  | cons resolved _ ih =>
    intro id member
    rcases List.mem_cons.mp member with rfl | old
    · exact indexed.resolve_inside resolved
    · exact ih id old

theorem resolve_points (g : Graph) (start : String) (through : List String) (stop : String) :
    (resolve g start through stop).map points =
      (roles start through stop).mapM fun point => g.resolve point.1 point.2 := by
  simp only [resolve, roles, List.cons_append, List.mapM_cons, List.mapM_append, List.mapM_map,
    List.mapM_nil, Function.comp_def]
  cases g.resolve start .start with
  | error e => rfl
  | ok first =>
    cases through.mapM fun name => g.resolve name .through with
    | error e => rfl
    | ok between =>
      cases g.resolve stop .stop with
      | error e => rfl
      | ok last => rfl

theorem resolve_ok {start stop : String} {through : List String} {w : Waypoints}
    (resolved : resolve g start through stop = .ok w) :
    Stand g (roles start through stop) w.points := by
  have mapped := resolve_points g start through stop
  rw [resolved] at mapped
  exact mapM_ok_iff.mp mapped.symm

theorem resolve_of_stand {start stop : String} {through : List String} {ids : List VertexId}
    (stand : Stand g (roles start through stop) ids) :
    ∃ w, resolve g start through stop = .ok w ∧ w.points = ids := by
  have mapped := resolve_points g start through stop
  rw [mapM_ok_iff.mpr stand] at mapped
  cases known : resolve g start through stop with
  | error e =>
    rw [known] at mapped
    cases mapped
  | ok w =>
    rw [known] at mapped
    exact ⟨w, rfl, Except.ok.inj mapped⟩

theorem through_eq_nil_iff {start stop : String} {through : List String} {w : Waypoints}
    (resolved : resolve g start through stop = .ok w) : w.through = [] ↔ through = [] := by
  have lengths := (resolve_ok resolved).length_eq
  have same : w.through.length = through.length := by
    simpa [roles, points] using lengths.symm
  rw [← List.length_eq_zero_iff, same, List.length_eq_zero_iff]

theorem resolve_missing_iff (indexed : g.Indexed) {start stop name : String}
    {through : List String} :
    resolve g start through stop = .error (.vertexNotFound name) ↔
      g.FirstMissing (roles start through stop) name := by
  have mapped := resolve_points g start through stop
  have failed : resolve g start through stop = .error (.vertexNotFound name) ↔
      (resolve g start through stop).map points = .error (.vertexNotFound name) := by
    cases resolve g start through stop <;> simp [Except.map]
  rw [failed, mapped, mapM_error_iff]
  constructor
  · rintro ⟨before, point, after, split, fine, failed⟩
    obtain rfl := PathError.vertexNotFound.inj (Graph.eq_of_resolve_error failed)
    refine ⟨before, point.2, after, split, ?_, indexed.resolve_error_iff.mp failed⟩
    intro point member
    exact indexed.resolve_ok_iff.mp (fine point member)
  · rintro ⟨before, role, after, split, fine, missing⟩
    refine ⟨before, (name, role), after, split, ?_, indexed.resolve_error_iff.mpr missing⟩
    intro point member
    exact indexed.resolve_ok_iff.mpr (fine point member)

theorem resolve_cases (g : Graph) (start : String) (through : List String) (stop : String) :
    (∃ w, resolve g start through stop = .ok w) ∨
      ∃ name, resolve g start through stop = .error (.vertexNotFound name) := by
  have mapped := resolve_points g start through stop
  cases known : resolve g start through stop with
  | ok w => exact .inl ⟨w, rfl⟩
  | error e =>
    rw [known] at mapped
    obtain ⟨before, point, after, _, _, failed⟩ := mapM_error_iff.mp mapped.symm
    exact .inr ⟨point.1, congrArg _ (Graph.eq_of_resolve_error failed)⟩

/-- Where every name finds a vertex, none is missing. -/
theorem resolve_of_offers (indexed : g.Indexed) {start stop : String} {through : List String}
    (offers : ∀ point ∈ roles start through stop, g.Offers point.1 point.2) :
    ∃ w, resolve g start through stop = .ok w := by
  rcases resolve_cases g start through stop with resolved | ⟨name, failed⟩
  · exact resolved
  · obtain ⟨before, role, after, split, _, missing⟩ := (resolve_missing_iff indexed).mp failed
    refine absurd (offers (name, role) ?_) missing
    rw [split]
    exact List.mem_append_right _ List.mem_cons_self

end Waypoints

end SignalPaths
