import SignalPaths.Fan
import SignalPaths.Netlist.Names
import SignalPaths.Netlist.Register
import SignalPaths.Proofs.Description.Build
import SignalPaths.Proofs.Fan
import SignalPaths.Proofs.Path.Agreement
import SignalPaths.Proofs.Path.Route

/-!
The order in which edges are given, and how often, changes the searches and the single paths they
find, but not what is reported: which paths there are, which points can be reached, how things fail,
the degrees, the warnings and the names.
-/

namespace SignalPaths

namespace Graph

/-- The same netlist, but for the order of its edges. -/
structure Reordered (g h : Graph) : Prop where
  left : g.IsNetlist
  right : h.IsNetlist
  vertices : h.vertices = g.vertices
  edges : h.edges.toList.Perm g.edges.toList

namespace Reordered

variable {g h : Graph} {root source target : VertexId} {accepts : Vertex → Bool}

theorem vertexCount (reordered : g.Reordered h) : h.vertexCount = g.vertexCount := by
  rw [Graph.vertexCount, reordered.vertices, Graph.vertexCount]

theorem edge_eq (reordered : g.Reordered h) : h.Edge = g.Edge := by
  funext u v
  simp only [Edge, ← Array.mem_toList_iff, reordered.edges.mem_iff]

theorem forward_edge_eq (reordered : g.Reordered h) : h.forward.Edge = g.forward.Edge := by
  rw [reordered.right.coherent.forward_edge, reordered.left.coherent.forward_edge,
    reordered.edge_eq]

theorem backward_edge_eq (reordered : g.Reordered h) : h.backward.Edge = g.backward.Edge := by
  funext u v
  apply propext
  rw [reordered.right.coherent.backward_edge, reordered.left.coherent.backward_edge,
    reordered.edge_eq]

theorem reaches_eq (reordered : g.Reordered h) : h.Reaches = g.Reaches := by
  rw [Reaches, reordered.edge_eq, Reaches]

theorem pathFailure_eq (reordered : g.Reordered h) (source target : VertexId) :
    h.pathFailure source target = g.pathFailure source target := by
  rw [pathFailure, reordered.vertices, reordered.vertexCount, pathFailure]

theorem allPaths_agree (reordered : g.Reordered h) (w : Waypoints) :
    Agree List.Perm (g.allPaths w).result (h.allPaths w).result := by
  obtain ⟨source, through, target⟩ := w
  by_cases direct : through = []
  · subst direct
    have one := reordered.left.coherent
    have other := reordered.right.coherent
    by_cases known : source < g.vertexCount ∧ g.Reaches source target
    · obtain ⟨inside, reaches⟩ := known
      have also : source < h.vertexCount := by rw [reordered.vertexCount]; exact inside
      rw [one.allPaths_of_reaches inside reaches,
        other.allPaths_of_reaches also (by rw [reordered.reaches_eq]; exact reaches)]
      apply Agree.ok
      apply (List.perm_ext_iff_of_nodup (Walk.nodup_completions (one.nodup_parents inside) _)
        (Walk.nodup_completions (other.nodup_parents also) _)).mpr
      intro path
      rw [Walk.mem_completions_singleton, Walk.mem_completions_singleton,
        one.simplePath_parent_iff inside, other.simplePath_parent_iff also, reordered.edge_eq]
    · have also : ¬ (source < h.vertexCount ∧ h.Reaches source target) := by
        rw [reordered.vertexCount, reordered.reaches_eq]
        exact known
      rw [(one.fail_alike known).2, (other.fail_alike also).2, reordered.pathFailure_eq]
      exact .error _
  · rw [allPaths_through direct, allPaths_through direct]
    exact .error _

theorem directPath_agree (reordered : g.Reordered h) (source target : VertexId) :
    Agree (fun _ _ => True) (g.directPath source target).result
      (h.directPath source target).result := by
  have one := reordered.left.coherent
  have other := reordered.right.coherent
  by_cases known : source < g.vertexCount ∧ g.Reaches source target
  · obtain ⟨path, first, _⟩ := one.directPath_of_reaches known.1 known.2
    rw [← reordered.vertexCount, ← reordered.reaches_eq] at known
    obtain ⟨next, second, _⟩ := other.directPath_of_reaches known.1 known.2
    rw [first, second]
    exact .ok trivial
  · have first := (one.fail_alike known).1
    rw [← reordered.vertexCount, ← reordered.reaches_eq] at known
    have second := (other.fail_alike known).1
    rw [anyPath_direct] at first second
    rw [first, second, reordered.pathFailure_eq]
    exact .error _

theorem anyPath_agree (reordered : g.Reordered h) (w : Waypoints) :
    Agree (fun _ _ => True) (g.anyPath w).result (h.anyPath w).result := by
  rw [anyPath_result, anyPath_result]
  have legs := Agree.mapM (fun leg => reordered.directPath_agree leg.1 leg.2) w.segments
  exact legs.map fun _ _ _ => trivial

/-- What is selected is determined by what can be reached, in the order of the vertices. -/
theorem selection_eq (reordered : g.Reordered h) {view other : View} {selected also : List Vertex}
    (same : ∀ v, Relation.ReflTransGen view.Edge root v ↔ Relation.ReflTransGen other.Edge root v)
    (first : g.IsSelection view root accepts selected)
    (second : h.IsSelection other root accepts also) : selected = also := by
  have ordered := reordered.left.indexed.pairwise_id
  have distinct : g.vertices.toList.Nodup := ordered.imp fun before same => by
    rw [same] at before
    exact Nat.lt_irrefl _ before
  rw [IsSelection, reordered.vertices] at second
  have members : ∀ v, v ∈ selected ↔ v ∈ also := by
    intro v
    by_cases held : v ∈ g.vertices.toList
    · rw [first.2 v held, second.2 v held, same]
    · exact iff_of_false (fun member => held (first.1.mem member))
        (fun member => held (second.1.mem member))
  apply List.Perm.eq_of_pairwise _ (ordered.sublist first.1) (ordered.sublist second.1)
    ((List.perm_ext_iff_of_nodup (distinct.sublist first.1) (distinct.sublist second.1)).mpr members)
  intro v w _ _ before after
  exact absurd after (Nat.lt_asymm before)

theorem map_eq_of_forall₂ {α β γ : Type} {f : β → γ} {k : α → γ} {xs : List α} {ys : List β}
    (each : List.Forall₂ (fun x y => f y = k x) xs ys) : ys.map f = xs.map k := by
  induction each with
  | nil => rfl
  | cons first _ ih => rw [List.map_cons, List.map_cons, first, ih]

/-- Paths that end, or start, at the selected vertices do so in the same order. -/
theorem selectedEnds_eq (reordered : g.Reordered h) {view other : View}
    {selected also : List Vertex} {paths others : List Path} {mark : Path → Option VertexId}
    (same : other.Edge = view.Edge) (first : g.IsSelection view root accepts selected)
    (second : h.IsSelection other root accepts also)
    (marked : List.Forall₂ (fun v path => mark path = some v.id) selected paths)
    (again : List.Forall₂ (fun v path => mark path = some v.id) also others) :
    paths.map mark = others.map mark := by
  have equal : selected = also := reordered.selection_eq (fun v => by rw [same]) first second
  rw [map_eq_of_forall₂ marked, map_eq_of_forall₂ again, equal]

theorem fanOut_agree (reordered : g.Reordered h) (root : VertexId) :
    Agree (fun paths others => paths.map List.getLast? = others.map List.getLast?)
      (g.fanOut root).result (h.fanOut root).result := by
  have one := reordered.left
  have other := reordered.right
  by_cases inside : root < g.vertexCount
  · have also := inside
    rw [← reordered.vertexCount] at also
    obtain ⟨selected, paths, first, answer, simple⟩ :=
      one.coherent.fanOut_result one.indexed inside
    obtain ⟨again, others, second, result, alike⟩ :=
      other.coherent.fanOut_result other.indexed also
    rw [answer, result]
    apply Agree.ok
    exact reordered.selectedEnds_eq reordered.forward_edge_eq first second
      (simple.imp fun _ _ path => path.last) (alike.imp fun _ _ path => path.last)
  · have also := inside
    rw [← reordered.vertexCount] at also
    rw [fanOut_outside inside, fanOut_outside also, reordered.vertexCount]
    exact .error _

theorem fanIn_agree (reordered : g.Reordered h) (root : VertexId) :
    Agree (fun paths others => paths.map List.head? = others.map List.head?)
      (g.fanIn root).result (h.fanIn root).result := by
  have one := reordered.left
  have other := reordered.right
  by_cases inside : root < g.vertexCount
  · have also := inside
    rw [← reordered.vertexCount] at also
    obtain ⟨selected, paths, first, answer, simple⟩ :=
      one.coherent.fanIn_result one.indexed inside
    obtain ⟨again, others, second, result, alike⟩ :=
      other.coherent.fanIn_result other.indexed also
    rw [answer, result]
    apply Agree.ok
    exact reordered.selectedEnds_eq reordered.backward_edge_eq first second
      (simple.imp fun _ _ path => path.head) (alike.imp fun _ _ path => path.head)
  · have also := inside
    rw [← reordered.vertexCount] at also
    rw [fanIn_outside inside, fanIn_outside also, reordered.vertexCount]
    exact .error _

theorem outDegree_eq (reordered : g.Reordered h) (id : VertexId) :
    h.outDegree id = g.outDegree id := by
  rw [outDegree, outDegree, reordered.left.coherent.successors_eq,
    reordered.right.coherent.successors_eq]
  simp only [List.length_reverse, List.length_map]
  exact (reordered.edges.filter _).length_eq

theorem inDegree_eq (reordered : g.Reordered h) (id : VertexId) :
    h.inDegree id = g.inDegree id := by
  rw [inDegree, inDegree, reordered.left.coherent.predecessors_eq,
    reordered.right.coherent.predecessors_eq]
  simp only [List.length_reverse, List.length_map]
  exact (reordered.edges.filter _).length_eq

theorem fanOutDegrees_eq (reordered : g.Reordered h) : h.fanOutDegrees = g.fanOutDegrees := by
  simp only [fanOutDegrees, reordered.vertices, reordered.outDegree_eq]

theorem registerWarnings_eq (reordered : g.Reordered h) :
    h.registerWarnings = g.registerWarnings := by
  have each : h.registerWarning? = g.registerWarning? := by
    funext v
    simp only [registerWarning?, reordered.outDegree_eq, reordered.inDegree_eq]
  rw [registerWarnings, each, reordered.vertices, registerWarnings]

theorem names_eq (reordered : g.Reordered h) (filter : NameFilter) :
    h.names filter = g.names filter := by
  rw [names, reordered.vertices, names]

end Reordered

/-- Two netlists report alike: the same paths in some order, the same outcomes of the search for one
path, paths to the same ends, and equal degrees, warnings and names. -/
structure ReportsAlike (g h : Graph) : Prop where
  allPaths (w : Waypoints) : Agree List.Perm (g.allPaths w).result (h.allPaths w).result
  anyPath (w : Waypoints) : Agree (fun _ _ => True) (g.anyPath w).result (h.anyPath w).result
  fanOut (root : VertexId) :
    Agree (fun paths others => paths.map List.getLast? = others.map List.getLast?)
      (g.fanOut root).result (h.fanOut root).result
  fanIn (root : VertexId) :
    Agree (fun paths others => paths.map List.head? = others.map List.head?)
      (g.fanIn root).result (h.fanIn root).result
  fanOutDegrees : g.fanOutDegrees = h.fanOutDegrees
  registerWarnings : g.registerWarnings = h.registerWarnings
  names (filter : NameFilter) : g.names filter = h.names filter

theorem Reordered.reportsAlike {g h : Graph} (reordered : g.Reordered h) : g.ReportsAlike h where
  allPaths := reordered.allPaths_agree
  anyPath := reordered.anyPath_agree
  fanOut := reordered.fanOut_agree
  fanIn := reordered.fanIn_agree
  fanOutDegrees := reordered.fanOutDegrees_eq.symm
  registerWarnings := reordered.registerWarnings_eq.symm
  names filter := (reordered.names_eq filter).symm

end Graph

namespace Description

open SignalPaths.Graph

variable {naming : Convention} {d : Description} {g h : Graph} {vertices : List VertexRecord}
  {first second : List EdgeRecord} {infos : List VertexInfo}
  {links others : List (VertexId × VertexId)}

theorem Builds.mem_links_iff (builds : d.Builds naming infos links) {link : VertexId × VertexId} :
    link ∈ links ↔ ∃ edge ∈ d.edges, Links d.ids edge link := by
  constructor
  · exact forall₂_mem_right builds.linked
  · intro found
    obtain ⟨edge, member, linked⟩ := found
    obtain ⟨other, held, also⟩ := forall₂_mem_left builds.linked member
    rw [linked.eq_place builds.distinct, ← also.eq_place builds.distinct]
    exact held

theorem Builds.of_subset (builds : (⟨vertices, first⟩ : Description).Builds naming infos links)
    (subset : second ⊆ first) :
    ∃ others, (⟨vertices, second⟩ : Description).Builds naming infos others := by
  have each : ∀ edge ∈ second, ∃ link, Links (ids ⟨vertices, first⟩) edge link := by
    intro edge member
    obtain ⟨link, _, linked⟩ := forall₂_mem_left builds.linked (subset member)
    exact ⟨link, linked⟩
  obtain ⟨others, linked⟩ := exists_forall₂ each
  exact ⟨others, builds.distinct, builds.read, linked⟩

theorem reordered_of_builds (same : ∀ edge, edge ∈ first ↔ edge ∈ second)
    (left : (⟨vertices, first⟩ : Description).Builds naming infos links)
    (right : (⟨vertices, second⟩ : Description).Builds naming infos others) :
    (assemble infos links).Reordered (assemble infos others) where
  left := isNetlist_assemble infos links
  right := isNetlist_assemble infos others
  vertices := by
    apply vertices_eq_of_infos (isNetlist_assemble infos others).indexed.numbered
      (isNetlist_assemble infos links).indexed.numbered
    rw [left.vertices, right.vertices]
  edges := by
    rw [left.edges_eq, right.edges_eq]
    apply (List.perm_ext_iff_of_nodup (nodup_eraseDups others) (nodup_eraseDups links)).mpr
    intro link
    rw [List.mem_eraseDups, List.mem_eraseDups, left.mem_links_iff, right.mem_links_iff]
    exact exists_congr fun edge => and_congr_left fun _ => (same edge).symm

theorem build_succeeds_of_subset (subset : second ⊆ first)
    (built : ∃ g, build ⟨vertices, first⟩ naming = .ok g) :
    ∃ h, build ⟨vertices, second⟩ naming = .ok h := by
  obtain ⟨g, built⟩ := built
  obtain ⟨infos, links, builds, _⟩ := build_ok_iff.mp built
  obtain ⟨others, also⟩ := builds.of_subset subset
  exact ⟨assemble infos others, build_ok_iff.mpr ⟨infos, others, also, rfl⟩⟩

/-- Edge lists with the same edges build alike, and what they build reports alike. -/
theorem build_edges_alike (naming : Convention) (vertices : List VertexRecord)
    (first second : List EdgeRecord) (same : ∀ edge, edge ∈ first ↔ edge ∈ second) :
    ((∃ g, build ⟨vertices, first⟩ naming = .ok g) ↔
      ∃ h, build ⟨vertices, second⟩ naming = .ok h) ∧
    ∀ g h, build ⟨vertices, first⟩ naming = .ok g → build ⟨vertices, second⟩ naming = .ok h →
      g.ReportsAlike h := by
  refine ⟨⟨build_succeeds_of_subset fun edge => (same edge).mpr,
    build_succeeds_of_subset fun edge => (same edge).mp⟩, ?_⟩
  intro g h built again
  obtain ⟨infos, links, left, made⟩ := build_ok_iff.mp built
  obtain ⟨copies, others, right, also⟩ := build_ok_iff.mp again
  -- The same records were read, so the two graphs hold the same vertices.
  have equal : infos = copies := by
    have result := mapM_ok_iff.mpr left.read
    rw [mapM_ok_iff.mpr right.read] at result
    exact (Except.ok.inj result).symm
  subst equal made also
  exact (reordered_of_builds same left right).reportsAlike

def detourVertices : List VertexRecord :=
  [⟨10, "VAR", none, "a", ""⟩, ⟨20, "LOGIC", none, "", ""⟩, ⟨30, "VAR", none, "b", ""⟩]

def detourInfos : List VertexInfo :=
  [⟨.var, .none, "a", "", false⟩, ⟨.logic, .none, "", "", false⟩, ⟨.var, .none, "b", "", false⟩]

theorem build_edges_alike_detour :
    ∃ g h, build ⟨detourVertices, [⟨10, 20⟩, ⟨20, 30⟩, ⟨10, 30⟩]⟩ Naming.standard = .ok g ∧
      build ⟨detourVertices, [⟨10, 30⟩, ⟨20, 30⟩, ⟨10, 30⟩, ⟨10, 20⟩]⟩ Naming.standard = .ok h ∧
      g.edges.toList = [(0, 1), (1, 2), (0, 2)] ∧ h.edges.toList = [(0, 2), (1, 2), (0, 1)] ∧
      g.ReportsAlike h := by
  have distinct : (detourVertices.map fun record => record.id).Nodup := by decide
  have read : List.Forall₂ (fun record info => vertexInfo Naming.standard record = .ok info)
      detourVertices detourInfos := mapM_ok_iff.mp (by decide)
  have left : (⟨detourVertices, [⟨10, 20⟩, ⟨20, 30⟩, ⟨10, 30⟩]⟩ : Description).Builds
      Naming.standard detourInfos [(0, 1), (1, 2), (0, 2)] :=
    ⟨distinct, read, by simp [detourVertices, ids, Links]⟩
  have right : (⟨detourVertices, [⟨10, 30⟩, ⟨20, 30⟩, ⟨10, 30⟩, ⟨10, 20⟩]⟩ : Description).Builds
      Naming.standard detourInfos [(0, 2), (1, 2), (0, 2), (0, 1)] :=
    ⟨distinct, read, by simp [detourVertices, ids, Links]⟩
  have built := build_ok_iff.mpr ⟨_, _, left, rfl⟩
  have again := build_ok_iff.mpr ⟨_, _, right, rfl⟩
  refine ⟨_, _, built, again, left.edges_eq.trans (by decide), right.edges_eq.trans (by decide), ?_⟩
  apply (build_edges_alike _ _ _ _ _).2 _ _ built again
  intro edge
  simp only [List.mem_cons, List.not_mem_nil, or_false]
  constructor
  · rintro (rfl | rfl | rfl) <;> simp
  · rintro (rfl | rfl | rfl | rfl) <;> simp

end Description

end SignalPaths
