import SignalPaths.Proofs.Path.Agreement
import SignalPaths.Proofs.Path.Route

/-!
Paths through waypoints are composed of the paths between neighbours. The first leg that fails
decides the error. A list of waypoints can be cut at each of its points: the path is then the path
up to that point, and the path from there on without its first vertex.
-/

namespace SignalPaths

theorem Waypoints.segments_split (a b c : VertexId) (before after : List VertexId) :
    segments ⟨a, before ++ b :: after, c⟩ = segments ⟨a, before, b⟩ ++ segments ⟨b, after, c⟩ := by
  have split (points : List VertexId) :
      (points ++ b :: (after ++ [c])).zip (points ++ b :: (after ++ [c])).tail =
        (points ++ [b]).zip (points ++ [b]).tail ++ (b :: (after ++ [c])).zip (after ++ [c]) := by
    induction points with
    | nil => simp
    | cons u points ih => cases points <;> simp_all
  simpa [segments, points] using split (a :: before)

theorem Waypoints.segments_eq_cons (w : Waypoints) :
    ∃ next rest, w.segments = (w.start, next) :: rest := by
  obtain ⟨start, through, stop⟩ := w
  cases through with
  | nil => exact ⟨stop, [], rfl⟩
  | cons next rest => exact ⟨next, _, rfl⟩

namespace Graph

variable {g : Graph} {source target : VertexId} {w : Waypoints} {path first : Path}
  {legs : List Path}

/-- One path for each pair of neighbours, as the search between the two finds it. -/
def Legs (g : Graph) (w : Waypoints) (legs : List Path) : Prop :=
  List.Forall₂ (fun leg part => (g.directPath leg.1 leg.2).result = .ok part) w.segments legs

theorem foldl_joinPaths (nonempty : path ≠ []) (legs : List Path) :
    legs.foldl joinPaths path = path ++ legs.flatMap List.tail := by
  induction legs generalizing path with
  | nil => simp
  | cons next legs ih =>
    rw [List.foldl_cons, joinPaths_of_ne_nil nonempty, ih (by simp [nonempty]), List.flatMap_cons,
      List.append_assoc]

theorem foldl_joinPaths_cons (nonempty : first ≠ []) (others : List Path) :
    (first :: others).foldl joinPaths [] = first ++ others.flatMap List.tail := by
  rw [List.foldl_cons, joinPaths, if_pos List.isEmpty_nil, foldl_joinPaths nonempty]

theorem foldl_joinPaths_append {next : Path} (left : first ≠ []) (right : next ≠ [])
    (others more : List Path) :
    (first :: others ++ next :: more).foldl joinPaths [] =
      (first :: others).foldl joinPaths [] ++ ((next :: more).foldl joinPaths []).tail := by
  rw [List.cons_append, foldl_joinPaths_cons left, foldl_joinPaths_cons left,
    foldl_joinPaths_cons right, List.flatMap_append, List.flatMap_cons,
    List.tail_append_of_ne_nil right, List.append_assoc]

theorem anyPath_ok_iff :
    (g.anyPath w).result = .ok path ↔
      ∃ legs, g.Legs w legs ∧ legs.foldl joinPaths [] = path := by
  rw [anyPath_result]
  constructor
  · intro answer
    cases known : w.segments.mapM fun leg => (g.directPath leg.1 leg.2).result with
    | error e =>
      rw [known] at answer
      cases answer
    | ok legs =>
      rw [known] at answer
      exact ⟨legs, mapM_ok_iff.mp known, Except.ok.inj answer⟩
  · rintro ⟨legs, found, rfl⟩
    rw [mapM_ok_iff.mpr found]
    rfl

theorem anyPath_error_iff {error : PathError} :
    (g.anyPath w).result = .error error ↔
      ∃ before leg after, w.segments = before ++ leg :: after ∧
        (∀ earlier ∈ before, ∃ part, (g.directPath earlier.1 earlier.2).result = .ok part) ∧
        (g.directPath leg.1 leg.2).result = .error error := by
  rw [anyPath_result, ← mapM_error_iff]
  cases w.segments.mapM fun leg => (g.directPath leg.1 leg.2).result <;> simp [Except.map]

namespace Coherent

theorem directPath_cases (coherent : g.Coherent) (source target : VertexId) :
    (source < g.vertexCount ∧ g.Reaches source target ∧
        ∃ path, (g.directPath source target).result = .ok path ∧
          IsSimplePath g.Edge source target path) ∨
      (¬ (source < g.vertexCount ∧ g.Reaches source target) ∧
        (g.directPath source target).result = .error (g.pathFailure source target)) := by
  by_cases known : source < g.vertexCount ∧ g.Reaches source target
  · exact .inl ⟨known.1, known.2, coherent.directPath_of_reaches known.1 known.2⟩
  · refine .inr ⟨known, ?_⟩
    rw [← anyPath_direct]
    exact (coherent.fail_alike known).1

theorem directPath_ok (coherent : g.Coherent)
    (answer : (g.directPath source target).result = .ok path) :
    source < g.vertexCount ∧ g.Reaches source target ∧ IsSimplePath g.Edge source target path := by
  rcases coherent.directPath_cases source target with
    ⟨inside, reaches, found, same, simple⟩ | ⟨_, failed⟩
  · rw [answer] at same
    obtain rfl := Except.ok.inj same
    exact ⟨inside, reaches, simple⟩
  · rw [answer] at failed
    cases failed

theorem directPath_error_iff (coherent : g.Coherent) {error : PathError} :
    (g.directPath source target).result = .error error ↔
      (∀ path, (g.directPath source target).result ≠ .ok path) ∧
        error = g.pathFailure source target := by
  rcases coherent.directPath_cases source target with
    ⟨_, _, path, answer, _⟩ | ⟨_, failed⟩
  · simp [answer]
  · simp [failed, eq_comm]

theorem ne_nil_of_directPath (coherent : g.Coherent)
    (answer : (g.directPath source target).result = .ok path) : path ≠ [] :=
  List.ne_nil_of_mem (coherent.directPath_ok answer).2.2.source_mem

theorem legs_eq_cons (coherent : g.Coherent) (found : g.Legs w legs) :
    ∃ first others, legs = first :: others ∧ first ≠ [] := by
  obtain ⟨next, rest, split⟩ := w.segments_eq_cons
  rw [Legs, split, List.forall₂_cons_left_iff] at found
  obtain ⟨first, others, leg, _, rfl⟩ := found
  exact ⟨first, others, rfl, coherent.ne_nil_of_directPath leg⟩

theorem anyPath_composed (coherent : g.Coherent) (answer : (g.anyPath w).result = .ok path) :
    ∃ first others, path = first ++ others.flatMap List.tail ∧ g.Legs w (first :: others) := by
  obtain ⟨legs, found, rfl⟩ := anyPath_ok_iff.mp answer
  obtain ⟨first, others, rfl, nonempty⟩ := coherent.legs_eq_cons found
  exact ⟨first, others, foldl_joinPaths_cons nonempty others, found⟩

theorem anyPath_route (coherent : g.Coherent) (answer : (g.anyPath w).result = .ok path) :
    IsRoute g.Edge w.points path := by
  obtain ⟨legs, found, rfl⟩ := anyPath_ok_iff.mp answer
  exact isRoute_of_legs (found.imp fun _ _ leg => (coherent.directPath_ok leg).2.2)

theorem inside_of_anyPath (coherent : g.Coherent) (answer : (g.anyPath w).result = .ok path) :
    (∀ v ∈ w.points, v < g.vertexCount) ∧ w.points.IsChain g.Reaches := by
  obtain ⟨legs, found, _⟩ := anyPath_ok_iff.mp answer
  have each : ∀ leg ∈ w.segments, leg.1 < g.vertexCount ∧ g.Reaches leg.1 leg.2 := by
    intro leg member
    obtain ⟨part, _, found⟩ := forall₂_mem_left found member
    exact ⟨(coherent.directPath_ok found).1, (coherent.directPath_ok found).2.1⟩
  have chain : w.points.IsChain g.Reaches :=
    (Waypoints.isChain_iff_zip w.points).mpr fun leg member => (each leg member).2
  refine ⟨?_, chain⟩
  obtain ⟨next, rest, split⟩ := w.segments_eq_cons
  have start : w.start < g.vertexCount := (each (w.start, next) (by simp [split])).1
  exact chain.induction (· < g.vertexCount) w.points
    (fun _ _ reaches inside => coherent.reaches_inside inside reaches) fun _ => start

/-- Waypoints can be cut at each point that is passed. -/
theorem anyPath_split (coherent : g.Coherent) (a b c : VertexId) (before after : List VertexId) :
    (g.anyPath ⟨a, before ++ b :: after, c⟩).result = (do
      let front ← (g.anyPath ⟨a, before, b⟩).result
      let back ← (g.anyPath ⟨b, after, c⟩).result
      return front ++ back.tail) := by
  rw [anyPath_result, anyPath_result, anyPath_result, Waypoints.segments_split, List.mapM_append]
  -- An error in one part is the error of the whole; what is left is to join two answers.
  cases left : (Waypoints.segments ⟨a, before, b⟩).mapM
      fun leg => (g.directPath leg.1 leg.2).result with
  | error e => rfl
  | ok legs =>
    cases right : (Waypoints.segments ⟨b, after, c⟩).mapM
        fun leg => (g.directPath leg.1 leg.2).result with
    | error e => rfl
    | ok more =>
      obtain ⟨first, others, rfl, nonempty⟩ := coherent.legs_eq_cons (mapM_ok_iff.mp left)
      obtain ⟨next, later, rfl, nonempty'⟩ := coherent.legs_eq_cons (mapM_ok_iff.mp right)
      exact congrArg Except.ok (foldl_joinPaths_append nonempty nonempty' others later)

end Coherent

/-- A path through waypoints is there exactly if all are in the netlist and each can be reached from
the one before. It is put together from the paths between neighbours, of which the first that fails
decides the error, and it can be cut at each point. -/
theorem anyPath_composition (netlist : g.IsNetlist) :
    (∀ w : Waypoints,
      ((∃ path, (g.anyPath w).result = .ok path) ↔
        (∀ v ∈ w.points, v < g.vertexCount) ∧ w.points.IsChain g.Reaches) ∧
      (∀ path, (g.anyPath w).result = .ok path →
        (∃ first others, path = first ++ others.flatMap List.tail ∧
          List.Forall₂ (fun leg part => (g.anyPath ⟨leg.1, [], leg.2⟩).result = .ok part)
            w.segments (first :: others)) ∧
        path.head? = some w.start ∧ path.getLast? = some w.stop ∧ path.IsChain g.Edge) ∧
      ∀ error, (g.anyPath w).result = .error error ↔
        ∃ before leg after, w.segments = before ++ leg :: after ∧
          (∀ earlier ∈ before, ∃ part,
            (g.anyPath ⟨earlier.1, [], earlier.2⟩).result = .ok part) ∧
          (∀ part, (g.anyPath ⟨leg.1, [], leg.2⟩).result ≠ .ok part) ∧
          error = g.pathFailure leg.1 leg.2) ∧
    ∀ a b c before after,
      (g.anyPath ⟨a, before ++ b :: after, c⟩).result = (do
        let front ← (g.anyPath ⟨a, before, b⟩).result
        let back ← (g.anyPath ⟨b, after, c⟩).result
        return front ++ back.tail) := by
  have coherent := netlist.coherent
  refine ⟨fun w => ⟨⟨?_, ?_⟩, ?_, ?_⟩, coherent.anyPath_split⟩
  · rintro ⟨path, answer⟩
    exact coherent.inside_of_anyPath answer
  · rintro ⟨inside, chain⟩
    obtain ⟨path, answer, _⟩ := coherent.anyPath_of_chain inside chain
    exact ⟨path, answer⟩
  · intro path answer
    have route := coherent.anyPath_route answer
    refine ⟨?_, route.head, ?_, route.edges⟩
    · simpa only [anyPath_direct, Legs] using coherent.anyPath_composed answer
    · rw [route.last, Waypoints.points, List.getLast?_concat]
  · intro error
    simp only [anyPath_error_iff, coherent.directPath_error_iff, anyPath_direct]

/-- Waypoints may come again. Of two legs that fail, the first one gives the error. -/
theorem anyPath_composition_loop :
    loopNetlist.IsNetlist ∧
      (∃ path, (loopNetlist.anyPath ⟨0, [2, 2, 0], 3⟩).result = .ok path ∧
        path.head? = some 0 ∧ path.getLast? = some 3 ∧ path.IsChain loopNetlist.Edge) ∧
      (loopNetlist.anyPath ⟨0, [4, 9], 3⟩).result = .error (.noPath "a" "e") ∧
      (loopNetlist.anyPath ⟨0, [9, 4], 3⟩).result = .error (.outOfRange ⟨9, 5⟩) := by
  have netlist := loopNetlist.isNetlist
  have law := (anyPath_composition netlist).1
  have onward : loopNetlist.Reaches 0 2 := .single (by decide)
  have stay : loopNetlist.Reaches 2 2 := .refl
  have around : loopNetlist.Reaches 2 0 := .single (by decide)
  have chain : [0, 2, 2, 0, 3].IsChain loopNetlist.Reaches := by
    simp [onward, stay, around, loopNetlist.reaches_out]
  have inside : ∀ v ∈ [0, 2, 2, 0, 3], v < loopNetlist.vertexCount := by decide
  obtain ⟨path, answer⟩ := (law ⟨0, [2, 2, 0], 3⟩).1.mpr ⟨inside, chain⟩
  refine ⟨netlist, ⟨path, answer, ((law _).2.1 path answer).2⟩, ?_, ?_⟩
  · refine ((law _).2.2 _).mpr ⟨[], (0, 4), [(4, 9), (9, 3)], rfl, by simp, ?_, by decide⟩
    intro part found
    have chain := ((law ⟨0, [], 4⟩).1.mp ⟨part, found⟩).2
    exact loopNetlist.not_reaches_apart (List.isChain_cons_cons.mp chain).1
  · refine ((law _).2.2 _).mpr ⟨[], (0, 9), [(9, 4), (4, 3)], rfl, by simp, ?_, by decide⟩
    intro part found
    have inside := ((law ⟨0, [], 9⟩).1.mp ⟨part, found⟩).1 9 (by decide)
    exact absurd inside (by decide)

end Graph

end SignalPaths
