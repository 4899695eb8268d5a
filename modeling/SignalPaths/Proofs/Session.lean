import SignalPaths.Proofs.Fan.Points
import SignalPaths.Proofs.Path.All
import SignalPaths.Proofs.Path.Role
import SignalPaths.Proofs.Path.Route
import SignalPaths.Session

/-!
What a session answers, whatever it is asked. Names are looked up first, and then the search for
paths cannot go wrong: either there is no way, or the paths go where the question says.
-/

namespace SignalPaths

/-- The errors that a question can meet with. The others are for misuse of the parts below. -/
def PathError.IsAnswer : PathError → Prop
  | vertexNotFound _ => True
  | noPath _ _ => True
  | unsupported _ => True
  | notReached _ _ => False
  | inconsistent _ _ => False
  | outOfRange _ => False

namespace Graph

variable {g : Graph} {w : Waypoints}

theorem Coherent.allPaths_of_chain (coherent : g.Coherent)
    (inside : ∀ v ∈ w.points, v < g.vertexCount) (direct : w.through = [])
    (chain : w.points.IsChain g.Reaches) :
    ∃ paths, (g.allPaths w).result = .ok paths ∧ paths ≠ [] ∧
      ∀ path ∈ paths, IsRoute g.Edge w.points path := by
  obtain ⟨start, through, stop⟩ := w
  subst direct
  have bound : start < g.vertexCount := inside start (by simp [Waypoints.points])
  have reaches : g.Reaches start stop := by simpa [Waypoints.points] using chain
  refine ⟨_, coherent.allPaths_of_reaches bound reaches,
    coherent.completions_ne_nil bound reaches, ?_⟩
  intro path member
  rw [Walk.mem_completions_singleton] at member
  exact ((coherent.simplePath_parent_iff bound).mp member).isRoute

theorem Coherent.allPaths_of_not_chain (coherent : g.Coherent)
    (inside : ∀ v ∈ w.points, v < g.vertexCount) (direct : w.through = [])
    (broken : ¬ w.points.IsChain g.Reaches) :
    ∃ source target, (g.allPaths w).result = .error (g.noPath source target) := by
  obtain ⟨start, through, stop⟩ := w
  subst direct
  have left : start < g.vertexCount := inside start (by simp [Waypoints.points])
  have right : stop < g.vertexCount := inside stop (by simp [Waypoints.points])
  have apart : ¬ g.Reaches start stop := by simpa [Waypoints.points] using broken
  exact ⟨start, stop, coherent.allPaths_of_not_reaches left right apart⟩

end Graph

namespace Session

variable {s : Session} {all : Bool} {start stop name : String} {through : List String}
  {w : Waypoints}

theorem between_unresolved {error : PathError}
    (failed : Waypoints.resolve s.graph start through stop = .error error) :
    (s.between all start through stop).result = .error error := by
  simp [between, failed]

theorem between_all (resolved : Waypoints.resolve s.graph start through stop = .ok w) :
    (s.between true start through stop).result = (s.graph.allPaths w).result.map .paths := by
  simp only [between, resolved, Traced.result_bind, Traced.result_ofExcept, Traced.ok_bind, if_true]
  cases (s.graph.allPaths w).result <;> rfl

theorem between_any (resolved : Waypoints.resolve s.graph start through stop = .ok w) :
    (s.between false start through stop).result = (s.graph.anyPath w).result.map .path := by
  simp only [between, resolved, Traced.result_bind, Traced.result_ofExcept, Traced.ok_bind,
    Bool.false_eq_true, if_false]
  cases (s.graph.anyPath w).result <;> rfl

theorem between_unsupported (resolved : Waypoints.resolve s.graph start through stop = .ok w)
    (more : through ≠ []) :
    (s.between true start through stop).result =
      .error (.unsupported .throughPointsForAllPaths) := by
  have more : w.through ≠ [] := mt (Waypoints.through_eq_nil_iff resolved).mp more
  rw [between_all resolved, Graph.allPaths_through more]
  rfl

/-- Where each point can be reached from the one before, there is an answer, and it is made of
routes along the points. -/
theorem between_of_chain (netlist : s.graph.IsNetlist)
    (resolved : Waypoints.resolve s.graph start through stop = .ok w)
    (supported : all = true → through = []) (chain : w.points.IsChain s.graph.Reaches) :
    ∃ answer, (s.between all start through stop).result = .ok answer ∧ answer.toPaths ≠ [] ∧
      ∀ path ∈ answer.toPaths, IsRoute s.graph.Edge w.points path := by
  have coherent := netlist.coherent
  have inside := (Waypoints.resolve_ok resolved).inside netlist.indexed
  cases all with
  | true =>
    have direct := (Waypoints.through_eq_nil_iff resolved).mpr (supported rfl)
    obtain ⟨paths, answer, nonempty, routes⟩ := coherent.allPaths_of_chain inside direct chain
    refine ⟨.paths paths, ?_, nonempty, routes⟩
    rw [between_all resolved, answer]
    rfl
  | false =>
    obtain ⟨path, answer, route⟩ := coherent.anyPath_of_chain inside chain
    refine ⟨.path path, ?_, by simp [Answer.toPaths], ?_⟩
    · rw [between_any resolved, answer]
      rfl
    · intro other member
      rw [List.mem_singleton.mp member]
      exact route

theorem between_of_not_chain (netlist : s.graph.IsNetlist)
    (resolved : Waypoints.resolve s.graph start through stop = .ok w)
    (supported : all = true → through = []) (broken : ¬ w.points.IsChain s.graph.Reaches) :
    ∃ source target, (s.between all start through stop).result =
      .error (s.graph.noPath source target) := by
  have coherent := netlist.coherent
  have inside := (Waypoints.resolve_ok resolved).inside netlist.indexed
  cases all with
  | true =>
    have direct := (Waypoints.through_eq_nil_iff resolved).mpr (supported rfl)
    obtain ⟨source, target, answer⟩ := coherent.allPaths_of_not_chain inside direct broken
    refine ⟨source, target, ?_⟩
    rw [between_all resolved, answer]
    rfl
  | false =>
    obtain ⟨source, target, answer⟩ := coherent.anyPath_of_not_chain inside broken
    refine ⟨source, target, ?_⟩
    rw [between_any resolved, answer]
    rfl

/-- What a search between two ends can come to. -/
inductive Outcome (s : Session) (all : Bool) (start : String) (through : List String)
    (stop : String) : Except PathError Answer → Prop
  | missing {name : String}
      (failed : Waypoints.resolve s.graph start through stop = .error (.vertexNotFound name)) :
      Outcome s all start through stop (.error (.vertexNotFound name))
  | unsupported (asked : all = true) (more : through ≠ []) :
      Outcome s all start through stop (.error (.unsupported .throughPointsForAllPaths))
  | apart {w : Waypoints} (resolved : Waypoints.resolve s.graph start through stop = .ok w)
      (broken : ¬ w.points.IsChain s.graph.Reaches) (source target : VertexId) :
      Outcome s all start through stop (.error (s.graph.noPath source target))
  | found {w : Waypoints} {answer : Answer}
      (resolved : Waypoints.resolve s.graph start through stop = .ok w)
      (chain : w.points.IsChain s.graph.Reaches) (nonempty : answer.toPaths ≠ [])
      (routes : ∀ path ∈ answer.toPaths, IsRoute s.graph.Edge w.points path) :
      Outcome s all start through stop (.ok answer)

theorem between_outcome (netlist : s.graph.IsNetlist) (all : Bool) (start : String)
    (through : List String) (stop : String) :
    Outcome s all start through stop (s.between all start through stop).result := by
  rcases Waypoints.resolve_cases s.graph start through stop with ⟨w, resolved⟩ | ⟨name, failed⟩
  · by_cases supported : all = true → through = []
    · by_cases chain : w.points.IsChain s.graph.Reaches
      · obtain ⟨answer, result, nonempty, routes⟩ :=
          between_of_chain netlist resolved supported chain
        rw [result]
        exact .found resolved chain nonempty routes
      · obtain ⟨source, target, result⟩ := between_of_not_chain netlist resolved supported chain
        rw [result]
        exact .apart resolved chain source target
    · obtain ⟨rfl, more⟩ := Classical.not_imp.mp supported
      rw [between_unsupported resolved more]
      exact .unsupported rfl more
  · rw [between_unresolved failed]
    exact .missing failed

/-- Whether all paths are asked for, by the question itself or else by the configuration. -/
def asksAll (s : Session) (q : Query) : Bool := q.allPaths.getD s.config.effectiveAllPaths

/-- How a question with two ends is answered. -/
structure AnswersBetween (s : Session) (q : Query) (start stop : String) : Prop where
  missing : ∀ name, (s.ask q).result = .error (.vertexNotFound name) ↔
    s.graph.FirstMissing (Waypoints.roles start q.through stop) name
  unsupported :
    (∀ point ∈ Waypoints.roles start q.through stop, s.graph.Offers point.1 point.2) →
      ((∃ question, (s.ask q).result = .error (.unsupported question)) ↔
        s.asksAll q = true ∧ q.through ≠ [])
  found : ∀ ids, Waypoints.Stand s.graph (Waypoints.roles start q.through stop) ids →
    (s.asksAll q = true → q.through = []) →
      ((∃ answer, (s.ask q).result = .ok answer) ↔ ids.IsChain s.graph.Reaches)
  routes : ∀ answer, (s.ask q).result = .ok answer →
    ∃ ids, Waypoints.Stand s.graph (Waypoints.roles start q.through stop) ids ∧
      answer.toPaths ≠ [] ∧ ∀ path ∈ answer.toPaths, IsRoute s.graph.Edge ids path

/-- How a question with one end is answered, which asks for a fan of paths at that end. -/
structure AnswersFan (s : Session) (q : Query) (name : String) (role : Role)
    (IsFanPath : VertexId → Path → Prop) : Prop where
  missing : ¬ s.graph.Offers name role → (s.ask q).result = .error (.vertexNotFound name)
  paths : s.graph.Offers name role →
    ∃ root paths, s.graph.resolve name role = .ok root ∧ (s.ask q).result = .ok (.paths paths) ∧
      ∀ path ∈ paths, IsFanPath root path

variable {q : Query}

theorem ask_between (first : q.start = some start) (last : q.stop = some stop) :
    s.ask q = s.between (s.asksAll q) start q.through stop := by
  rw [ask, first, last]
  rfl

theorem ask_from (first : q.start = some start) (last : q.stop = none) (direct : q.through = []) :
    (s.ask q).result = s.graph.resolve start .start >>= fun root =>
      (s.graph.fanOut root).result.map .paths := by
  simp only [ask, first, last, direct, ne_eq, not_true, if_false, Traced.result_bind,
    Traced.result_ofExcept]
  congr 1

theorem ask_to (first : q.start = none) (last : q.stop = some stop) (direct : q.through = []) :
    (s.ask q).result = s.graph.resolve stop .stop >>= fun root =>
      (s.graph.fanIn root).result.map .paths := by
  simp only [ask, first, last, direct, ne_eq, not_true, if_false, Traced.result_bind,
    Traced.result_ofExcept]
  congr 1

theorem ask_through (ends : q.start = none ∨ q.stop = none) (more : q.through ≠ []) :
    s.ask q = .fail (.unsupported .throughPointsWithoutEnds) := by
  rw [ask]
  split
  · rename_i first last
    simp [first, last] at ends
  · rw [if_pos more]

theorem ask_nothing (first : q.start = none) (last : q.stop = none) (direct : q.through = []) :
    s.ask q = .fail (.unsupported .noEnds) := by
  simp [ask, first, last, direct]

theorem answersBetween (netlist : s.graph.IsNetlist) (first : q.start = some start)
    (last : q.stop = some stop) : s.AnswersBetween q start stop := by
  have outcome := between_outcome netlist (s.asksAll q) start q.through stop
  have indexed := netlist.indexed
  rw [← ask_between first last] at outcome
  constructor
  · intro name
    rw [← Waypoints.resolve_missing_iff indexed]
    constructor
    · intro failed
      rw [failed] at outcome
      cases outcome with
      | missing failed => exact failed
    · intro failed
      rw [ask_between first last]
      exact between_unresolved failed
  · intro offers
    constructor
    · rintro ⟨question, failed⟩
      rw [failed] at outcome
      cases outcome with
      | unsupported asked more => exact ⟨asked, more⟩
    · rintro ⟨asked, more⟩
      obtain ⟨w, resolved⟩ := Waypoints.resolve_of_offers indexed offers
      refine ⟨.throughPointsForAllPaths, ?_⟩
      rw [ask_between first last, asked]
      exact between_unsupported resolved more
  · intro ids stand supported
    obtain ⟨w, resolved, rfl⟩ := Waypoints.resolve_of_stand stand
    constructor
    · rintro ⟨answer, ok⟩
      rw [ok] at outcome
      cases outcome with
      | found same chain =>
        obtain rfl := Except.ok.inj (resolved.symm.trans same)
        exact chain
    · intro chain
      obtain ⟨answer, ok, _⟩ := between_of_chain netlist resolved supported chain
      rw [ask_between first last]
      exact ⟨answer, ok⟩
  · intro answer ok
    rw [ok] at outcome
    cases outcome with
    | found resolved chain nonempty routes =>
      exact ⟨_, Waypoints.resolve_ok resolved, nonempty, routes⟩

theorem answersFan {role : Role} {IsFanPath : VertexId → Path → Prop}
    {fan : VertexId → Except PathError (List Path)} (indexed : s.graph.Indexed)
    (result : (s.ask q).result = s.graph.resolve name role >>= fun root => (fan root).map .paths)
    (found : ∀ root, root < s.graph.vertexCount →
      ∃ paths, fan root = .ok paths ∧ ∀ path ∈ paths, IsFanPath root path) :
    s.AnswersFan q name role IsFanPath := by
  constructor
  · intro missing
    rw [result, indexed.resolve_error_iff.mpr missing]
    rfl
  · intro offers
    obtain ⟨root, resolved⟩ := indexed.resolve_ok_iff.mpr offers
    obtain ⟨paths, answer, each⟩ := found root (indexed.resolve_inside resolved)
    refine ⟨root, paths, resolved, ?_, each⟩
    rw [result, resolved, Traced.ok_bind, answer]
    rfl

theorem answersFrom (netlist : s.graph.IsNetlist) (first : q.start = some start)
    (last : q.stop = none) (direct : q.through = []) :
    s.AnswersFan q start .start s.graph.IsFanOutPath :=
  answersFan netlist.indexed (ask_from first last direct) fun _ inside =>
    netlist.coherent.fanOut_paths netlist.indexed inside

theorem answersTo (netlist : s.graph.IsNetlist) (first : q.start = none)
    (last : q.stop = some stop) (direct : q.through = []) :
    s.AnswersFan q stop .stop s.graph.IsFanInPath :=
  answersFan netlist.indexed (ask_to first last direct) fun _ inside =>
    netlist.coherent.fanIn_paths netlist.indexed inside

theorem isAnswer_of_ask_between {error : PathError} (netlist : s.graph.IsNetlist)
    (first : q.start = some start) (last : q.stop = some stop)
    (failed : (s.ask q).result = .error error) : error.IsAnswer := by
  have outcome := between_outcome netlist (s.asksAll q) start q.through stop
  rw [← ask_between first last, failed] at outcome
  cases outcome with
  | missing => trivial
  | unsupported => trivial
  | apart => trivial

theorem AnswersFan.isAnswer {role : Role} {IsFanPath : VertexId → Path → Prop} {error : PathError}
    (contract : s.AnswersFan q name role IsFanPath) (failed : (s.ask q).result = .error error) :
    error.IsAnswer := by
  by_cases offers : s.graph.Offers name role
  · obtain ⟨root, paths, _, ok, _⟩ := contract.paths offers
    rw [failed] at ok
    cases ok
  · have same := failed.symm.trans (contract.missing offers)
    obtain rfl := Except.error.inj same
    trivial

theorem isAnswer_of_ask {error : PathError} (netlist : s.graph.IsNetlist)
    (failed : (s.ask q).result = .error error) : error.IsAnswer := by
  -- Without two ends, points to pass through decide before anything is looked up.
  have throughFails (ends : q.start = none ∨ q.stop = none) (more : q.through ≠ []) :
      error.IsAnswer := by
    rw [ask_through ends more] at failed
    obtain rfl := Except.error.inj failed
    trivial
  cases first : q.start with
  | none =>
    by_cases direct : q.through = []
    · cases last : q.stop with
      | none =>
        rw [ask_nothing first last direct] at failed
        obtain rfl := Except.error.inj failed
        trivial
      | some stop => exact (answersTo netlist first last direct).isAnswer failed
    · exact throughFails (.inl first) direct
  | some start =>
    cases last : q.stop with
    | none =>
      by_cases direct : q.through = []
      · exact (answersFrom netlist first last direct).isAnswer failed
      · exact throughFails (.inr last) direct
    | some stop => exact isAnswer_of_ask_between netlist first last failed

/-- The contract of a session. Only a name that stands for nothing, a missing way or a kind of
question that is not supported can keep it from an answer, and its paths go where it is asked. -/
theorem ask_contract (netlist : s.graph.IsNetlist) (q : Query) :
    (∀ error, (s.ask q).result = .error error → error.IsAnswer) ∧
      (∀ start stop, q.start = some start → q.stop = some stop →
        s.AnswersBetween q start stop) ∧
      (∀ start, q.start = some start → q.stop = none → q.through = [] →
        s.AnswersFan q start .start s.graph.IsFanOutPath) ∧
      (∀ stop, q.start = none → q.stop = some stop → q.through = [] →
        s.AnswersFan q stop .stop s.graph.IsFanInPath) ∧
      (q.start = none ∨ q.stop = none → q.through ≠ [] →
        s.ask q = .fail (.unsupported .throughPointsWithoutEnds)) ∧
      (q.start = none → q.stop = none → q.through = [] →
        s.ask q = .fail (.unsupported .noEnds)) := by
  refine ⟨?_, ?_, ?_, ?_, ask_through, ask_nothing⟩
  · intro error failed
    exact isAnswer_of_ask netlist failed
  · intro start stop first last
    exact answersBetween netlist first last
  · intro start first last direct
    exact answersFrom netlist first last direct
  · intro stop first last direct
    exact answersTo netlist first last direct

/-- The wires of the loop, asked with the standard configuration. -/
def loop : Session := { graph := Graph.loopNetlist, config := {} }

theorem loop_vertices : loop.graph.vertices.toList.map (fun v => (v.name, v.kind)) =
    [("a", .wire), ("b", .wire), ("c", .wire), ("d", .wire), ("e", .wire)] := by
  decide

theorem loop_offers (role : Role) (known : name ∈ ["a", "b", "c", "d", "e"]) :
    loop.graph.Offers name role := by
  have listed : (name, Kind.wire) ∈ loop.graph.vertices.toList.map (fun v => (v.name, v.kind)) := by
    rw [loop_vertices]
    simpa using known
  obtain ⟨v, member, same⟩ := List.mem_map.mp listed
  obtain ⟨named, kind⟩ := Prod.mk.inj same
  refine ⟨?_, v, Array.mem_toList_iff.mp member, named, ?_⟩
  · rintro rfl
    simp at known
  · rw [kind]
    cases role <;> decide

theorem loop_not_offers (role : Role) : ¬ loop.graph.Offers "z" role := by
  rintro ⟨_, v, member, named, _⟩
  have listed : (v.name, v.kind) ∈ loop.graph.vertices.toList.map (fun v => (v.name, v.kind)) :=
    List.mem_map_of_mem (Array.mem_toList_iff.mpr member)
  rw [loop_vertices, named] at listed
  simp at listed

/-- A register that feeds back through a port, whose two halves have one name. -/
def feedback : Session := { graph := Graph.feedback, config := {} }

theorem feedback_stand :
    Waypoints.Stand feedback.graph (Waypoints.roles "m.q" ["m.io"] "m.q") [0, 3, 2] :=
  .cons rfl (.cons rfl (.cons rfl .nil))

theorem feedback_fanOut {paths : List Path}
    (ok : (feedback.ask { start := some "m.io" }).result = .ok (.paths paths)) :
    ∃ path ∈ paths, IsSimplePath feedback.graph.Edge 3 2 path := by
  have netlist : feedback.graph.IsNetlist := ⟨_, rfl⟩
  have inside : 3 < feedback.graph.vertexCount := by decide
  have resolved : feedback.graph.resolve "m.io" .start = .ok 3 := rfl
  obtain ⟨found, fan, each⟩ := netlist.coherent.fanOut_onePathEach netlist.indexed inside
  rw [ask_from rfl rfl rfl, resolved, Traced.ok_bind, fan] at ok
  obtain rfl := Answer.paths.inj (Except.ok.inj ok)
  obtain ⟨path, member, _, simple⟩ := each.exists_path ⟨⟨_, rfl, by decide⟩, Graph.feedback.onward⟩
  exact ⟨path, member, simple⟩

theorem ask_contract_loop :
    loop.graph.IsNetlist ∧
      (loop.ask { start := some "a", through := ["b"], stop := some "z" }).result =
        .error (.vertexNotFound "z") ∧
      loop.ask { start := some "z", through := ["b"] } =
        .fail (.unsupported .throughPointsWithoutEnds) ∧
      (∃ root paths, loop.graph.resolve "a" .start = .ok root ∧
        (loop.ask { start := some "a" }).result = .ok (.paths paths) ∧
        ∀ path ∈ paths, loop.graph.IsFanOutPath root path) ∧
      feedback.graph.IsNetlist ∧
      (∃ answer, (feedback.ask
          { start := some "m.q", through := ["m.io"], stop := some "m.q" }).result = .ok answer ∧
        answer.toPaths ≠ [] ∧
        ∀ path ∈ answer.toPaths, IsRoute feedback.graph.Edge [0, 3, 2] path) ∧
      ∃ paths, (feedback.ask { start := some "m.io" }).result = .ok (.paths paths) ∧
        (∃ path ∈ paths, IsSimplePath feedback.graph.Edge 3 2 path) ∧
        ∀ path ∈ paths, feedback.graph.IsFanOutPath 3 path := by
  have netlist : loop.graph.IsNetlist := Graph.loopNetlist.isNetlist
  have fed : feedback.graph.IsNetlist := ⟨_, rfl⟩
  refine ⟨netlist, ?_, ?_, ?_, fed, ?_, ?_⟩
  · have contract := (ask_contract netlist
      { start := some "a", through := ["b"], stop := some "z" }).2.1 "a" "z" rfl rfl
    refine (contract.missing "z").mpr ⟨[("a", .start), ("b", .through)], .stop, [], rfl, ?_,
      loop_not_offers .stop⟩
    intro point member
    rcases List.mem_cons.mp member with rfl | member
    · exact loop_offers .start (by simp)
    · rw [List.mem_singleton.mp member]
      exact loop_offers .through (by simp)
  · exact (ask_contract netlist { start := some "z", through := ["b"] }).2.2.2.2.1 (.inr rfl)
      (by simp)
  · have contract := (ask_contract netlist { start := some "a" }).2.2.1 "a" rfl rfl rfl
    exact contract.paths (loop_offers .start (by simp))
  · have contract := (ask_contract fed
      { start := some "m.q", through := ["m.io"], stop := some "m.q" }).2.1 "m.q" "m.q" rfl rfl
    have chain : [0, 3, 2].IsChain feedback.graph.Reaches := by
      simp [Graph.feedback.back, Graph.feedback.onward, feedback]
    obtain ⟨answer, ok⟩ := (contract.found _ feedback_stand (by decide)).mpr chain
    obtain ⟨ids, stand, nonempty, routes⟩ := contract.routes answer ok
    rw [stand.unique feedback_stand] at routes
    exact ⟨answer, ok, nonempty, routes⟩
  · have contract := (ask_contract fed { start := some "m.io" }).2.2.1 "m.io" rfl rfl rfl
    obtain ⟨root, paths, resolved, ok, each⟩ :=
      contract.paths (fed.indexed.resolve_ok_iff.mp ⟨3, rfl⟩)
    obtain rfl : 3 = root := Except.ok.inj resolved
    exact ⟨paths, ok, feedback_fanOut ok, each⟩

end Session

end SignalPaths
