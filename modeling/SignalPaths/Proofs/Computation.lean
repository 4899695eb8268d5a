import Mathlib.Data.List.Forall2
import SignalPaths.Traced

/-!
Computations that may fail, run over the items of a list: all of them succeed, or the first one that
fails decides. Traced computations succeed and fail as their results do. Computations on a state
have it at hand after a failure too.
-/

namespace SignalPaths

variable {ε α β γ : Type}

theorem except_bind_error {first : Except ε α} {next : α → Except ε β} {error : ε}
    (failed : (first >>= next) = .error error) :
    first = .error error ∨ ∃ value, first = .ok value ∧ next value = .error error := by
  cases first with
  | error e => exact .inl (congrArg Except.error (Except.error.inj failed))
  | ok value => exact .inr ⟨value, rfl, failed⟩

section State

variable {σ : Type} {first : ExceptT ε (StateM σ) α} {next : α → ExceptT ε (StateM σ) β}
  {before after : σ}

theorem run_get (state : σ) : (get : ExceptT ε (StateM σ) σ).run.run state = (.ok state, state) :=
  rfl

theorem run_bind_ok {value : α} (ok : first.run.run before = (.ok value, after)) :
    (first >>= next).run.run before = (next value).run.run after := by
  rw [ExceptT.run_bind, StateT.run_bind, ok]
  rfl

theorem run_bind_error {error : ε} (failed : first.run.run before = (.error error, after)) :
    (first >>= next).run.run before = (.error error, after) := by
  rw [ExceptT.run_bind, StateT.run_bind, failed]
  rfl

end State

/-- Outcomes that leave nothing out are all the outcomes there are. -/
theorem outcome_iff {result : Except ε α} {good : α → Prop} {bad : ε → Prop}
    (succeeds : ∀ value, good value → result = .ok value)
    (fails : ∀ error, bad error → result = .error error)
    (total : (∃ value, good value) ∨ ∃ error, bad error) :
    (∀ value, result = .ok value ↔ good value) ∧ ∀ error, result = .error error ↔ bad error := by
  obtain ⟨value, fine⟩ | ⟨error, fault⟩ := total
  · have known := succeeds value fine
    refine ⟨fun other => ⟨fun ok => ?_, succeeds other⟩,
      fun error => ⟨fun failed => ?_, fails error⟩⟩
    · rw [known] at ok
      exact Except.ok.inj ok ▸ fine
    · rw [known] at failed
      cases failed
  · have known := fails error fault
    refine ⟨fun value => ⟨fun ok => ?_, succeeds value⟩,
      fun other => ⟨fun failed => ?_, fails other⟩⟩
    · rw [known] at ok
      cases ok
    · rw [known] at failed
      exact Except.error.inj failed ▸ fault

theorem mapM_ok_iff {f : α → Except ε β} {xs : List α} {ys : List β} :
    xs.mapM f = .ok ys ↔ List.Forall₂ (fun x y => f x = .ok y) xs ys := by
  induction xs generalizing ys with
  | nil =>
    cases ys with
    | nil => simp [pure, Except.pure]
    | cons y ys => simp [pure, Except.pure]
  | cons x xs ih =>
    rw [List.mapM_cons, List.forall₂_cons_left_iff]
    constructor
    · intro ok
      obtain ⟨y, first, ok⟩ := except_bind_ok ok
      obtain ⟨rest, others, ok⟩ := except_bind_ok ok
      exact ⟨y, rest, first, ih.mp others, (Except.ok.inj ok).symm⟩
    · rintro ⟨y, rest, first, others, same⟩
      rw [first, ih.mpr others, same]
      rfl

theorem exists_forall₂ {related : α → β → Prop} {xs : List α}
    (each : ∀ x ∈ xs, ∃ y, related x y) : ∃ ys, List.Forall₂ related xs ys := by
  induction xs with
  | nil => exact ⟨[], .nil⟩
  | cons x xs ih =>
    obtain ⟨y, first⟩ := each x List.mem_cons_self
    obtain ⟨ys, others⟩ := ih fun z member => each z (List.mem_cons_of_mem _ member)
    exact ⟨y :: ys, .cons first others⟩

theorem forall₂_mem_left {related : α → β → Prop} {xs : List α} {ys : List β} {x : α}
    (all : List.Forall₂ related xs ys) (member : x ∈ xs) : ∃ y ∈ ys, related x y := by
  induction all with
  | nil => cases member
  | @cons _ y _ _ first _ ih =>
    rcases List.mem_cons.mp member with rfl | old
    · exact ⟨y, List.mem_cons_self, first⟩
    · obtain ⟨z, inside, holds⟩ := ih old
      exact ⟨z, List.mem_cons_of_mem _ inside, holds⟩

theorem forall₂_mem_right {related : α → β → Prop} {xs : List α} {ys : List β} {y : β}
    (all : List.Forall₂ related xs ys) (member : y ∈ ys) : ∃ x ∈ xs, related x y :=
  forall₂_mem_left all.flip member

/-- An item of a list is the first one, or it stands in the rest. -/
theorem exists_split_cons_iff {x : α} {xs : List α} {holds : List α → α → Prop} :
    (∃ before y after, x :: xs = before ++ y :: after ∧ holds before y) ↔
      holds [] x ∨ ∃ before y after, xs = before ++ y :: after ∧ holds (x :: before) y := by
  constructor
  · rintro ⟨before, y, after, split, found⟩
    cases before with
    | nil =>
      obtain ⟨rfl, _⟩ := List.cons.inj split
      exact .inl found
    | cons z before =>
      obtain ⟨rfl, rest⟩ := List.cons.inj split
      exact .inr ⟨before, y, after, rest, found⟩
  · rintro (first | ⟨before, y, after, split, found⟩)
    · exact ⟨[], x, xs, rfl, first⟩
    · exact ⟨x :: before, y, after, by rw [split]; rfl, found⟩

/-- Before the first failure everything goes well. -/
theorem mapM_error_iff {f : α → Except ε β} {xs : List α} {error : ε} :
    xs.mapM f = .error error ↔
      ∃ before x after, xs = before ++ x :: after ∧ (∀ y ∈ before, ∃ b, f y = .ok b) ∧
        f x = .error error := by
  induction xs with
  | nil => simp [pure, Except.pure]
  | cons x xs ih =>
    rw [List.mapM_cons, exists_split_cons_iff]
    cases first : f x with
    | error e => simp [first]
    | ok y =>
      have later : (do let rest ← xs.mapM f; pure (y :: rest) : Except ε (List β)) = .error error ↔
          xs.mapM f = .error error := by
        cases xs.mapM f with
        | error e => simp
        | ok rest => simp [pure, Except.pure]
      rw [Traced.ok_bind, later, ih]
      simp [first]

/-- A fold fails at the first item that its step refuses, in the state to which the items before it
have led. -/
theorem foldlM_error_iff {f : β → α → Except ε β} {xs : List α} {init : β} {error : ε} :
    xs.foldlM f init = .error error ↔
      ∃ before x after, xs = before ++ x :: after ∧
        ∃ middle, before.foldlM f init = .ok middle ∧ f middle x = .error error := by
  induction xs generalizing init with
  | nil => simp [pure, Except.pure]
  | cons x xs ih =>
    rw [List.foldlM_cons, exists_split_cons_iff]
    cases first : f init x with
    | error e => simp [first, pure, Except.pure]
    | ok next =>
      rw [Traced.ok_bind, ih]
      simp [first, pure, Except.pure]

/-- To combine results as they come is to compute all of them first. -/
theorem foldlM_combine (f : α → Except ε β) (combine : γ → β → γ) (xs : List α) (init : γ) :
    (xs.foldlM (fun acc x => (f x).map (combine acc)) init : Except ε γ) =
      (xs.mapM f).map (List.foldl combine init) := by
  induction xs generalizing init with
  | nil => rfl
  | cons x xs ih =>
    rw [List.foldlM_cons, List.mapM_cons]
    cases f x with
    | error e => rfl
    | ok y =>
      refine (ih (combine init y)).trans ?_
      cases xs.mapM f <;> rfl

/-- Two computations that give related results, or fail alike. -/
inductive Agree (related : α → β → Prop) : Except ε α → Except ε β → Prop where
  | ok {a : α} {b : β} (same : related a b) : Agree related (.ok a) (.ok b)
  | error (e : ε) : Agree related (.error e) (.error e)

namespace Agree

variable {δ : Type} {related : α → β → Prop} {further : γ → δ → Prop} {x : Except ε α}
  {y : Except ε β}

theorem map {f : α → γ} {k : β → δ} (agree : Agree related x y)
    (keep : ∀ a b, related a b → further (f a) (k b)) : Agree further (x.map f) (y.map k) := by
  cases agree with
  | ok same => exact .ok (keep _ _ same)
  | error e => exact .error e

theorem bind {f : α → Except ε γ} {k : β → Except ε δ} (agree : Agree related x y)
    (next : ∀ a b, related a b → Agree further (f a) (k b)) :
    Agree further (x >>= f) (y >>= k) := by
  cases agree with
  | ok same => exact next _ _ same
  | error e => exact .error e

theorem mapM {f : γ → Except ε α} {k : γ → Except ε β} (each : ∀ c, Agree related (f c) (k c))
    (items : List γ) : Agree (List.Forall₂ related) (items.mapM f) (items.mapM k) := by
  induction items with
  | nil => exact .ok .nil
  | cons item items ih =>
    rw [List.mapM_cons, List.mapM_cons]
    apply (each item).bind
    intro a b first
    apply ih.bind
    intro as bs others
    exact .ok (.cons first others)

end Agree

namespace Traced

theorem bind_of_ok {x : Traced ε α} {a : α} (ok : x.result = .ok a) (f : α → Traced ε β) :
    x >>= f = ⟨(f a).result, x.events ++ (f a).events⟩ := by
  simp [Bind.bind, Traced.bind, ok]

theorem bind_of_error {x : Traced ε α} {e : ε} (failed : x.result = .error e)
    (f : α → Traced ε β) : x >>= f = ⟨.error e, x.events⟩ := by
  simp [Bind.bind, Traced.bind, failed]

-- Kept local: with this at hand, `simp` turns the steps of a computation into maps.
local instance lawfulMonad : LawfulMonad (Traced ε) := by
  refine LawfulMonad.mk' (Traced ε) ?_ ?_ ?_
  · intro α x
    obtain ⟨result, events⟩ := x
    cases result with
    | error e => rfl
    | ok a => exact congrArg (Traced.mk (.ok a)) (List.append_nil events)
  · intro α β a f
    rfl
  · intro α β γ x f g
    cases first : x.result with
    | error e => rw [bind_of_error first, bind_of_error first, bind_of_error rfl]
    | ok a =>
      rw [bind_of_ok first, bind_of_ok first]
      cases second : (f a).result with
      | error e => rw [bind_of_error rfl, bind_of_error second]
      | ok b => rw [bind_of_ok rfl, bind_of_ok second, List.append_assoc]

theorem result_mapM (f : α → Traced ε β) (xs : List α) :
    (xs.mapM f).result = xs.mapM fun x => (f x).result := by
  induction xs with
  | nil => rfl
  | cons x xs ih => simp only [List.mapM_cons, result_bind, ih, result_pure]; rfl

theorem result_foldlM (f : β → α → Traced ε β) (xs : List α) (init : β) :
    (xs.foldlM f init).result = xs.foldlM (fun acc x => (f acc x).result) init := by
  induction xs generalizing init with
  | nil => rfl
  | cons x xs ih => simp only [List.foldlM_cons, result_bind, ih]

end Traced

end SignalPaths
