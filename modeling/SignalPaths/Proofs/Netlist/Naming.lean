import SignalPaths.Config
import SignalPaths.Proofs.Computation

/-!
Signals of the top module. Whether a signal is one of them can be told from the segments of its
name. The top prefix is a segment of its own: it is taken off where it is the whole first segment
and others follow, and stays where the first segment only starts with it.
-/

namespace SignalPaths

namespace Naming

variable {naming : Naming} {name first : List Char}

theorem segments_append (whole : separator ∉ first) (rest : List Char) :
    segments (first ++ separator :: rest) = first :: segments rest :=
  List.splitOn_append_cons_self_of_not_mem whole rest

/-- A segment that others follow ends at a separator. -/
theorem exists_append_of_segments {second : List Char} {others : List (List Char)}
    (cut : segments name = first :: second :: others) :
    ∃ rest, name = first ++ separator :: rest := by
  have joined : [separator].intercalate (segments name) = name :=
    List.intercalate_splitOn separator
  rw [cut, List.intercalate_cons_cons, List.append_assoc] at joined
  exact ⟨_, joined.symm⟩

theorem length_segments (name : List Char) :
    (segments name).length = name.count separator + 1 := by
  induction name with
  | nil => rfl
  | cons c rest ih =>
    rw [segments, List.splitOn_cons_eq_if_modifyHead, ← segments, List.count_cons]
    split <;> simp [ih]

theorem stripTop_append (naming : Naming) (rest : List Char) :
    naming.stripTop (naming.topPrefix.toList ++ separator :: rest) = rest := by
  rw [List.append_cons]
  simp [stripTop]

theorem stripTop_eq_self
    (unprefixed : ∀ rest, name ≠ naming.topPrefix.toList ++ separator :: rest) :
    naming.stripTop name = name := by
  apply if_neg
  rw [List.isPrefixOf_iff_prefix]
  rintro ⟨rest, rfl⟩
  exact unprefixed rest (List.append_cons _ _ _).symm

theorem isTop_iff_length {name : String} :
    naming.isTop name = true ↔ (segments (naming.stripTop name.toList)).length = 2 := by
  rw [isTop, beq_iff_eq]

theorem isTop_prefixed (naming : Naming) (inner : String) :
    naming.isTop (naming.topPrefix ++ "." ++ inner) = true ↔ inner.toList.count separator = 1 := by
  have stripped := naming.stripTop_append inner.toList
  have spelled : (naming.topPrefix ++ "." ++ inner).toList =
      naming.topPrefix.toList ++ separator :: inner.toList := by simp [separator]
  rw [isTop_iff_length, spelled, stripped, length_segments]
  omega

theorem isTop_iff_of_prefixed (single : separator ∉ naming.topPrefix.toList) {name : String}
    {rest : List Char} (spelled : name.toList = naming.topPrefix.toList ++ separator :: rest) :
    naming.isTop name = true ↔
      ∃ scope signal, segments name.toList = [naming.topPrefix.toList, scope, signal] := by
  rw [isTop_iff_length, spelled, naming.stripTop_append, segments_append single,
    List.length_eq_two]
  simp only [List.cons.injEq, true_and]

theorem isTop_iff_of_unprefixed {name : String}
    (unprefixed : ∀ rest, name.toList ≠ naming.topPrefix.toList ++ separator :: rest) :
    naming.isTop name = true ↔ ∃ scope signal, segments name.toList = [scope, signal] := by
  rw [isTop_iff_length, stripTop_eq_self unprefixed, List.length_eq_two]

/-- The prefix is taken off by whole segments. -/
theorem stripTop_of_segments_ne (single : separator ∉ naming.topPrefix.toList)
    {others : List (List Char)} (cut : segments name = first :: others)
    (other : first ≠ naming.topPrefix.toList) : naming.stripTop name = name := by
  apply stripTop_eq_self
  rintro rest rfl
  rw [segments_append single] at cut
  exact other (List.cons.inj cut).1.symm

end Naming

theorem Config.naming_single {c : Config} (valid : c.validate = .ok ()) :
    Naming.separator ∉ c.naming.topPrefix.toList := by
  obtain ⟨_, _, later⟩ := except_bind_ok valid
  obtain ⟨_, checked, _⟩ := except_bind_ok later
  change Naming.separator ∉ (c.topPrefix.getD Naming.defaultTopPrefix).toList
  cases set : c.topPrefix with
  | none => decide
  | some top =>
    rw [Config.checkTopPrefix, set] at checked
    simpa using checked

namespace Naming

/-- A name is that of a top signal exactly if it has two segments, and the first one is not the top
prefix, or three segments, and the first one is. -/
theorem isTop_iff_segments (naming : Naming) (single : separator ∉ naming.topPrefix.toList)
    (name : String) :
    let top := naming.topPrefix.toList
    (naming.isTop name = true ↔
      (∃ scope signal, segments name.toList = [scope, signal] ∧ scope ≠ top) ∨
        ∃ scope signal, segments name.toList = [top, scope, signal]) ∧
    (∀ inner : String, naming.isTop (naming.topPrefix ++ "." ++ inner) = true ↔
      inner.toList.count separator = 1) ∧
    (∀ more others, more ≠ [] → segments name.toList = (top ++ more) :: others →
      naming.stripTop name.toList = name.toList) ∧
    ∀ c : Config, c.validate = .ok () → separator ∉ c.naming.topPrefix.toList := by
  intro top
  refine ⟨?_, naming.isTop_prefixed, ?_, fun c => Config.naming_single⟩
  · by_cases prefixed : ∃ rest, name.toList = top ++ separator :: rest
    · obtain ⟨rest, spelled⟩ := prefixed
      rw [isTop_iff_of_prefixed single spelled]
      refine ⟨.inr, ?_⟩
      rintro (⟨scope, signal, cut, other⟩ | three)
      · rw [spelled, segments_append single] at cut
        exact absurd (List.cons.inj cut).1.symm other
      · exact three
    · rw [isTop_iff_of_unprefixed fun rest spelled => prefixed ⟨rest, spelled⟩]
      constructor
      · rintro ⟨scope, signal, cut⟩
        refine .inl ⟨scope, signal, cut, ?_⟩
        rintro rfl
        exact prefixed (exists_append_of_segments cut)
      · rintro (⟨scope, signal, cut, _⟩ | ⟨scope, signal, cut⟩)
        · exact ⟨scope, signal, cut⟩
        · exact absurd (exists_append_of_segments cut) prefixed
  · intro more others longer cut
    apply stripTop_of_segments_ne single cut
    simpa [top] using longer

/-- One first segment starts with the prefix and is longer; the other prefix is empty. -/
theorem isTop_iff_segments_overlapping :
    let naming : Naming := ⟨"TOP", []⟩
    let bare : Config := { topPrefix := some "" }
    (separator ∉ naming.topPrefix.toList ∧ naming.isTop "TOPLEVEL.clk" = true ∧
      naming.stripTop "TOPLEVEL.clk".toList = "TOPLEVEL.clk".toList ∧
      naming.isTop ("TOP" ++ "." ++ "TOP.clk") = true) ∧
    bare.validate = .ok () ∧ separator ∉ bare.naming.topPrefix.toList ∧
      bare.naming.isTop ".counter.clk" = true ∧ ¬ bare.naming.isTop ".clk" = true := by
  intro naming bare
  have single : separator ∉ naming.topPrefix.toList := by decide
  have unset : separator ∉ bare.naming.topPrefix.toList := by decide
  have longer := isTop_iff_segments naming single "TOPLEVEL.clk"
  have led := isTop_iff_segments bare.naming unset ".counter.clk"
  have short := isTop_iff_segments bare.naming unset ".clk"
  have valid : bare.validate = .ok () := rfl
  refine ⟨⟨single, longer.1.mpr (.inl ⟨_, _, rfl, by decide⟩),
      longer.2.2.1 "LEVEL".toList ["clk".toList] (by decide) (by decide),
      (longer.2.1 "TOP.clk").mpr (by decide)⟩,
    valid, led.2.2.2 bare valid, led.1.mpr (.inr ⟨_, _, rfl⟩), ?_⟩
  rw [short.1]
  rintro (⟨scope, signal, cut, other⟩ | ⟨scope, signal, cut⟩)
  · exact other (List.cons.inj cut).1.symm
  · cases cut

end Naming

end SignalPaths
