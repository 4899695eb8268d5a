import Mathlib.Data.List.Induction
import Mathlib.Data.List.Nodup

/-!
Lists without their repetitions: what `List.eraseDups` leaves is the first occurrence of each item,
in order, so that a list grows at its end or stays as it is.
-/

namespace SignalPaths

variable {α : Type} [BEq α] [LawfulBEq α]

theorem eraseDups_append_singleton (items : List α) (item : α) :
    (items ++ [item]).eraseDups =
      if item ∈ items then items.eraseDups else items.eraseDups ++ [item] := by
  rw [List.eraseDups_append]
  split
  · next old => simp [List.removeAll, old]
  · next fresh => simp [List.removeAll, fresh, List.eraseDups_cons]

theorem nodup_eraseDups (items : List α) : items.eraseDups.Nodup := by
  induction items using List.reverseRecOn with
  | nil => exact List.nodup_nil
  | append_singleton items item ih =>
    rw [eraseDups_append_singleton]
    split
    · exact ih
    · next fresh =>
      rw [← List.concat_eq_append]
      exact ih.concat (mt List.mem_eraseDups.mp fresh)

theorem eraseDups_of_nodup {items : List α} (distinct : items.Nodup) : items.eraseDups = items := by
  induction items using List.reverseRecOn with
  | nil => rfl
  | append_singleton items item ih =>
    obtain ⟨before, -, fresh⟩ := List.nodup_append.mp distinct
    have unseen : item ∉ items :=
      fun member => fresh item member item (List.mem_singleton_self item) rfl
    rw [eraseDups_append_singleton, if_neg unseen, ih before]

theorem eraseDups_append_of_subset {items others : List α} (distinct : items.Nodup)
    (known : others ⊆ items) : (items ++ others).eraseDups = items := by
  induction others using List.reverseRecOn with
  | nil => rw [List.append_nil, eraseDups_of_nodup distinct]
  | append_singleton others item ih =>
    obtain ⟨left, right⟩ := List.append_subset.mp known
    have member : item ∈ items ++ others :=
      List.mem_append_left _ (right (List.mem_singleton_self item))
    rw [← List.append_assoc, eraseDups_append_singleton, if_pos member, ih left]

end SignalPaths
