import Mathlib.Data.List.Nodup
import Mathlib.Data.List.Perm.Subperm
import PklAnalysis.Workspace.Table

/-!
What tables hold after changes.
-/

namespace PklAnalysis

namespace Table

variable {α : Type} {table : Table α} {key other : String} {value : α}

@[simp] theorem get?_remove_self : (table.remove key).get? key = none := by
  simp [get?, remove, List.find?_filter]

theorem get?_remove_of_ne (hne : other ≠ key) :
    (table.remove key).get? other = table.get? other := by
  have hpredicate : ∀ entry : String × α,
      (entry.1 ≠ key ∧ entry.1 = other) = (entry.1 = other) := by
    intro entry
    exact propext (and_iff_right_of_imp fun hother => hother ▸ hne)
  simp [get?, remove, List.find?_filter, hpredicate]

theorem entries_insert :
    (table.insert key value).entries =
      (table.remove key).entries ++ [(key, value)] :=
  rfl

@[simp] theorem get?_insert_self :
    (table.insert key value).get? key = some value := by
  have hremoved :
      (table.remove key).entries.find? (fun entry => entry.1 = key) = none :=
    Option.map_eq_none_iff.mp get?_remove_self
  simp [get?, entries_insert, List.find?_append, hremoved]

theorem get?_insert_of_ne (hne : other ≠ key) :
    (table.insert key value).get? other = table.get? other := by
  have hlast :
      ([(key, value)] : List (String × α)).find? (fun entry =>
        entry.1 = other) = none := by
    simp [hne.symm]
  rw [get?, entries_insert, List.find?_append, hlast, Option.or_none, ← get?,
    get?_remove_of_ne hne]

theorem get?_remove :
    (table.remove key).get? other = if other = key then none else
      table.get? other := by
  split
  case isTrue hsame => rw [hsame, get?_remove_self]
  case isFalse hne => exact get?_remove_of_ne hne

theorem get?_insert :
    (table.insert key value).get? other = if other = key then some value else
      table.get? other := by
  split
  case isTrue hsame => rw [hsame, get?_insert_self]
  case isFalse hne => exact get?_insert_of_ne hne

theorem remove_entries_of_get?_eq_none (hnone : table.get? key = none) :
    (table.remove key).entries = table.entries := by
  refine List.filter_eq_self.mpr fun entry hentry => ?_
  simpa using List.find?_eq_none.mp (Option.map_eq_none_iff.mp hnone)
    entry hentry

theorem keys_insert_of_get?_eq_none (hnone : table.get? key = none) :
    (table.insert key value).keys = table.keys ++ [key] := by
  rw [keys, entries_insert, remove_entries_of_get?_eq_none hnone,
    List.map_append, ← keys]
  rfl

theorem length_keys : table.keys.length = table.size :=
  List.length_map _

theorem size_insert_of_get?_eq_none (hnone : table.get? key = none) :
    (table.insert key value).size = table.size + 1 := by
  rw [← length_keys, keys_insert_of_get?_eq_none hnone, List.length_append,
    length_keys, List.length_singleton]

theorem size_le_of_keys_subset {keys : List String} (hsub : table.keys ⊆ keys) :
    table.size ≤ keys.length := by
  rw [← length_keys]
  exact (List.Nodup.subperm table.nodup hsub).length_le

end Table

end PklAnalysis
