/-!
Tables of values by key.
-/

namespace PklAnalysis

/-- Values by key; no key occurs twice. -/
structure Table (α : Type) where
  entries : List (String × α)
  nodup : (entries.map Prod.fst).Nodup

namespace Table

variable {α : Type}

def empty : Table α :=
  { entries := [], nodup := .nil }

def keys (table : Table α) : List String :=
  table.entries.map Prod.fst

def size (table : Table α) : Nat :=
  table.entries.length

def get? (table : Table α) (key : String) : Option α :=
  (table.entries.find? fun entry => entry.1 = key).map Prod.snd

def remove (table : Table α) (key : String) : Table α where
  entries := table.entries.filter fun entry => entry.1 ≠ key
  nodup := table.nodup.sublist (List.filter_sublist.map Prod.fst)

theorem notMem_keys_remove (table : Table α) (key : String) :
    key ∉ (table.remove key).keys := by
  simp [keys, remove]

/-- A table with one more value; the value of the same key gives way. -/
def insert (table : Table α) (key : String) (value : α) : Table α where
  entries := (table.remove key).entries ++ [(key, value)]
  nodup := by
    rw [List.map_append, List.nodup_append]
    refine ⟨(table.remove key).nodup, List.pairwise_singleton _ key,
      fun other hother same hsame => ?_⟩
    rintro rfl
    obtain rfl : other = key := List.mem_singleton.mp hsame
    exact table.notMem_keys_remove other hother

end Table

end PklAnalysis
