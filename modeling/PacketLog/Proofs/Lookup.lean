import Mathlib.Data.List.Basic

/-!
# Tables of names

The names in a directory, the handles of a device and the slots of a shelf are lists of
pairs in which the first pair with a name counts.  To take a name out of such a table
touches no other name.
-/

namespace PacketLog

variable {α : Type} {table : List (String × α)} {name other : String}

theorem lookup_filter_self (table : List (String × α)) (name : String) :
    (table.filter fun entry => entry.1 ≠ name).lookup name = none := by
  rw [List.lookup_eq_none_iff]
  intro entry hMem
  have hOther := (List.mem_filter.mp hMem).2
  rw [decide_eq_true_iff] at hOther
  exact bne_iff_ne.mpr hOther.symm

theorem lookup_filter_of_ne (table : List (String × α)) (hNe : other ≠ name) :
    (table.filter fun entry => entry.1 ≠ name).lookup other = table.lookup other := by
  induction table with
  | nil => rfl
  | cons entry later ih =>
    obtain ⟨key, value⟩ := entry
    by_cases hKey : key = name
    · have hOther : other ≠ key := hKey ▸ hNe
      rw [List.filter_cons_of_neg (by simpa using hKey), ih, List.lookup_cons,
        beq_false_of_ne hOther]
    · rw [List.filter_cons_of_pos (by simpa using hKey), List.lookup_cons, List.lookup_cons, ih]

theorem mem_of_lookup {value : α} (hLookup : table.lookup name = some value) :
    (name, value) ∈ table := by
  obtain ⟨earlier, later, rfl, -⟩ := List.lookup_eq_some_iff.mp hLookup
  exact List.mem_append_right _ List.mem_cons_self

end PacketLog
