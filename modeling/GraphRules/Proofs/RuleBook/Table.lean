import GraphRules.Proofs.Basic
import GraphRules.Table

/-! What a table holds after the value under one key has changed. -/

namespace GraphRules

namespace Table

variable {Key Value : Type} [DecidableEq Key]

@[simp] theorem get?_empty (key : Key) : (empty : Table Key Value).get? key = none := rfl

/-- A key that is new goes behind all others. -/
theorem keys_change (table : Table Key Value) (key : Key) (fresh : Value) (change : Value → Value) :
    (table.change key fresh change).keys =
      if key ∈ table.keys then table.keys else table.keys ++ [key] :=
  keys_changeIn key fresh change table.entries

/-- The change is found under its key, and every other key has the value that it had. -/
theorem get?_change (table : Table Key Value) (key : Key) (fresh : Value) (change : Value → Value)
    (other : Key) :
    (table.change key fresh change).get? other =
      if key = other then some (change ((table.get? key).getD fresh)) else table.get? other := by
  unfold get? Table.change
  dsimp only
  induction table.entries with
  | nil => simp [changeIn, Lists.lookup_cons_eq_ite, eq_comm]
  | cons entry rest found =>
    obtain ⟨first, value⟩ := entry
    by_cases here : first = key
    · -- The search for the key ends here, and so does that for the change.
      subst here
      rw [changeIn, if_pos rfl, Lists.lookup_cons_eq_ite, Lists.lookup_cons_eq_ite,
        Lists.lookup_cons_eq_ite, if_pos rfl, Option.getD_some]
      by_cases own : first = other
      · rw [if_pos own.symm, if_pos own]
      · rw [if_neg (Ne.symm own), if_neg own, if_neg (Ne.symm own)]
    · rw [changeIn, if_neg here, Lists.lookup_cons_eq_ite, found, Lists.lookup_cons_eq_ite,
        Lists.lookup_cons_eq_ite, if_neg (Ne.symm here)]
      -- Another key is found here exactly if it is the first one, which is not that of the change.
      by_cases asked : other = first
      · rw [if_pos asked, if_neg (asked ▸ Ne.symm here), if_pos asked]
      · rw [if_neg asked, if_neg asked]

/-- An entry is what is found under its key. -/
theorem get?_of_mem {table : Table Key Value} {key : Key} {value : Value}
    (listed : (key, value) ∈ table.entries) : table.get? key = some value := by
  obtain ⟨entries, distinct⟩ := table
  unfold get?
  dsimp only at listed ⊢
  -- The induction is on the entries, whose keys are distinct.
  induction entries with
  | nil => exact absurd listed List.not_mem_nil
  | cons entry rest found =>
    obtain ⟨unlisted, distinct⟩ := List.nodup_cons.mp distinct
    rcases List.mem_cons.mp listed with rfl | later
    · exact List.lookup_cons_self
    · -- A later entry has another key than the first.
      have listed : key ∈ rest.map (·.1) := List.mem_map_of_mem later
      have differs : key ≠ entry.1 := by
        rintro rfl
        exact unlisted listed
      rw [Lists.lookup_cons_eq_ite, if_neg differs]
      exact found distinct later

/-- Nothing is found under a key that is not listed. -/
theorem get?_eq_none {table : Table Key Value} {key : Key} (unlisted : key ∉ table.keys) :
    table.get? key = none := by
  rw [get?, List.lookup_eq_none_iff]
  intro entry listed
  -- An entry under the key would list it.
  have known : entry.1 ∈ table.keys := List.mem_map_of_mem listed
  refine bne_iff_ne.mpr ?_
  rintro rfl
  exact unlisted known

/-- A total goes up by one if the value that changes measures one more. -/
theorem total_change (table : Table Key Value) (measure : Value → Nat) (key : Key)
    {fresh : Value} {change : Value → Value} (none : measure fresh = 0)
    (one : ∀ value, measure (change value) = measure value + 1) :
    (table.change key fresh change).total measure = table.total measure + 1 := by
  unfold total values Table.change
  dsimp only
  -- Only the entry under the key measures more, or a new one measures one.
  induction table.entries with
  | nil => simp [changeIn, one, none]
  | cons entry rest more =>
    obtain ⟨first, value⟩ := entry
    by_cases here : first = key
    · simp only [changeIn, if_pos here, List.map_cons, List.foldr_cons, one]
      omega
    · simp only [changeIn, if_neg here, List.map_cons, List.foldr_cons] at more ⊢
      omega

end Table

end GraphRules
