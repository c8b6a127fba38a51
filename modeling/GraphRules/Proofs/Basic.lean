import Mathlib.Data.List.Basic
import Mathlib.Order.Lattice

/-! Facts about lists and about linear orders that several parts of the theory rest on. -/

namespace GraphRules

namespace Lists

/-! ### Lists with one more member, and lists with a test -/

/-- What a list gives with one more member: what this gives comes last. -/
theorem filterMap_concat {α β : Type} (given : α → Option β) (list : List α) (last : α) :
    (list ++ [last]).filterMap given = list.filterMap given ++ (given last).toList := by
  -- The last one is taken apart from the others.
  rw [List.filterMap_append, List.filterMap_eq_flatMap_toList given [last],
    List.flatMap_singleton]

/-- Entries made of those items that pass a test. -/
theorem flatMap_if {α β : Type} (test : α → Bool) (make : α → β) (items : List α) :
    (items.flatMap fun item => if test item then [make item] else []) =
      (items.filter test).map make := by
  -- An item that fails gives nothing, and so it might as well be left out before.
  induction items with
  | nil => rfl
  | cons item rest later =>
    rw [List.flatMap_cons, later, List.filter_cons]
    split <;> rfl

/-- Members of a list are numbered in ascending order. -/
theorem pairwise_zipIdx {α : Type} (list : List α) :
    list.zipIdx.Pairwise fun first second => first.2 < second.2 := by
  -- The numbers alone are a range.
  have ascending : (list.zipIdx.map (·.2)).Pairwise (· < ·) := by
    rw [List.zipIdx_map_snd]
    exact List.pairwise_lt_range'
  exact List.pairwise_map.mp ascending

/-- What is read one by one is read as a whole. -/
theorem mapM_eq_some_map {α β γ : Type} {read : α → Option γ} {result : β → γ} {values : List α}
    {parts : List β} (length : values.length = parts.length)
    (each : ∀ (index : Nat) (part : β) (value : α), parts[index]? = some part →
      values[index]? = some value → read value = some (result part)) :
    values.mapM read = some (parts.map result) := by
  -- Values and parts are taken off together, since there are as many of both.
  induction values generalizing parts with
  | nil =>
    obtain rfl := List.length_eq_zero_iff.mp length.symm
    rfl
  | cons value values rest =>
    cases parts with
    | nil => cases length
    | cons part parts =>
      have first : read value = some (result part) := each 0 part value rfl rfl
      have others : values.mapM read = some (parts.map result) :=
        rest (Nat.succ.inj length) fun index => each (index + 1)
      rw [List.mapM_cons, first, others]
      rfl

/-! ### Entries under keys -/

variable {Key Value : Type} [BEq Key] [LawfulBEq Key]

/-- Entries are searched for a key from the front. -/
theorem lookup_cons_eq_ite [DecidableEq Key] (key first : Key) (value : Value)
    (rest : List (Key × Value)) :
    ((first, value) :: rest).lookup key = if key = first then some value else rest.lookup key := by
  -- The search compares by a Boolean equality, which is that of the type.
  by_cases asked : key = first
  · subst asked
    rw [List.lookup_cons_self, if_pos rfl]
  · have differs : (key == first) = false := beq_eq_false_iff_ne.mpr asked
    rw [List.lookup_cons, differs, if_neg asked]

/-- A key is found from either end or from neither. -/
theorem isSome_lookup_reverse (entries : List (Key × Value)) (key : Key) :
    (entries.reverse.lookup key).isSome = (entries.lookup key).isSome := by
  -- A key is found wherever its entry stands.
  rw [Bool.eq_iff_iff, List.lookup_isSome_iff, List.lookup_isSome_iff]
  simp

/-- What is found under a key is an entry. -/
theorem mem_of_lookup {entries : List (Key × Value)} {key : Key} {value : Value}
    (found : entries.lookup key = some value) : (key, value) ∈ entries := by
  -- An entry that is found splits the list at its place.
  obtain ⟨before, after, split, -⟩ := List.lookup_eq_some_iff.mp found
  rw [split]
  exact List.mem_append_right before List.mem_cons_self

/-- If all values under a key are the same, then so are the first and the last. -/
theorem lookup_eq_lookup_reverse {entries : List (Key × Value)} {key : Key}
    (alike : ∀ one other, (key, one) ∈ entries → (key, other) ∈ entries → one = other) :
    entries.lookup key = entries.reverse.lookup key := by
  -- Either search ends at some entry under the key, or neither does.
  have both := isSome_lookup_reverse entries key
  cases first : entries.lookup key with
  | none =>
    rw [first, Option.isSome_none, Option.isSome_eq_false_iff, Option.isNone_iff_eq_none] at both
    exact both.symm
  | some one =>
    rw [first, Option.isSome_some, Option.isSome_iff_exists] at both
    obtain ⟨other, last⟩ := both
    have same := alike one other (mem_of_lookup first) (List.mem_reverse.mp (mem_of_lookup last))
    rw [last, same]

end Lists

namespace Intervals

variable {α : Type} [LinearOrder α] {low high outer point : α}

/-- Outside of an interval, below a point of it is below an inner point, but for the lower end. -/
theorem lt_iff_of_outside {inner : α} (outside : outer ≤ low ∨ high ≤ outer) (above : low ≤ point)
    (below : point ≤ high) (inside : low < inner) (inside' : inner < high) :
    outer < point ↔ outer < inner ∧ ¬(outer = low ∧ point = low) := by
  rcases outside with under | beyond
  · -- Below the interval, what is at stake is whether both meet at the lower end.
    rw [and_iff_right (under.trans_lt inside)]
    constructor
    · rintro less ⟨rfl, rfl⟩
      exact lt_irrefl _ less
    · intro different
      refine lt_of_le_of_ne (under.trans above) ?_
      rintro rfl
      exact different ⟨le_antisymm under above, le_antisymm under above⟩
  · -- Beyond the interval, no point of it is above.
    exact iff_of_false (below.trans beyond).not_gt fun less =>
      (inside'.trans_le beyond).not_gt less.1

/-- Outside of an interval, below a point of it is below any later point, but for the lower end. -/
theorem lt_of_outside {later : α} (outside : outer ≤ low ∨ high ≤ outer) (capped : point ≤ high)
    (above : low ≤ later) (lowest : later = low → point = low) (less : outer < point) :
    outer < later := by
  rcases outside with under | beyond
  · by_cases same : later = low
    · -- Then both points are the lower end.
      rw [same, ← lowest same]
      exact less
    · exact under.trans_lt (lt_of_le_of_ne above (Ne.symm same))
  · exact absurd (less.trans_le capped) beyond.not_gt

end Intervals

end GraphRules
