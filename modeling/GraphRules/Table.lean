/-! Tables: values under distinct keys, in the order in which the keys came. -/

namespace GraphRules

/-- Values under keys, each of which is listed once. -/
structure Table (Key Value : Type) where
  entries : List (Key × Value)
  distinct : (entries.map (·.1)).Nodup

namespace Table

variable {Key Value : Type}

/-- The table without entries. -/
def empty : Table Key Value := ⟨[], List.nodup_nil⟩

/-- The keys in the order in which they came. -/
def keys (table : Table Key Value) : List Key := table.entries.map (·.1)

/-- The values in the order of their keys. -/
def values (table : Table Key Value) : List Value := table.entries.map (·.2)

def isEmpty (table : Table Key Value) : Bool := table.entries.isEmpty

/-- The sum of what the values measure. -/
def total (table : Table Key Value) (measure : Value → Nat) : Nat :=
  table.values.foldr (measure · + ·) 0

variable [DecidableEq Key]

/-- The value under a key. -/
def get? (table : Table Key Value) (key : Key) : Option Value := table.entries.lookup key

/-- Changes the value under a key, or a given value for a key that is new, among some entries. -/
def changeIn (key : Key) (fresh : Value) (change : Value → Value) :
    List (Key × Value) → List (Key × Value)
  | [] => [(key, change fresh)]
  | (other, value) :: rest =>
    if other = key then (other, change value) :: rest
    else (other, value) :: changeIn key fresh change rest

/-- A key that is new goes behind all others, and no other key moves. -/
theorem keys_changeIn (key : Key) (fresh : Value) (change : Value → Value)
    (entries : List (Key × Value)) :
    (changeIn key fresh change entries).map (·.1) =
      if key ∈ entries.map (·.1) then entries.map (·.1) else entries.map (·.1) ++ [key] := by
  -- The induction follows the search for the key.
  induction entries with
  | nil => simp [changeIn]
  | cons entry rest placed =>
    obtain ⟨other, value⟩ := entry
    by_cases found : other = key
    · simp [changeIn, found]
    · rw [changeIn, if_neg found, List.map_cons, placed]
      -- The key is listed here exactly if it is listed further on.
      by_cases listed : key ∈ rest.map (·.1)
      · simp [listed]
      · simp [listed, Ne.symm found]

/-- Changes the value under a key; a key that is new starts from a given value. -/
def change (table : Table Key Value) (key : Key) (fresh : Value) (change : Value → Value) :
    Table Key Value where
  entries := changeIn key fresh change table.entries
  distinct := by
    rw [keys_changeIn]
    split
    · exact table.distinct
    · next unlisted =>
      refine List.nodup_append.mpr ⟨table.distinct, List.pairwise_singleton _ key, ?_⟩
      intro listed known other last same
      rw [List.mem_singleton.mp last] at same
      exact unlisted (same ▸ known)

end Table

end GraphRules
