import GraphRules.Value
import Mathlib.Data.List.Induction

/-! The equality that collections and maps see, which is symmetric and transitive. -/

namespace GraphRules

/-- Numeric equality may be asked from either side. -/
theorem Double.equal_comm (left right : Double) : left.equal right = right.equal left := by
  -- Only finite numbers are compared, by their counts of units.
  cases left <;> cases right <;> simp [equal, Bool.beq_comm]

/-- Numeric equality carries over. -/
theorem Double.equal_trans {left middle right : Double} (one : left.equal middle = true)
    (two : middle.equal right = true) : left.equal right = true := by
  -- Only finite numbers are compared, by their counts of units.
  cases left <;> cases middle <;> cases right <;> simp_all [equal]

namespace Value

/-- Equality may be asked from either side. -/
theorem equal_comm (left right : Value) : left.equal right = right.equal left := by
  -- The induction goes through the boxes, and values of different shapes are unequal from both
  -- sides.
  induction left generalizing right with
  | present payload same =>
    cases right with
    | present other => exact same other
    | _ => rfl
  | strong referent same =>
    cases right with
    | strong other => exact same other
    | _ => rfl
  | float content =>
    cases right with
    | float other => exact content.equal_comm other
    | _ => rfl
  | decimal content =>
    cases right with
    | decimal other => exact Bool.beq_comm
    | _ => rfl
  | _ => cases right <;> first | rfl | exact Bool.beq_comm

/-- Equality carries over, whatever forms the values have. -/
theorem equal_trans {left middle right : Value} (one : left.equal middle = true)
    (two : middle.equal right = true) : left.equal right = true := by
  -- The value in the middle has the same shape as the first, and then so has the last one.
  induction left generalizing middle right with
  -- What wraps a value is compared by what is inside.
  | present payload through =>
    cases middle with
    | present inner =>
      cases right with
      | present last => exact through one two
      | _ => exact absurd two Bool.false_ne_true
    | _ => exact absurd one Bool.false_ne_true
  | strong referent through =>
    cases middle with
    | strong inner =>
      cases right with
      | strong last => exact through one two
      | _ => exact absurd two Bool.false_ne_true
    | _ => exact absurd one Bool.false_ne_true
  -- Numbers are compared as such, whatever their form.
  | float content =>
    cases middle with
    | float inner =>
      cases right with
      | float last => exact Double.equal_trans one two
      | _ => exact absurd two Bool.false_ne_true
    | _ => exact absurd one Bool.false_ne_true
  | decimal content =>
    cases middle with
    | decimal inner =>
      cases right with
      | decimal last => exact beq_iff_eq.mpr ((beq_iff_eq.mp one).trans (beq_iff_eq.mp two))
      | _ => exact absurd two Bool.false_ne_true
    | _ => exact absurd one Bool.false_ne_true
  | _ =>
    -- All other values are equal only where they are the same.
    cases middle <;> first
      | exact absurd one Bool.false_ne_true
      | exact two
      | exact beq_iff_eq.mp one ▸ two

/-- Equal values are equal to the same values. -/
theorem equal_congr {left right : Value} (same : left.equal right = true) (other : Value) :
    left.equal other = right.equal other := by
  -- Going over to an equal value and back is transitivity.
  refine Bool.eq_iff_iff.mpr ⟨fun equals => ?_, equal_trans same⟩
  exact equal_trans ((equal_comm right left).trans same) equals

/-- No two of these values are equal, whichever of them is asked. -/
def Apart (values : List Value) : Prop :=
  values.Pairwise fun earlier later => earlier.equal later = false ∧ later.equal earlier = false

/-- Texts are apart where no two are the same. -/
theorem apart_texts {names : List String} (distinct : names.Nodup) : Apart (names.map text) := by
  -- Texts are equal exactly when they are the same.
  refine List.pairwise_map.mpr (distinct.imp fun differs => ?_)
  exact ⟨beq_eq_false_iff_ne.mpr differs, beq_eq_false_iff_ne.mpr differs.symm⟩

/-! ### The first of equal values -/

/-- Scanning one more value keeps it last, unless it is related to one of those kept. -/
theorem eraseDupsBy_loop_concat (related : Value → Value → Bool) (values : List Value)
    (last : Value) (seen : List Value) :
    List.eraseDupsBy.loop related (values ++ [last]) seen =
      if (List.eraseDupsBy.loop related values seen).any (related last) then
        List.eraseDupsBy.loop related values seen
      else List.eraseDupsBy.loop related values seen ++ [last] := by
  induction values generalizing seen with
  | nil =>
    -- What is seen is listed with the latest in front.
    cases known : seen.any (related last) <;> simp [List.eraseDupsBy.loop, known]
  | cons first rest scanned =>
    cases known : seen.any (related first) <;> simp [List.eraseDupsBy.loop, known, scanned]

/-- One more value is kept behind the others, unless it equals one of those kept. -/
theorem eraseDupsBy_concat (values : List Value) (last : Value) :
    (values ++ [last]).eraseDupsBy equal =
      if (values.eraseDupsBy equal).any (·.equal last) then values.eraseDupsBy equal
      else values.eraseDupsBy equal ++ [last] := by
  -- The last value is compared to those kept so far, in either direction.
  have either : (fun kept : Value => kept.equal last) = last.equal :=
    funext fun kept => kept.equal_comm last
  rw [either]
  exact eraseDupsBy_loop_concat equal values last []

/-- Among the first of equal values, no two are equal. -/
theorem apart_eraseDupsBy (values : List Value) : Apart (values.eraseDupsBy equal) := by
  -- The induction is on the values from the last one, kept only if none kept before is equal to it.
  induction values using List.reverseRecOn with
  | nil => exact .nil
  | append_singleton values last apart =>
    rw [eraseDupsBy_concat]
    split
    · exact apart
    · next fresh =>
      refine List.pairwise_append.mpr
        ⟨apart, List.pairwise_singleton _ _, fun kept listed other same => ?_⟩
      obtain rfl := List.mem_singleton.mp same
      have unequal : kept.equal other = false := by
        simpa using fun equals => fresh (List.any_eq_true.mpr ⟨kept, listed, equals⟩)
      exact ⟨unequal, (other.equal_comm kept).trans unequal⟩

end Value

end GraphRules
