import GraphRules.Value

/-! Core kinds never fit where structure is expected. -/

namespace GraphRules

namespace Kind

/-- Whatever stands above a core built-in kind is core. -/
theorem isCore_of_mem_lineage {kind above : BuiltinKind} (core : kind.isCore = true)
    (listed : above ∈ kind.lineage) : above.isCore = true := by
  -- Apart from weak references, only kinds that are not core have other kinds above them.
  revert core listed
  cases kind <;> cases above <;> decide

mutual

/-- A core kind fits only where a core kind is expected. -/
theorem isCore_of_isAssignableTo :
    ∀ kind target : Kind, kind.isCore = true → kind.isAssignableTo target = true →
      target.isCore = true
  | .builtin kind, target, core, fits => by
    simp only [isAssignableTo, Bool.or_eq_true, decide_eq_true_eq, List.contains_iff_mem,
      List.mem_map] at fits
    -- A built-in kind fits its own name and those of the kinds above it.
    rcases fits with rfl | ⟨above, listed, rfl⟩
    · exact core
    · exact isCore_of_mem_lineage core listed
  | .named name supertypes, target, core, fits => by
    simp only [isAssignableTo, Bool.or_eq_true, decide_eq_true_eq] at fits
    -- A named kind is core only if all its supertypes are, through one of which it fits.
    rcases fits with rfl | above
    · exact core
    · simp only [isCore, Bool.and_eq_true] at core
      exact isCore_of_anyAssignableTo supertypes target core.2 above

/-- Among core kinds, none fits where structure is expected. -/
theorem isCore_of_anyAssignableTo :
    ∀ (kinds : List Kind) (target : Kind), allCore kinds = true →
      anyAssignableTo kinds target = true → target.isCore = true
  | [], _, _, fits => by simp [anyAssignableTo] at fits
  | kind :: rest, target, core, fits => by
    simp only [allCore, Bool.and_eq_true] at core
    simp only [anyAssignableTo, Bool.or_eq_true] at fits
    -- Either the first of the kinds fits or one of the others does.
    rcases fits with first | later
    · exact isCore_of_isAssignableTo kind target core.1 first
    · exact isCore_of_anyAssignableTo rest target core.2 later

end

/-- A kind that fits where structure is expected is not core. -/
theorem isCore_eq_false {kind target : Kind} (fits : kind.isAssignableTo target = true)
    (structured : target.isCore = false) : kind.isCore = false := by
  -- If the kind were core, so would be the kind that it fits.
  cases core : kind.isCore with
  | false => rfl
  | true => exact absurd (isCore_of_isAssignableTo kind target core fits) (by simp [structured])

/-- The kinds of maps are not core, whichever of the two kinds of maps they fit. -/
theorem isCore_of_isKeyed {kind : Kind} (keyed : kind.isKeyed = true) : kind.isCore = false := by
  -- Neither of the two is core.
  rcases Bool.or_eq_true _ _ ▸ keyed with map | dictionary
  · exact isCore_eq_false map rfl
  · exact isCore_eq_false dictionary rfl

end Kind

end GraphRules
