import GraphRules.Proofs.Rule.Thresholds
import GraphRules.Rule.Size
import GraphRules.Rule.Text
import Mathlib.Data.List.TakeWhile

/-! The contract of the rules that come with the library. -/

namespace GraphRules

/-! ### White space -/

/-- The code points of the characters that have the Unicode property of white space. -/
def whiteSpacePoints : List Nat :=
  -- Controls, the space, and the two of Latin-1.
  [0x9, 0xA, 0xB, 0xC, 0xD, 0x20, 0x85, 0xA0] ++
  -- The spaces of other scripts and of typography.
  [0x1680, 0x2000, 0x2001, 0x2002, 0x2003, 0x2004, 0x2005, 0x2006, 0x2007, 0x2008, 0x2009,
    0x200A] ++
  -- The separators of lines and paragraphs, and the last three spaces.
  [0x2028, 0x2029, 0x202F, 0x205F, 0x3000]

/-- The test for white space knows exactly these characters. -/
theorem isWhiteSpace_iff (c : Char) : isWhiteSpace c = true ↔ c.toNat ∈ whiteSpacePoints := by
  -- The ranges of the test are written out in the list.
  simp only [isWhiteSpace, whiteSpacePoints, Bool.or_eq_true, Bool.and_eq_true, decide_eq_true_eq,
    beq_iff_eq, List.cons_append, List.nil_append, List.mem_cons, List.not_mem_nil, or_false]
  omega

/-- Trimming leaves nothing exactly of those texts that are white space throughout. -/
theorem trimWhiteSpace_eq_nil (text : List Char) :
    trimWhiteSpace text = [] ↔ ∀ c ∈ text, isWhiteSpace c = true := by
  rw [trimWhiteSpace, List.reverse_eq_nil_iff, List.dropWhile_eq_nil_iff]
  constructor
  · intro behind c listed
    -- What the first trimming drops is white space, and the second one looks at all the rest.
    rw [← List.takeWhile_append_dropWhile (p := isWhiteSpace) (l := text)] at listed
    rcases List.mem_append.mp listed with dropped | left
    · exact List.mem_takeWhile_imp dropped
    · exact behind c (List.mem_reverse.mpr left)
  · intro blank c listed
    rw [List.dropWhile_eq_nil_iff.mpr blank] at listed
    exact absurd listed List.not_mem_nil

/-- A text is blank unless one of its characters is not white space. -/
theorem isBlank_eq_false_iff (content : String) :
    isBlank content = false ↔ ∃ c ∈ content.toList, c.toNat ∉ whiteSpacePoints := by
  -- Trimming leaves nothing exactly if there is nothing but white space.
  have blank : isBlank content = true ↔ ∀ c ∈ content.toList, c.toNat ∈ whiteSpacePoints := by
    rw [isBlank, List.isEmpty_iff, trimWhiteSpace_eq_nil]
    simp only [isWhiteSpace_iff]
  rw [← Bool.not_eq_true, blank]
  push Not
  rfl

/-! ### What a rule makes of what it rejects -/

namespace Violation

/-- A violation has the code of its rule, and does not know its place. -/
structure Own (code : String) (violation : Violation) : Prop where
  code_eq : violation.code = code
  path_eq : violation.path = none

variable {code : String}

/-- A violation is made without a place. -/
theorem own_make (message : String) : (make code message).Own code := ⟨rfl, rfl⟩

/-- A parameter changes neither code nor place. -/
theorem Own.withParam {violation : Violation} (own : violation.Own code) (name value : String) :
    (violation.withParam name value).Own code := ⟨own.code_eq, own.path_eq⟩

/-- A mismatch has the code that it is made with. -/
theorem own_typeMismatch (expected actual : String) :
    (typeMismatch code expected actual).Own code :=
  -- Two parameters are added to a violation of this code.
  ((own_make _).withParam _ _).withParam _ _

/-- A count outside its bounds has the code of its rule, also where one bound is open. -/
theorem own_outOfRange (what : String) (least greatest actual : Nat) :
    (outOfRange code what least greatest actual).Own code := by
  -- The upper bound is a parameter only if there is one.
  have base (message : String) : ((make code message).withParam "min" (toString least)).Own code :=
    (own_make message).withParam _ _
  unfold outOfRange
  by_cases isOpen : greatest = countLimit
  · simpa [isOpen] using (base _).withParam "actual" (toString actual)
  · simpa [isOpen] using ((base _).withParam "max" (toString greatest)).withParam "actual"
      (toString actual)

end Violation

namespace Value

/-- What is a violation before any comparison is one under the code of the bound. -/
theorem own_of_quantity {value : Value} {code : String} {violation : Violation}
    (refused : value.quantity code = .error violation) : violation.Own code := by
  unfold quantity at refused
  split at refused
  · cases refused
  · split at refused
    · cases refused
    · -- Of the binary numbers without a decimal form, only one is refused.
      split at refused
      · obtain rfl := Except.error.inj refused
        exact (Violation.own_make _).withParam _ _
      · cases refused
    · obtain rfl := Except.error.inj refused
      exact Violation.own_typeMismatch _ _

end Value

/-! ### The rules -/

/-- What a rule can be applied to. -/
inductive Domain
  | numbers
  | texts
  | containers

namespace Domain

/-- The words that a mismatch has for a domain. -/
def words : Domain → String
  | numbers => "a number"
  | texts => "text"
  | containers => "an array, collection or map"

/-- Whether a value is in a domain, by itself and not by what is in a box. -/
def has : Domain → Value → Bool
  | numbers, value => value.isNumeric
  | texts, .text _ => true
  | containers, .node (.array _) => true
  | containers, .node (.collection _) => true
  | containers, .node (.map _) => true
  | _, _ => false

end Domain

/-- A rule that comes with the library, with any bounds. -/
inductive BuiltinRule
  | min (bound : Decimal)
  | max (bound : Decimal)
  | length (least greatest : Nat)
  | size (least greatest : Nat)
  | notNull
  | notBlank

namespace BuiltinRule

/-- The rule itself. -/
def rule : BuiltinRule → Rule
  | min bound => .min bound
  | max bound => .max bound
  | length least greatest => .length least greatest
  | size least greatest => .size least greatest
  | notNull => .notNull
  | notBlank => .notBlank

/-- The domain of a rule, unless it is the one on presence, which applies to every value. -/
def domain? : BuiltinRule → Option Domain
  | min _ | max _ => some .numbers
  | length _ _ | notBlank => some .texts
  | size _ _ => some .containers
  | notNull => none

end BuiltinRule

namespace Rule

variable {store : Store} {value : Value}

/-- A bound rejects under its own code. -/
theorem own_of_bounded {code words : String} {bound : Decimal} {breaks : Quantity → Bool}
    {violation : Violation}
    (rejected : (bounded code words bound breaks).check store value = some violation) :
    violation.Own code := by
  -- The rejection is that of the measuring, or it is made for the bound.
  simp only [bounded] at rejected
  split at rejected
  · next refused =>
    obtain rfl := Option.some.inj rejected
    exact Value.own_of_quantity refused
  · cases rejected
  · split at rejected
    · obtain rfl := Option.some.inj rejected
      exact ((Violation.own_make _).withParam _ _).withParam _ _
    · cases rejected

/-- A rule on lengths counts characters. -/
theorem accepts_length_iff (least greatest : Nat) (content : String) :
    (length least greatest).Accepts store (.text content) ↔
      least ≤ content.length ∧ content.length ≤ greatest := by
  -- The count of characters is compared to both bounds.
  unfold Accepts length Value.textFor
  by_cases within : least ≤ content.length ∧ content.length ≤ greatest
  · simp [within]
  · simp [within]

/-- A rule against blank texts asks for one character that is not white space. -/
theorem accepts_notBlank_iff (content : String) :
    notBlank.Accepts store (.text content) ↔ ∃ c ∈ content.toList, c.toNat ∉ whiteSpacePoints := by
  -- The text is rejected exactly if it is blank.
  rw [← isBlank_eq_false_iff]
  unfold Accepts notBlank Value.textFor
  cases blank : isBlank content <;> simp [blank]

/-- A rule on sizes counts what a container holds. -/
theorem accepts_size_iff (sized : Domain.containers.has value = true) :
    ∃ count, store.size? value = some count ∧ ∀ least greatest,
      (size least greatest).Accepts store value ↔ least ≤ count ∧ count ≤ greatest := by
  -- A container has a size, which both ways of asking agree on.
  have counted : ∃ count, store.size? value = some count ∧
      store.containerSize? value = some count := by
    cases value with
    | node handle =>
      cases handle <;> simp [Domain.has, Store.size?, Store.containerSize?] at sized ⊢
    | _ => cases sized
  obtain ⟨count, length, held⟩ := counted
  have something : value.isNull = false := by
    cases value <;> first | rfl | cases sized
  -- The check compares this count.
  refine ⟨count, length, fun least greatest => ?_⟩
  unfold Accepts size
  by_cases within : least ≤ count ∧ count ≤ greatest
  · simp [something, held, within]
  · simp [something, held, within]

end Rule

namespace BuiltinRule

variable (builtin : BuiltinRule) (store : Store)

/-- Null is accepted by all rules but the one on presence. -/
theorem accepts_null_iff : builtin.rule.Accepts store .null ↔ builtin ≠ .notNull := by
  -- Every other rule lets null pass before it looks any further.
  cases builtin with
  | notNull => exact iff_of_false nofun fun other => other rfl
  | _ => exact iff_of_true rfl nofun

variable {store} {value : Value}

/-- Presence is all that the rule on presence asks for. -/
theorem accepts_notNull_iff : BuiltinRule.notNull.rule.Accepts store value ↔ value ≠ .null := by
  -- Only null is null.
  cases value with
  | null => exact iff_of_false nofun fun other => other rfl
  | _ => exact iff_of_true rfl nofun

variable {builtin}

/-- What is outside of the domain of a rule is a mismatch of its kind, unless it is null. -/
theorem check_of_foreign {domain : Domain} (ruled : builtin.domain? = some domain)
    (something : value ≠ .null) (outside : domain.has value = false) :
    builtin.rule.check store value =
      some (.typeMismatch builtin.rule.code domain.words value.kind.name) := by
  cases builtin with
  | min bound | max bound =>
    -- Numbers are measured before they are compared, and nothing else is.
    obtain rfl := Option.some.inj ruled
    exact Rule.check_bounded_of_error (Value.quantity_of_foreign something outside _)
  | length least greatest | notBlank =>
    obtain rfl := Option.some.inj ruled
    -- Every value that is neither null nor a text gets the same answer.
    cases value with
    | null => exact absurd rfl something
    | text content => cases outside
    | _ => rfl
  | size least greatest =>
    obtain rfl := Option.some.inj ruled
    cases value with
    | null => exact absurd rfl something
    -- Of the nodes, those that hold elements or entries are in the domain.
    | node handle =>
      cases handle with
      | array | collection | map => cases outside
      | object | threadScoped => rfl
    | _ => rfl
  | notNull => cases ruled

/-- Whatever a rule rejects, it rejects under its own code and without a place. -/
theorem own_of_check {violation : Violation}
    (rejected : builtin.rule.check store value = some violation) :
    violation.Own builtin.rule.code := by
  -- A value outside of the domain is a mismatch, and within it there is one way to be rejected.
  cases builtin with
  | min bound | max bound => exact Rule.own_of_bounded rejected
  | length least greatest =>
    cases value with
    | null => cases rejected
    | text content =>
      -- The count is out of bounds, or nothing is wrong.
      simp only [rule, Rule.length, Value.textFor] at rejected
      split at rejected
      · cases rejected
      · obtain rfl := Option.some.inj rejected
        exact Violation.own_outOfRange _ _ _ _
    | _ =>
      obtain rfl := Option.some.inj rejected
      exact Violation.own_typeMismatch _ _
  | size least greatest =>
    -- Null passes, what has no size is a mismatch, and a size may be out of bounds.
    simp only [rule, Rule.size] at rejected
    split at rejected
    · cases rejected
    · split at rejected
      · obtain rfl := Option.some.inj rejected
        exact Violation.own_typeMismatch _ _
      · split at rejected
        · cases rejected
        · obtain rfl := Option.some.inj rejected
          exact Violation.own_outOfRange _ _ _ _
  | notNull =>
    -- Only null is rejected, and without parameters.
    simp only [rule, Rule.notNull] at rejected
    split at rejected
    · obtain rfl := Option.some.inj rejected
      exact Violation.own_make _
    · cases rejected
  | notBlank =>
    cases value with
    | null => cases rejected
    | text content =>
      -- The text is blank, or nothing is wrong.
      simp only [rule, Rule.notBlank, Value.textFor] at rejected
      split at rejected
      · obtain rfl := Option.some.inj rejected
        exact Violation.own_make _
      · cases rejected
    | _ =>
      obtain rfl := Option.some.inj rejected
      exact Violation.own_typeMismatch _ _

variable (builtin store value)

/-- The rules that come with the library keep one contract on all values, whatever their bounds. -/
theorem builtin_contract :
    -- Null is rejected by the rule on presence alone, which rejects nothing else.
    (builtin.rule.Accepts store .null ↔ builtin ≠ .notNull) ∧
    (BuiltinRule.notNull.rule.Accepts store value ↔ value ≠ .null) ∧
    -- Any other value outside of the domain of a rule is a mismatch of its kind.
    (∀ domain, builtin.domain? = some domain → value ≠ .null → domain.has value = false →
      builtin.rule.check store value =
        some (.typeMismatch builtin.rule.code domain.words value.kind.name)) ∧
    -- Lengths are counted in characters, and sizes in elements or entries.
    (∀ least greatest content, (length least greatest).rule.Accepts store (.text content) ↔
      least ≤ content.length ∧ content.length ≤ greatest) ∧
    (Domain.containers.has value = true → ∃ count, store.size? value = some count ∧
      ∀ least greatest, (size least greatest).rule.Accepts store value ↔
        least ≤ count ∧ count ≤ greatest) ∧
    -- A text is blank if all of its characters are white space.
    (∀ content, notBlank.rule.Accepts store (.text content) ↔
      ∃ c ∈ content.toList, c.toNat ∉ whiteSpacePoints) ∧
    -- Whatever is rejected, it is so under the code of the rule and without a place.
    ∀ violation, builtin.rule.check store value = some violation →
      violation.code = builtin.rule.code ∧ violation.path = none := by
  refine ⟨accepts_null_iff builtin store, accepts_notNull_iff, ?foreign, Rule.accepts_length_iff,
    Rule.accepts_size_iff, Rule.accepts_notBlank_iff, ?own⟩
  case foreign =>
    intro domain ruled something outside
    exact check_of_foreign ruled something outside
  case own =>
    intro violation rejected
    obtain ⟨code, path⟩ := own_of_check rejected
    exact ⟨code, path⟩

/-- A boxed number is no number to a bound, and a wide character counts once. -/
theorem builtin_contract_boxed :
    let one : Decimal := ⟨false, 1, 0, by decide, by decide⟩
    let boxed : Value := .present (.integer 1)
    (BuiltinRule.min one).domain? = some .numbers ∧ boxed ≠ .null ∧
      Domain.numbers.has boxed = false ∧
      (BuiltinRule.min one).rule.check .empty boxed =
        some (.typeMismatch "min" "a number" "optional") ∧
      (BuiltinRule.length 1 1).rule.Accepts .empty (.text "𝄞") ∧
      ¬ (BuiltinRule.length 2 1).rule.Accepts .empty (.text "𝄞") ∧
      ¬ BuiltinRule.notBlank.rule.Accepts .empty (.text "\u2003\u0085") := by
  -- The theorem gives the mismatch and both counts, and spaces of any width are blank.
  intro one boxed
  have something : boxed ≠ .null := nofun
  obtain ⟨_, _, foreign, lengths, _, blanks, _⟩ := builtin_contract (.min one) .empty boxed
  have mismatch := foreign .numbers rfl something rfl
  refine ⟨rfl, something, rfl, mismatch, (lengths 1 1 _).mpr (by decide), ?_, ?_⟩
  · intro accepted
    exact absurd ((lengths 2 1 _).mp accepted) (by decide)
  · intro accepted
    have other := (blanks _).mp accepted
    simp [whiteSpacePoints] at other

end BuiltinRule

end GraphRules
