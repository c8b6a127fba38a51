import GraphRules.Path
import Mathlib.Logic.Function.Basic

/-! The text of a path, taken apart again at its points and opening brackets. -/

namespace GraphRules

/-- A name is not empty, and has nothing in it that the text of a path puts behind names. -/
structure PlainName (name : String) : Prop where
  ne_empty : name ≠ ""
  noPoint : '.' ∉ name.toList
  noBracket : '[' ∉ name.toList

namespace PathSegment

/-- What stands behind the name in the text of a step. -/
def suffix : Option Nat → List Char
  | some index => '[' :: (Nat.toDigits 10 index ++ [']'])
  | none => []

/-- The text of a step is its name and what stands behind it. -/
theorem toList_text (segment : PathSegment) :
    segment.text.toList = segment.name.toList ++ suffix segment.index := by
  -- Without a position nothing stands behind the name.
  unfold text suffix
  cases segment.index with
  | none => simp
  | some index => simp [toString]

/-- No point stands behind a name. -/
theorem point_not_mem_suffix (index : Option Nat) : '.' ∉ suffix index := by
  cases index with
  | none => exact List.not_mem_nil
  | some index =>
    -- A point is no digit.
    have digits : '.' ∉ Nat.toDigits 10 index := fun listed =>
      absurd (Nat.isDigit_of_mem_toDigits (by decide) (by decide) listed) (by decide)
    simpa [suffix] using digits

/-- Whatever stands behind a name begins with a bracket. -/
theorem takeWhile_suffix (index : Option Nat) : (suffix index).takeWhile (· ≠ '[') = [] := by
  -- A suffix is empty or opens with the bracket.
  cases index <;> simp [suffix]

/-- What stands behind a name tells the position. -/
theorem suffix_injective : Function.Injective suffix := by
  -- With a position there is a bracket, and without one there is nothing.
  intro first second same
  cases first with
  | none =>
    cases second with
    | none => rfl
    | some other => cases same
  | some index =>
    cases second with
    | none => cases same
    | some other =>
      have digits : Nat.toDigits 10 index = Nat.toDigits 10 other :=
        List.append_cancel_right (List.cons.inj same).2
      -- The digits are read back as the number.
      calc
        some index = some (Nat.ofDigitChars 10 (Nat.toDigits 10 index) 0) := by
          rw [Nat.ofDigitChars_ten_toDigits]
        _ = some other := by rw [digits, Nat.ofDigitChars_ten_toDigits]

variable {segment : PathSegment}

/-- The name of a step is its text up to the first bracket. -/
theorem takeWhile_text (plain : PlainName segment.name) :
    segment.text.toList.takeWhile (· ≠ '[') = segment.name.toList := by
  -- The name has no bracket, and what stands behind it begins with one.
  have inside : ∀ c ∈ segment.name.toList, decide (c ≠ '[') = true := fun c listed =>
    decide_eq_true fun bracket => plain.noBracket (bracket ▸ listed)
  rw [toList_text, List.takeWhile_append_of_pos inside, takeWhile_suffix, List.append_nil]

/-- No point stands in the text of a step. -/
theorem point_not_mem_text (plain : PlainName segment.name) : '.' ∉ segment.text.toList := by
  -- A point would stand in the name or behind it.
  rw [toList_text, List.mem_append]
  exact not_or.mpr ⟨plain.noPoint, point_not_mem_suffix segment.index⟩

/-- The text of a step is not empty, since its name is not. -/
theorem text_ne_nil (plain : PlainName segment.name) : segment.text.toList ≠ [] := by
  -- The name before the bracket is not empty.
  intro empty
  have name := takeWhile_text plain
  rw [empty] at name
  exact plain.ne_empty (String.toList_eq_nil_iff.mp name.symm)

/-- Steps with the same text are the same. -/
theorem eq_of_toList_text_eq {other : PathSegment} (plain : PlainName segment.name)
    (alike : PlainName other.name)
    (same : segment.text.toList = other.text.toList) : segment = other := by
  -- The names are the same up to the first bracket, and so are the positions from there on.
  have names : segment.name.toList = other.name.toList := by
    rw [← takeWhile_text plain, same, takeWhile_text alike]
  rw [toList_text, toList_text, names] at same
  have positions := suffix_injective (List.append_cancel_left same)
  obtain ⟨name, index⟩ := segment
  obtain ⟨called, place⟩ := other
  exact congrArg₂ PathSegment.mk (String.toList_inj.mp names) positions

end PathSegment

namespace Path

/-- All names on a path are plain. -/
def Plain (path : Path) : Prop := ∀ segment ∈ path.segments, PlainName segment.name

variable {path : Path}

/-- The text of a path is made of the texts of its steps, with points between them. -/
theorem toList_text (path : Path) :
    path.text.toList = ['.'].intercalate (path.segments.map (·.text.toList)) := by
  -- Joining texts joins their characters.
  rw [text, String.toList_intercalate, List.map_map]
  rfl

/-- The points in the text of a path take it apart into the texts of the steps. -/
theorem splitOn_text (plain : path.Plain) (deeper : path ≠ .root) :
    path.text.toList.splitOn '.' = path.segments.map (·.text.toList) := by
  -- Nothing is joined at the root, where a split would still find one empty part.
  rw [toList_text]
  refine List.splitOn_intercalate '.' ?_ fun empty =>
    deeper (congrArg Path.mk (List.map_eq_nil_iff.mp empty))
  intro step listed
  obtain ⟨segment, among, rfl⟩ := List.mem_map.mp listed
  exact PathSegment.point_not_mem_text (plain segment among)

/-- Only the root has the empty text. -/
theorem text_eq_empty_iff (plain : path.Plain) : path.text = "" ↔ path = .root := by
  constructor
  · intro empty
    by_contra deeper
    have steps := splitOn_text plain deeper
    rw [empty] at steps
    -- The empty text would be that of a single step.
    obtain ⟨segment, among, bare⟩ : ∃ segment ∈ path.segments, segment.text.toList = [] := by
      rw [← List.mem_map, ← steps]
      exact List.mem_cons_self
    exact PathSegment.text_ne_nil (plain segment among) bare
  · rintro rfl
    rfl

/-- Steps that are written alike, one by one, are the same. -/
theorem segments_eq_of_map_eq : ∀ {segments others : List PathSegment},
    (∀ segment ∈ segments, PlainName segment.name) → (∀ segment ∈ others, PlainName segment.name) →
      segments.map (·.text.toList) = others.map (·.text.toList) → segments = others
  -- The induction is on both lists, and each step is told by its text.
  | [], [], _, _, _ => rfl
  | segment :: segments, other :: others, plain, alike, same => by
    obtain ⟨here, further⟩ := List.cons.inj same
    have plains := List.forall_mem_cons.mp plain
    have likes := List.forall_mem_cons.mp alike
    rw [PathSegment.eq_of_toList_text_eq plains.1 likes.1 here,
      segments_eq_of_map_eq plains.2 likes.2 further]

/-- Paths with the same text are the same. -/
theorem eq_of_text_eq {other : Path} (plain : path.Plain) (alike : other.Plain)
    (same : path.text = other.text) :
    path = other := by
  by_cases root : path = .root
  · -- The other path has the empty text as well.
    rw [root] at same ⊢
    exact ((text_eq_empty_iff alike).mp same.symm).symm
  · have deeper : other ≠ .root := by
      rintro rfl
      exact root ((text_eq_empty_iff plain).mp same)
    have steps := congrArg (·.toList.splitOn '.') same
    simp only [splitOn_text plain root, splitOn_text alike deeper] at steps
    exact congrArg Path.mk (segments_eq_of_map_eq plain alike steps)

/-- A point in a name can be taken for one between two steps. -/
example : (root.child "a.b" none).text = ((root.child "a" none).child "b" none).text := by decide

end Path

end GraphRules
