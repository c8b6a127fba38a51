import GraphRules.Proofs.Extraction.Failure
import GraphRules.Proofs.Extraction.Leaves

/-! The depth limit of an extraction cuts off what lies deeper and changes nothing above. -/

namespace GraphRules

/-- A leaf stands as deep as its chain is long. -/
theorem Chain.depth_leaf (descriptor : Descriptor) (root : Value) (links : List Link) :
    (Chain.leaf descriptor root links).path.depth = links.length := by
  -- The path of the leaf has one segment for each link.
  simp [Chain.leaf, Leaf.path, Path.depth]

namespace Scope

variable {store : Store} {answer : Kind → Nat → Option Extractor}

/-! ### What is listed within a limit -/

/-- The chains within a limit are the short ones within any wider limit, in the same order. -/
theorem filter_chains {room wider : Nat} (narrows : room ≤ wider) (descriptor : Descriptor)
    (value : Value) :
    (chains store answer wider descriptor value).filter (fun links => links.length ≤ room) =
      chains store answer room descriptor value := by
  -- The induction takes one level off both limits.
  induction room generalizing wider descriptor value with
  | zero =>
    cases wider with
    | zero => rfl
    | succ wider =>
      rw [chains, chains, List.filter_cons_of_pos (by simp), List.filter_flatMap]
      -- All chains but the first have a link.
      have long : ∀ link ∈ links store answer descriptor value,
          ((chains store answer wider link.inner link.reported.value).map (link :: ·)).filter
            (fun links => links.length ≤ 0) = [] := by
        intro link _
        simp [List.filter_map, Function.comp_def]
      rw [List.flatMap_eq_nil_iff.mpr long]
  | succ room shorter =>
    obtain ⟨wider, rfl⟩ : ∃ further, wider = further + 1 := ⟨wider - 1, by omega⟩
    have within : room ≤ wider := by omega
    rw [chains, chains, List.filter_cons_of_pos (by simp), List.filter_flatMap]
    congr 1
    refine List.flatMap_congr fun link _ => ?_
    -- Behind a link there is room for one link less.
    rw [List.filter_map, ← shorter within]
    congr 1
    refine List.filter_congr fun rest _ => ?_
    simp

/-- The branches above a limit are those of short chains above any wider limit, in order. -/
theorem filter_branches {room wider : Nat} (narrows : room ≤ wider) (descriptor : Descriptor)
    (value : Value) :
    (branches store answer wider descriptor value).filter
      (fun branch => branch.links.length < room) =
      branches store answer room descriptor value := by
  induction room generalizing wider descriptor value with
  | zero =>
    -- No chain has less than no links.
    simp [branches]
  | succ room shorter =>
    -- Above a wider limit there is room for one link as well.
    obtain ⟨wider, rfl⟩ : ∃ further, wider = further + 1 := ⟨wider - 1, by omega⟩
    have within : room ≤ wider := by omega
    rw [branches_succ, branches_succ]
    split
    · rfl
    · rw [List.filter_flatMap]
      refine List.flatMap_congr fun slot _ => ?_
      rw [branchesThrough, branchesThrough]
      split
      · rfl
      · rw [List.filter_cons_of_pos (by simp), List.filter_flatMap]
        congr 1
        refine List.flatMap_congr fun link _ => ?_
        -- Behind the link one link less may be followed.
        rw [List.filter_map, ← shorter within]
        congr 1
        refine List.filter_congr fun rest _ => ?_
        simp [Branch.behind]

/-! ### What is met at a limit -/

/-- Where the limit is met, a chain leads to a node that would have to be opened too. -/
theorem exists_chain_of_mem_errors {scope : Scope} {room bound : Nat} {descriptor : Descriptor}
    {value : Value} {position : Position} {path : Path}
    (met : .depthExceeded bound path ∈
      (scope.collect answer room descriptor value position).errors) :
    bound = scope.limit ∧ ∃ links, Chain scope.store answer descriptor value links ∧
      links.length = room ∧ (Chain.endNode descriptor links).requiresDescent = true ∧
      path = ⟨position.path.segments ++ links.map Link.segment⟩ := by
  induction room generalizing descriptor value position with
  | zero =>
    rw [collect, Extraction.errors_append, errors_ownLeaf, List.nil_append] at met
    split at met
    · simp [Extraction.none] at met
    · next opened =>
      -- The value at hand is the one that may not be opened.
      have same := List.mem_singleton.mp met
      obtain ⟨rfl, rfl⟩ := ExtractionError.depthExceeded.inj same
      have wanted : descriptor.requiresDescent = true := by simp_all
      exact ⟨rfl, [], .stop descriptor value, rfl, wanted, by simp⟩
  | succ room deeper =>
    rw [errors_collect_succ] at met
    split at met
    · simp at met
    · next present =>
      obtain ⟨⟨inner, slot⟩, numbered, listed⟩ := List.mem_flatMap.mp met
      split at listed
      · simp at listed
      · rcases List.mem_append.mp listed with here | behind
        · -- The failure of an extractor is another sort of error.
          have left := Option.mem_toList.mp here
          have sort := Branch.isDepthLimit_errorFrom? scope.store answer left
          simp [ExtractionError.isDepthLimit] at sort
        · obtain ⟨reported, among, further⟩ := List.mem_flatMap.mp behind
          obtain ⟨link, through, rfl⟩ := mem_reports.mp among
          obtain ⟨rfl, rfl, reports⟩ := mem_linksThrough.mp through
          obtain ⟨named, links, onwards, length, wanted, rfl⟩ := deeper further
          -- The chain goes through the link that leads to the reported value.
          have slotted := List.mem_zipIdx_iff_getElem?.mp numbered
          refine ⟨named, link :: links, .link ⟨by simpa using present, slotted, reports⟩ onwards,
            by rw [List.length_cons, length], by rwa [Chain.endNode_cons], ?_⟩
          simp [Position.inside, Path.child, Link.segment]

/-- An error of the depth limit names the limit and stands exactly as deep as may be opened. -/
theorem depth_of_mem_errors {scope : Scope} {room bound : Nat} {descriptor : Descriptor}
    {value : Value} {position : Position} {path : Path}
    (met : .depthExceeded bound path ∈
      (scope.collect answer room descriptor value position).errors) :
    bound = scope.limit ∧ path.depth = position.path.depth + room := by
  -- The path of the error is that of a chain with as many links as levels may be opened.
  obtain ⟨named, links, _, rfl, _, rfl⟩ := exists_chain_of_mem_errors met
  exact ⟨named, by simp [Path.depth]⟩

/-- What is extracted from a slot depends on what is extracted from the values reported there. -/
theorem branch_congr {first second : Scope} (stored : first.store = second.store)
    {inside other : Descriptor → Value → Position → Extraction} {container : Value}
    {position : Position} {slot : Descriptor × Nat}
    (same : slot.1.isSkippable = false → ∀ reported ∈ reports first.store answer container slot,
      inside slot.1 reported.value (position.inside container slot.2 reported) =
        other slot.1 reported.value (position.inside container slot.2 reported)) :
    first.branch answer inside container position slot =
      second.branch answer other container position slot := by
  -- Both branches skip alike and ask the same extractor, so only what is inside could differ.
  rw [branch, branch, ← stored]
  cases wanted : slot.1.isSkippable with
  | true => rfl
  | false =>
    rw [if_neg Bool.false_ne_true, if_neg Bool.false_ne_true]
    have agrees := same wanted
    rw [reports] at agrees
    cases served : slot.1.extractor.or (answer container.kind slot.2) with
    | none => rfl
    | some extractor =>
      simp only [served] at agrees
      -- A slot that is served goes on with the same reports on both sides.
      simp only [List.map_congr_left agrees]

/-- Where nothing has to be opened, the node itself is all there is. -/
theorem collect_of_closed (scope : Scope) {descriptor : Descriptor} {value : Value}
    (closed : (value.isNull || !descriptor.requiresDescent) = true) (room : Nat)
    (position : Position) :
    scope.collect answer room descriptor value position = ownLeaf descriptor value position := by
  -- How many levels may be opened makes no difference.
  cases room with
  | zero => rw [collect, if_pos closed, Extraction.append_none]
  | succ room => rw [collect, if_pos closed, Extraction.append_none]

/-- Where an extraction meets no limit, a wider limit gives nothing else. -/
theorem collect_of_no_limit {limit room : Nat} (wider more : Nat) {descriptor : Descriptor}
    {value : Value} {position : Position}
    (free : ∀ error ∈ (collect ⟨store, limit⟩ answer room descriptor value position).errors,
      error.isDepthLimit = false) :
    collect ⟨store, wider⟩ answer (room + more) descriptor value position =
      collect ⟨store, limit⟩ answer room descriptor value position := by
  induction room generalizing descriptor value position with
  | zero =>
    -- Nothing has to be opened here, or else the limit would be met.
    have closed : (value.isNull || !descriptor.requiresDescent) = true := by
      cases opened : value.isNull || !descriptor.requiresDescent with
      | true => rfl
      | false =>
        have limited := free (.depthExceeded limit position.path) (by
          simp [collect, opened, Extraction.ofError])
        simp [ExtractionError.isDepthLimit] at limited
    rw [collect_of_closed _ closed, collect_of_closed _ closed]
  | succ room deeper =>
    -- Above the limit both open the slots, and differ at most behind them.
    rw [Nat.succ_add, Nat.succ_eq_add_one, collect_succ, collect_succ]
    congr 1
    rw [errors_collect_succ] at free
    split
    · rfl
    · next present =>
      rw [if_neg present] at free
      congr 1
      refine List.map_congr_left fun slot numbered => ?_
      refine branch_congr rfl fun wanted reported among => deeper fun error found => ?_
      -- An error behind a reported value is one of the extraction as a whole.
      refine free error (List.mem_flatMap.mpr ⟨slot, numbered, ?_⟩)
      rw [wanted, if_neg Bool.false_ne_true]
      exact List.mem_append_right _ (List.mem_flatMap.mpr ⟨reported, among, found⟩)

/-! ### Two limits -/

/-- The leaves within the lower limit are the same. -/
theorem leaves_within {limit wider : Nat} (narrows : limit ≤ wider) (descriptor : Descriptor)
    (root : Value) (registry : Registry) :
    (extract ⟨store, limit⟩ descriptor root registry).1.leaves =
      (extract ⟨store, wider⟩ descriptor root registry).1.leaves.filter
        fun leaf => leaf.path.depth ≤ limit := by
  rw [extract_leaves_eq, extract_leaves_eq, ← filter_chains narrows, List.filter_map,
    List.filter_filter, List.filter_filter]
  -- Whether a chain is short enough can be told from its leaf, and asked before or after the rest.
  congr 1
  refine List.filter_congr fun links _ => ?_
  rw [Function.comp_apply, Chain.depth_leaf, Bool.and_comm]

/-- The failures of extractors above the lower limit are the same. -/
theorem failures_within {limit wider : Nat} (narrows : limit ≤ wider) (descriptor : Descriptor)
    (root : Value) (registry : Registry) :
    (extract ⟨store, limit⟩ descriptor root registry).1.errors.filter (!·.isDepthLimit) =
      (extract ⟨store, wider⟩ descriptor root registry).1.errors.filter
        fun error => !error.isDepthLimit && decide (error.path.depth < limit) := by
  -- Depths are compared after the errors of the limit are left out, in either order.
  have sorted : ∀ errors : List ExtractionError,
      (errors.filter fun error => !error.isDepthLimit && decide (error.path.depth < limit)) =
        (errors.filter (!·.isDepthLimit)).filter fun error =>
          decide (error.path.depth < limit) := by
    intro errors
    rw [List.filter_filter]
    exact List.filter_congr fun error _ => Bool.and_comm _ _
  rw [sorted, extract_failures_eq, extract_failures_eq, ← filter_branches narrows,
    List.filter_filterMap, List.filterMap_filter]
  refine List.filterMap_congr fun branch _ => ?_
  dsimp only
  cases branch.failure? store registry.answer root with
  | none => simp
  | some failure =>
    -- The error stands where the container of its branch stands.
    rw [Option.map_some, Option.filter_some, branch.depth_error]

/-- What nothing serves above the lower limit is served by nothing above the wider one either. -/
theorem unresolved_within {limit wider : Nat} (narrows : limit ≤ wider) (descriptor : Descriptor)
    (root : Value) (registry : Registry) :
    (extract ⟨store, limit⟩ descriptor root registry).1.unresolved.Sublist
      (extract ⟨store, wider⟩ descriptor root registry).1.unresolved := by
  rw [extract_eq_collect, extract_eq_collect, unresolved_collect, unresolved_collect,
    ← filter_branches narrows]
  -- The branches above the lower limit are some of those above the wider one.
  exact ((List.filter_sublist.filter _).map _)

/-- The depth limit of an extraction truncates and does nothing else. -/
theorem extract_truncates (store : Store) (descriptor : Descriptor) (root : Value)
    (registry : Registry) {limit wider : Nat} (narrows : limit ≤ wider) :
    let shallow := (extract ⟨store, limit⟩ descriptor root registry).1
    let deep := (extract ⟨store, wider⟩ descriptor root registry).1
    -- The leaves are those of the deeper extraction that stand at most as deep as the limit.
    (shallow.leaves = deep.leaves.filter fun leaf => leaf.path.depth ≤ limit) ∧
    -- The failures of extractors are those above the limit.
    (shallow.errors.filter (!·.isDepthLimit) =
      deep.errors.filter fun error => !error.isDepthLimit && decide (error.path.depth < limit)) ∧
    -- Whatever is left unserved, the deeper extraction leaves unserved too.
    shallow.unresolved.Sublist deep.unresolved ∧
    -- An error of the limit names the own limit and stands exactly there.
    (∀ bound path, .depthExceeded bound path ∈ shallow.errors →
      bound = limit ∧ path.depth = limit) ∧
    -- Without such an error nothing was cut off.
    ((∀ error ∈ shallow.errors, error.isDepthLimit = false) → shallow = deep) := by
  intro shallow deep
  refine ⟨leaves_within narrows descriptor root registry,
    failures_within narrows descriptor root registry,
    unresolved_within narrows descriptor root registry, ?_, ?_⟩
  · intro bound path met
    simp only [shallow, extract_eq_collect] at met
    obtain ⟨named, depth⟩ := depth_of_mem_errors met
    -- The root stands at depth zero.
    exact ⟨named, depth.trans (Nat.zero_add limit)⟩
  · intro free
    -- Room for more links makes no difference where no limit was met.
    simp only [shallow, deep, extract_eq_collect] at free ⊢
    have same := collect_of_no_limit wider (wider - limit) free
    rw [Nat.add_sub_cancel' narrows] at same
    exact same.symm

end Scope

/-! ### A sequence in itself -/

namespace Knot

def kind : Kind := .sequence

def knot : Collection := ⟨⟨0⟩, kind, by decide⟩

/-- The sequence holds a text and then itself. -/
def store : Store where
  cells := #[some (.items [.text "end", .node (.collection knot)])]
  running := ⟨0⟩

/-- Sequences of sequences of texts, of which all but the outermost have rules. -/
def descriptor : Descriptor :=
  let texts := (Descriptor.simple ⟨0⟩ .text).withDeclaredRules
  let lines := (Descriptor.parameterized ⟨1⟩ kind [texts]).withDeclaredRules
  .parameterized ⟨2⟩ kind [(Descriptor.parameterized ⟨3⟩ kind [lines]).withDeclaredRules]

end Knot

/-- Opened once a knot shows what it holds, and opened twice it shows that once more. -/
theorem extract_truncates_knot :
    let value := Value.node (.collection Knot.knot)
    let shallow := (Scope.extract ⟨Knot.store, 1⟩ Knot.descriptor value .withDefaults).1
    let deep := (Scope.extract ⟨Knot.store, 2⟩ Knot.descriptor value .withDefaults).1
    1 ≤ 2 ∧ (shallow.leaves = deep.leaves.filter fun leaf => leaf.path.depth ≤ 1) ∧
      shallow.leaves.length = 2 ∧ deep.leaves.length = 4 ∧
      shallow.unresolved.Sublist deep.unresolved ∧ deep.unresolved = [⟨.text, 0⟩] ∧
      shallow.errors = [.depthExceeded 1 ⟨[⟨"<list element>", some 0⟩]⟩,
        .depthExceeded 1 ⟨[⟨"<list element>", some 1⟩]⟩] := by
  -- The second limit is wider, and what each extraction holds can be counted.
  intro value shallow deep
  have narrows : 1 ≤ 2 := by decide
  obtain ⟨leaves, _, unresolved, _, _⟩ :=
    Scope.extract_truncates Knot.store Knot.descriptor value .withDefaults narrows
  exact ⟨narrows, leaves, by decide, by decide, unresolved, by decide, by decide⟩

end GraphRules
