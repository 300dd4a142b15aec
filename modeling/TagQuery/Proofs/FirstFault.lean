import TagQuery.Proofs.ConditionTexts

namespace TagQuery

open Lexer

namespace TagPath

/-- What a segment has to be at its index in a path: a word or a number literal, no keyword, and after the first
    segment no comparison word. -/
structure Admits (index : Nat) (segment : String) : Prop where
  form : IsWord segment.toList ∨ Number.IsNumeral segment.toList
  free : ∀ joining : Keyword, segment.toList.map Char.toLower ≠ joining.text.toList
  plain : 0 < index → ∀ op : Comparison, segment ≠ op.word

def Valid (path : TagPath) : Prop :=
  path.segments ≠ [] ∧ ∀ index segment, path.segments[index]? = some segment → Admits index segment

inductive Fault (path : TagPath) : ValidityError → Prop
  | empty : path.segments = [] → path.Fault .emptyTagPath
  | segment {index : Nat} {segment : String} : path.segments[index]? = some segment → ¬ Admits index segment →
      (∀ earlier other, earlier < index → path.segments[earlier]? = some other → Admits earlier other) →
      path.Fault (.invalidSegment segment)

theorem allows_iff_admits (index : Nat) (segment : String) :
    allows (decide (index = 0)) segment = true ↔ Admits index segment := by
  have unreserved : isReserved segment = false ↔
      ∀ joining : Keyword, segment.toList.map Char.toLower ≠ joining.text.toList := by
    rw [← keyword_ofWord_none, isReserved, Option.isSome_eq_false_iff, Option.isNone_iff_eq_none]
  rw [allows_iff, isSegment_iff, unreserved, Comparison.ofWord_eq_none_iff, decide_eq_false_iff_not, ← ne_eq, ← Nat.pos_iff_ne_zero]
  constructor
  · rintro ⟨form, free, plain⟩
    exact ⟨form, free, plain⟩
  · rintro ⟨form, free, plain⟩
    exact ⟨form, free, plain⟩

theorem check_ok_iff_valid (path : TagPath) : path.check = .ok () ↔ path.Valid := by
  obtain ⟨segments⟩ := path
  cases segments with
  | nil => exact iff_of_false nofun fun valid => valid.1 rfl
  | cons first rest =>
    rw [check_ok_iff]
    constructor
    · rintro ⟨begins, all⟩
      refine ⟨List.cons_ne_nil first rest, fun index segment found => ?_⟩
      rw [← allows_iff_admits]
      cases index with
      | zero =>
        obtain rfl := Option.some.inj found
        exact begins
      | succ index => exact all segment (List.mem_of_getElem? found)
    · rintro ⟨-, admits⟩
      refine ⟨(allows_iff_admits 0 first).mpr (admits 0 first rfl), fun segment member => ?_⟩
      obtain ⟨index, found⟩ := List.getElem?_of_mem member
      exact (allows_iff_admits (index + 1) segment).mpr (admits (index + 1) segment found)

theorem fault_of_check {path : TagPath} {error : ValidityError} (refused : path.check = .error error) :
    path.Fault error := by
  obtain ⟨segments⟩ := path
  cases segments with
  | nil =>
    cases refused
    exact .empty rfl
  | cons first rest =>
    simp only [check] at refused
    by_cases begins : allows true first = true
    · rw [if_pos begins] at refused
      cases found : rest.find? fun segment => !allows false segment with
      | none =>
        rw [found] at refused
        cases refused
      | some segment =>
        rw [found] at refused
        cases refused
        obtain ⟨wrong, index, bound, here, before⟩ := List.find?_eq_some_iff_getElem.mp found
        refine @Fault.segment _ (index + 1) segment (List.getElem?_eq_some_iff.mpr ⟨Nat.succ_lt_succ bound, here⟩) ?_ ?_
        · rw [← allows_iff_admits]
          simpa using wrong
        · intro earlier other below at_
          rw [← allows_iff_admits]
          cases earlier with
          | zero =>
            obtain rfl := Option.some.inj at_
            exact begins
          | succ earlier =>
            obtain ⟨inside, rfl⟩ := List.getElem?_eq_some_iff.mp at_
            simpa using before earlier (Nat.lt_of_succ_lt_succ below)
    · rw [if_neg begins] at refused
      cases refused
      refine @Fault.segment _ 0 first rfl ?_ fun _ _ below => absurd below (Nat.not_lt_zero _)
      rwa [← allows_iff_admits]

theorem Fault.unique {path : TagPath} {error other : ValidityError} (one : path.Fault error) (two : path.Fault other) :
    error = other := by
  cases one with
  | empty none =>
    cases two with
    | empty => rfl
    | segment found =>
      rw [none] at found
      cases found
  | @segment index segment found wrong before =>
    cases two with
    | empty none =>
      rw [none] at found
      cases found
    | @segment index' segment' found' wrong' before' =>
      rcases Nat.lt_trichotomy index index' with less | rfl | less
      · exact absurd (before' index segment less found) wrong
      · rw [found] at found'
        rw [Option.some.inj found']
      · exact absurd (before index' segment' less found') wrong'

theorem check_error_iff (path : TagPath) (error : ValidityError) : path.check = .error error ↔ path.Fault error := by
  constructor
  · exact fault_of_check
  · intro fault
    cases result : path.check with
    | error other => rw [fault.unique (fault_of_check result)]
    | ok =>
      obtain ⟨nonempty, admits⟩ := (check_ok_iff_valid path).mp result
      cases fault with
      | empty none => exact absurd none nonempty
      | segment found wrong => exact absurd (admits _ _ found) wrong

end TagPath

namespace Expr

/-- A node of an expression: the tree that begins there, and how many groups and negations stand on the way to it, itself
    counted. -/
structure Node where
  level : Nat
  expr : Expr

def nodes (depth : Nat) : Expr → List Node
  | .predicate path => [⟨depth, .predicate path⟩]
  | .comparison key op operand => [⟨depth, .comparison key op operand⟩]
  | .and left right => ⟨depth, .and left right⟩ :: (left.nodes depth ++ right.nodes depth)
  | .or left right => ⟨depth, .or left right⟩ :: (left.nodes depth ++ right.nodes depth)
  | .not inner => ⟨depth + 1, .not inner⟩ :: inner.nodes (depth + 1)
  | .group inner => ⟨depth + 1, .group inner⟩ :: inner.nodes (depth + 1)

namespace Node

inductive Fault (limit : Nat) : Node → ValidityError → Prop
  | path {level : Nat} {path : TagPath} {error : ValidityError} :
      path.Fault error → Fault limit ⟨level, .predicate path⟩ error
  | key {level : Nat} {key : TagPath} {op : Comparison} {operand : Float} {error : ValidityError} :
      key.Fault error → Fault limit ⟨level, .comparison key op operand⟩ error
  | operand {level : Nat} {key : TagPath} {op : Comparison} {operand : Float} :
      key.Valid → Number.isFinite operand = false →
      Fault limit ⟨level, .comparison key op operand⟩ (.nonFiniteOperand key.text operand)
  | not {inner : Expr} : Fault limit ⟨limit + 1, .not inner⟩ (.nestingTooDeep (limit + 1) limit)
  | group {inner : Expr} : Fault limit ⟨limit + 1, .group inner⟩ (.nestingTooDeep (limit + 1) limit)

def Sound (limit : Nat) (node : Node) : Prop := ∀ error, ¬ node.Fault limit error

end Node

/-- Whether an error is about the first node of a list that is at fault. -/
def FirstFault (limit : Nat) (nodes : List Node) (error : ValidityError) : Prop :=
  ∃ before node after, nodes = before ++ node :: after ∧ (∀ earlier ∈ before, earlier.Sound limit) ∧
    node.Fault limit error

section

variable {limit : Nat} {node : Node} {front back : List Node} {error : ValidityError}

theorem not_firstFault_nil : ¬ FirstFault limit [] error := by
  rintro ⟨before, node, after, whole, -⟩
  exact absurd whole.symm (by simp)

theorem firstFault_cons :
    FirstFault limit (node :: back) error ↔ node.Fault limit error ∨ node.Sound limit ∧ FirstFault limit back error := by
  constructor
  · rintro ⟨before, first, after, whole, sound, fault⟩
    cases before with
    | nil =>
      obtain ⟨rfl, -⟩ := List.cons.inj whole
      exact Or.inl fault
    | cons _ before =>
      obtain ⟨rfl, rest⟩ := List.cons.inj whole
      obtain ⟨here, later⟩ := List.forall_mem_cons.mp sound
      exact Or.inr ⟨here, before, first, after, rest, later, fault⟩
  · rintro (fault | ⟨here, before, first, after, rfl, sound, fault⟩)
    · exact ⟨[], node, back, rfl, nofun, fault⟩
    · exact ⟨node :: before, first, after, rfl, List.forall_mem_cons.mpr ⟨here, sound⟩, fault⟩

theorem firstFault_append :
    FirstFault limit (front ++ back) error ↔
      FirstFault limit front error ∨ (∀ node ∈ front, node.Sound limit) ∧ FirstFault limit back error := by
  induction front with
  | nil => simp [not_firstFault_nil]
  | cons node front ih =>
    rw [List.cons_append, firstFault_cons, firstFault_cons, ih, List.forall_mem_cons]
    tauto

theorem sound_iff_no_firstFault :
    (∀ node ∈ front, node.Sound limit) ↔ ∀ error, ¬ FirstFault limit front error := by
  constructor
  · rintro sound error ⟨before, node, after, rfl, -, fault⟩
    exact sound node (by simp) error fault
  · intro none
    induction front with
    | nil => nofun
    | cons node front ih =>
      have here : node.Sound limit := fun error fault => none error (firstFault_cons.mpr (Or.inl fault))
      rw [List.forall_mem_cons]
      exact ⟨here, ih fun error later => none error (firstFault_cons.mpr (Or.inr ⟨here, later⟩))⟩

theorem bind_error_iff {first second : Except ValidityError Unit} :
    (first >>= fun _ => second) = .error error ↔ first = .error error ∨ first = .ok () ∧ second = .error error := by
  cases first with
  | error other => simp [bind, Except.bind]
  | ok => simp [bind, Except.bind]

theorem ok_iff_no_error {result : Except ValidityError Unit} : result = .ok () ↔ ∀ error, result ≠ .error error := by
  cases result with
  | error other => exact iff_of_false nofun fun none => none other rfl
  | ok => exact iff_of_true rfl nofun

theorem firstFault_below (sound : node.Sound limit) :
    FirstFault limit (node :: back) error ↔ FirstFault limit back error := by
  rw [firstFault_cons, or_iff_right (sound error), and_iff_right sound]

theorem firstFault_single : FirstFault limit [node] error ↔ node.Fault limit error := by
  rw [firstFault_cons, or_iff_left fun later => not_firstFault_nil later.2]

theorem comparison_fault_iff {level : Nat} {key : TagPath} {op : Comparison} {operand : Float} :
    Node.Fault limit ⟨level, .comparison key op operand⟩ error ↔
      key.Fault error ∨ key.Valid ∧ Number.isFinite operand = false ∧ error = .nonFiniteOperand key.text operand := by
  constructor
  · rintro (_ | fault | ⟨valid, infinite⟩)
    · exact Or.inl fault
    · exact Or.inr ⟨valid, infinite, rfl⟩
  · rintro (fault | ⟨valid, infinite, rfl⟩)
    · exact .key fault
    · exact .operand valid infinite

theorem bind_error_iff_firstFault {first second : Except ValidityError Unit} (sound : node.Sound limit)
    (left : ∀ error, first = .error error ↔ FirstFault limit front error)
    (right : ∀ error, second = .error error ↔ FirstFault limit back error) :
    (first >>= fun _ => second) = .error error ↔ FirstFault limit (node :: (front ++ back)) error := by
  have passed : first = .ok () ↔ ∀ node ∈ front, node.Sound limit := by
    rw [ok_iff_no_error, sound_iff_no_firstFault]
    exact forall_congr' fun error => not_congr (left error)
  rw [firstFault_below sound, firstFault_append, bind_error_iff, left, right, passed]

theorem checkUnder_error_iff (expr : Expr) (depth : Nat) (within : depth ≤ limit) :
    expr.checkUnder limit depth = .error error ↔ FirstFault limit (expr.nodes depth) error := by
  induction expr generalizing depth error with
  | predicate path =>
    rw [checkUnder, nodes, firstFault_single, TagPath.check_error_iff]
    constructor
    · exact .path
    · rintro ⟨fault⟩
      exact fault
  | comparison key op operand =>
    rw [checkUnder, nodes, firstFault_single, comparison_fault_iff, bind_error_iff, TagPath.check_error_iff,
      TagPath.check_ok_iff_valid]
    cases Number.isFinite operand <;> simp [eq_comm]
  | and left right first second | or left right first second =>
    refine bind_error_iff_firstFault ?_ (fun _ => first depth within) fun _ => second depth within
    rintro _ ⟨⟩
  | not inner ih | group inner ih =>
    rw [checkUnder, nodes]
    by_cases deeper : depth + 1 ≤ limit
    · rw [if_pos deeper, ih (depth + 1) deeper]
      refine (firstFault_below ?_).symm
      rintro _ ⟨⟩
      omega
    · obtain rfl : depth = limit := by omega
      rw [if_neg deeper, firstFault_cons]
      constructor
      · intro same
        cases same
        exact Or.inl (by constructor)
      · rintro (fault | ⟨sound, -⟩)
        · cases fault
          rfl
        · exact absurd (by constructor) (sound (.nestingTooDeep (depth + 1) depth))

theorem bind_ok_iff {first second : Except ValidityError Unit} :
    (first >>= fun _ => second) = .ok () ↔ first = .ok () ∧ second = .ok () := by
  cases first with
  | error other => simp [bind, Except.bind]
  | ok => simp [bind, Except.bind]

end

theorem SoundConditions.joined {left right expr : Expr} (before : left.SoundConditions) (after : right.SoundConditions)
    (paths : expr.paths = left.paths ++ right.paths) (operands : expr.operands = left.operands ++ right.operands) :
    expr.SoundConditions where
  paths := by
    rw [paths, List.forall_mem_append]
    exact ⟨before.paths, after.paths⟩
  finite := by
    rw [operands, List.forall_mem_append]
    exact ⟨before.finite, after.finite⟩

theorem soundConditions_of_checkUnder {limit depth : Nat} {expr : Expr} (within : depth ≤ limit)
    (checked : expr.checkUnder limit depth = .ok ()) : expr.SoundConditions ∧ depth + expr.nesting ≤ limit := by
  induction expr generalizing depth with
  | predicate path => exact ⟨@soundConditions_predicate 0 path checked, within⟩
  | comparison key op operand => exact ⟨@soundConditions_comparison 0 key op operand checked, within⟩
  | and left right first second | or left right first second =>
    obtain ⟨one, other⟩ := bind_ok_iff.mp checked
    obtain ⟨before, shallow⟩ := first within one
    obtain ⟨after, shallow'⟩ := second within other
    refine ⟨before.joined after rfl rfl, ?_⟩
    rw [nesting]
    omega
  | not inner ih | group inner ih =>
    rw [checkUnder] at checked
    split at checked
    · rename_i deeper
      obtain ⟨sound, shallow⟩ := ih deeper checked
      refine ⟨⟨sound.paths, sound.finite⟩, ?_⟩
      rw [nesting]
      omega
    · cases checked

theorem check_ok_iff (limit : Nat) (expr : Expr) :
    expr.check limit = .ok () ↔ expr.SoundConditions ∧ expr.nesting ≤ Limits.clampNesting limit := by
  constructor
  · intro checked
    have parts := soundConditions_of_checkUnder (Nat.zero_le _) checked
    rwa [Nat.zero_add] at parts
  · rintro ⟨sound, shallow⟩
    rw [check_of_soundConditions sound, if_pos shallow]

/-- Whether an expression has no conditions but those of another one and no deeper nesting. -/
structure Milder (mild expr : Expr) : Prop where
  paths : mild.paths ⊆ expr.paths
  operands : mild.operands ⊆ expr.operands
  nesting : mild.nesting ≤ expr.nesting

namespace Milder

variable {mild other expr : Expr}

theorem refl (expr : Expr) : expr.Milder expr := ⟨List.Subset.refl _, List.Subset.refl _, Nat.le_refl _⟩

theorem trans (one : mild.Milder other) (two : other.Milder expr) : mild.Milder expr :=
  ⟨List.Subset.trans one.paths two.paths, List.Subset.trans one.operands two.operands,
    Nat.le_trans one.nesting two.nesting⟩

theorem of_mem_nodes {node : Node} {depth : Nat} (member : node ∈ expr.nodes depth) : node.expr.Milder expr := by
  induction expr generalizing depth with
  | predicate | comparison =>
    obtain rfl := List.mem_singleton.mp member
    exact refl _
  | and left right first second | or left right first second =>
    rcases List.mem_cons.mp member with rfl | below
    · exact refl _
    · rcases List.mem_append.mp below with member | member
      · exact (first member).trans
          ⟨List.subset_append_left _ _, List.subset_append_left _ _, Nat.le_max_left _ _⟩
      · exact (second member).trans
          ⟨List.subset_append_right _ _, List.subset_append_right _ _, Nat.le_max_right _ _⟩
  | not inner ih | group inner ih =>
    rcases List.mem_cons.mp member with rfl | below
    · exact refl _
    · exact (ih below).trans ⟨List.Subset.refl _, List.Subset.refl _, Nat.le_add_left _ _⟩

theorem stripGroups (expr : Expr) : expr.stripGroups.Milder expr := by
  suffices same : expr.stripGroups.paths = expr.paths ∧ expr.stripGroups.operands = expr.operands ∧
      expr.stripGroups.nesting ≤ expr.nesting from ⟨by rw [same.1]; exact List.Subset.refl _,
        by rw [same.2.1]; exact List.Subset.refl _, same.2.2⟩
  induction expr with
  | predicate | comparison => exact ⟨rfl, rfl, Nat.le_refl _⟩
  | and left right first second | or left right first second =>
    simp only [Expr.stripGroups, Expr.paths, Expr.operands, Expr.nesting, first, second, true_and]
    omega
  | not inner ih | group inner ih =>
    simp only [Expr.stripGroups, Expr.paths, Expr.operands, Expr.nesting, ih, true_and]
    omega

theorem check {limit wider : Nat} (milder : mild.Milder expr) (wide : limit ≤ wider)
    (checked : expr.check limit = .ok ()) : mild.check wider = .ok () := by
  obtain ⟨sound, shallow⟩ := (check_ok_iff limit expr).mp checked
  have clamped := Limits.clampNesting_mono wide
  have nested := milder.nesting
  refine (check_ok_iff wider mild).mpr ⟨⟨?_, ?_⟩, by omega⟩
  · exact fun path member => sound.paths path (milder.paths member)
  · exact fun operand member => sound.finite operand (milder.operands member)

end Milder

/-- An expression is valid when its paths and operands are and its nesting stays within the limit, and else refused for
    the first of its nodes that is at fault. What is valid stays so in parts, without its groups and under wider limits. -/
theorem check_finds_first_fault (limit : Nat) (expr : Expr) :
    (expr.check limit = .ok () ↔
      (∀ path ∈ expr.paths, path.Valid) ∧ (∀ operand ∈ expr.operands, Number.isFinite operand.2 = true) ∧
        expr.nesting ≤ Limits.clampNesting limit) ∧
    (∀ error, expr.check limit = .error error ↔
      ∃ before node after, expr.nodes 0 = before ++ node :: after ∧
        (∀ earlier ∈ before, ∀ other, ¬ earlier.Fault (Limits.clampNesting limit) other) ∧
        node.Fault (Limits.clampNesting limit) error) ∧
    (expr.check limit = .ok () → ∀ wider, limit ≤ wider →
      (∀ node ∈ expr.nodes 0, node.expr.check wider = .ok ()) ∧ expr.stripGroups.check wider = .ok ()) := by
  refine ⟨?_, fun error => checkUnder_error_iff expr 0 (Nat.zero_le _), fun checked wider wide => ⟨?_, ?_⟩⟩
  · rw [check_ok_iff]
    have valid : (∀ path ∈ expr.paths, path.check = .ok ()) ↔ ∀ path ∈ expr.paths, path.Valid :=
      forall₂_congr fun path _ => path.check_ok_iff_valid
    rw [← valid]
    constructor
    · rintro ⟨⟨paths, finite⟩, shallow⟩
      exact ⟨paths, finite, shallow⟩
    · rintro ⟨paths, finite, shallow⟩
      exact ⟨⟨paths, finite⟩, shallow⟩
  · intro node member
    exact (Milder.of_mem_nodes member).check wide checked
  · exact (Milder.stripGroups expr).check wide checked

theorem check_finds_first_fault_deep :
    ∃ expr : Expr, expr.text = "tag.a and not (tag.b.gt or tag.c)" ∧
      (∃ before node after, expr.nodes 0 = before ++ node :: after ∧
        (∀ earlier ∈ before, ∀ other, ¬ earlier.Fault 1 other) ∧ node.Fault 1 (.nestingTooDeep 2 1)) ∧
      ∃ valid : Expr, valid.text = "not (tag.c)" ∧ valid.check 2 = .ok () ∧
        (∀ node ∈ valid.nodes 0, node.expr.check 7 = .ok ()) ∧ valid.stripGroups.check 7 = .ok () := by
  let expr : Expr := .and (.predicate ⟨["a"]⟩) (.not (.group (.or (.predicate ⟨["b", "gt"]⟩) (.predicate ⟨["c"]⟩))))
  let valid : Expr := .not (.group (.predicate ⟨["c"]⟩))
  have refused : expr.check 0 = .error (.nestingTooDeep 2 1) := by decide +kernel
  have checked : valid.check 2 = .ok () := by decide +kernel
  obtain ⟨-, fault, -⟩ := check_finds_first_fault 0 expr
  obtain ⟨-, -, keeps⟩ := check_finds_first_fault 2 valid
  exact ⟨expr, by decide +kernel, (fault _).mp refused, valid, by decide +kernel, checked, keeps checked 7 (by decide)⟩

end Expr

end TagQuery
