import Mathlib.Data.Option.NAry
import TagQuery.Expr.Stored
import TagQuery.Proofs.CompiledValidity
import TagQuery.Proofs.JsonRoundTrip

namespace TagQuery

namespace Json

open Number

/-- What a double comes back as when it is written and read; there is nothing to read if it is not finite. -/
def rereadFloat? (x : Float) : Option Float := (ofText? (Json.float x).text).bind asFloat?

theorem rereadFloat?_eq (operand : Float) (depth : Nat) :
    rereadFloat? operand = (reread? depth (.float operand)).bind asFloat? := by
  rw [rereadFloat?, text, ofText?_write, reread?, reread?]

theorem rereadFloat?_of_not_finite {x : Float} (endless : isFinite x = false) : rereadFloat? x = none := by
  rw [rereadFloat?_eq x 0, reread?, if_neg (by simp [endless])]
  rfl

theorem ofText?_two_and_a_half : ofText? (Json.float 2.5).text = some (.float 2.5) := by
  have written : floatText 2.5 = "2.5" := by
    have shortest : (List.range 17).findSome?
        (fun count => Decimal.ofDigitCount? .even (magnitude 2.5) (count + 1)) = some ⟨25, -1⟩ := by decide +kernel
    have digits : Decimal.shortest .even (magnitude 2.5) = ⟨25, -1⟩ := by
      rw [Decimal.shortest, shortest, Option.getD_some, Decimal.strip]
      rfl
    have nonzero : ¬ magnitude 2.5 = 0 := by decide +kernel
    have positive : negative 2.5 = false := by decide +kernel
    simp only [floatText, digits, positive]
    rw [if_neg nonzero]
    decide +kernel
  have parts : numeral "2.5".toList = some (⟨false, ['2'], ['5'], none⟩, []) := by decide +kernel
  have value : Numeral.value? ⟨false, ['2'], ['5'], none⟩ = some (.inr 2.5) := by
    have scaled : Numeral.value? ⟨false, ['2'], ['5'], none⟩ =
        (scale (Decimal.toFloat false ⟨25, 0⟩) (-1)).map .inr := rfl
    rw [scaled, scale]
    decide +kernel
  have read : numberOf? "2.5".toList = some (.float 2.5) := by
    simp only [numberOf?, numberAt, parts, value, Option.bind_eq_bind, Option.bind_some]
    rfl
  have finite : isFinite 2.5 = true := by decide +kernel
  rw [text, ofText?_write, reread?, if_pos finite, written, read]

end Json

namespace TagPath

theorem ofJson?_toJson (path : TagPath) : ofJson? path.toJson = some path := by
  have texts : (path.segments.map Json.string).mapM Json.asString? = some path.segments := by
    induction path.segments with
    | nil => rfl
    | cons segment segments ih =>
      rw [List.map_cons, List.mapM_cons, ih]
      rfl
  simp [ofJson?, toJson, Json.asObject?, Json.single?, Json.asArray?, texts]

theorem reread?_toJson (path : TagPath) (depth : Nat) :
    Json.reread? depth path.toJson = if 2 ≤ depth then some path.toJson else none := by
  have texts (depth : Nat) :
      (path.segments.map Json.string).mapM (Json.reread? depth) = some (path.segments.map Json.string) := by
    induction path.segments with
    | nil => rfl
    | cons segment segments ih =>
      rw [List.map_cons, List.mapM_cons, ih, Json.reread?_string]
      rfl
  match depth with
  | 0 => rfl
  | 1 => rfl
  | depth + 2 => simp [toJson, Json.reread?, Json.rereadFields?, Json.rereadItems?_eq, texts]

end TagPath

namespace Expr

/-- The expression that is read from the text of one. Only its operands can change. -/
def reread? : Expr → Option Expr
  | .predicate path => some (.predicate path)
  | .comparison key op operand => (Json.rereadFloat? operand).map (.comparison key op)
  | .and left right => Option.map₂ .and left.reread? right.reread?
  | .or left right => Option.map₂ .or left.reread? right.reread?
  | .not inner => inner.reread?.map .not
  | .group inner => inner.reread?.map .group

section Nodes

variable {kind? : Json → Option String} {word : String} {depth : Nat}

theorem reread_pair {join : Expr → Expr → Expr} (decodes : ∀ left right,
      ofKindedJson? kind? (.object [("type", .string word), ("left", left), ("right", right)]) =
        Option.map₂ join (ofKindedJson? innerKind? left) (ofKindedJson? innerKind? right))
    {left right : Json} {leftHeight rightHeight : Nat} {leftRead rightRead : Option Expr}
    (leftReads : ∀ depth, (Json.reread? depth left).bind (ofKindedJson? innerKind?) =
      if leftHeight + 2 ≤ depth then leftRead else none)
    (rightReads : ∀ depth, (Json.reread? depth right).bind (ofKindedJson? innerKind?) =
      if rightHeight + 2 ≤ depth then rightRead else none) :
    (Json.reread? depth (.object [("type", .string word), ("left", left), ("right", right)])).bind (ofKindedJson? kind?) =
      if 1 + max leftHeight rightHeight + 2 ≤ depth then Option.map₂ join leftRead rightRead else none := by
  cases depth with
  | zero => rfl
  | succ depth =>
    have parts : (Json.reread? (depth + 1) (.object [("type", .string word), ("left", left), ("right", right)])).bind
        (ofKindedJson? kind?) =
        Option.map₂ join ((Json.reread? depth left).bind (ofKindedJson? innerKind?))
          ((Json.reread? depth right).bind (ofKindedJson? innerKind?)) := by
      simp only [Json.reread?, Json.rereadFields?]
      cases Json.reread? depth left with
      | none => rfl
      | some left =>
        cases Json.reread? depth right with
        | none => simp
        | some right => exact decodes left right
    rw [parts, leftReads, rightReads]
    by_cases deep : 1 + max leftHeight rightHeight + 2 ≤ depth + 1
    · rw [if_pos deep, if_pos (by omega), if_pos (by omega)]
    · rw [if_neg deep]
      rcases (by omega : ¬ leftHeight + 2 ≤ depth ∨ ¬ rightHeight + 2 ≤ depth) with high | high
      · rw [if_neg high, Option.map₂_none_left]
      · rw [if_neg high, Option.map₂_none_right]

theorem reread_single {wrap : Expr → Expr} (decodes : ∀ inner,
      ofKindedJson? kind? (.object [("type", .string word), ("inner", inner)]) =
        (ofKindedJson? innerKind? inner).map wrap)
    {inner : Json} {innerHeight : Nat} {innerRead : Option Expr}
    (innerReads : ∀ depth, (Json.reread? depth inner).bind (ofKindedJson? innerKind?) =
      if innerHeight + 2 ≤ depth then innerRead else none) :
    (Json.reread? depth (.object [("type", .string word), ("inner", inner)])).bind (ofKindedJson? kind?) =
      if 1 + innerHeight + 2 ≤ depth then innerRead.map wrap else none := by
  cases depth with
  | zero => rfl
  | succ depth =>
    have part : (Json.reread? (depth + 1) (.object [("type", .string word), ("inner", inner)])).bind
        (ofKindedJson? kind?) = ((Json.reread? depth inner).bind (ofKindedJson? innerKind?)).map wrap := by
      simp only [Json.reread?, Json.rereadFields?]
      cases Json.reread? depth inner with
      | none => rfl
      | some inner => exact decodes inner
    rw [part, innerReads]
    by_cases deep : 1 + innerHeight + 2 ≤ depth + 1
    · rw [if_pos deep, if_pos (by omega)]
    · rw [if_neg deep, if_neg (by omega), Option.map_none]

end Nodes

/-- A stored expression is read back if the reader lets its nodes, and the path in a leaf, stand inside each other. -/
theorem ofKindedJson?_toJson (expr : Expr) {kind? : Json → Option String}
    (named : ∀ name, kind? (.string name) = some name) (depth : Nat) :
    (Json.reread? depth expr.toJson).bind (ofKindedJson? kind?) =
      if expr.height + 2 ≤ depth then expr.reread? else none := by
  have innerNamed (name : String) : innerKind? (.string name) = some name := rfl
  induction expr generalizing kind? depth with
  | predicate path =>
    cases depth with
    | zero => rfl
    | succ depth =>
      simp only [toJson, Json.reread?, Json.rereadFields?, TagPath.reread?_toJson]
      by_cases deep : 2 ≤ depth
      · simp [deep, height, reread?, ofKindedJson?, childrenOf, ofFields?, Json.single?, named, TagPath.ofJson?_toJson]
      · simp [deep, height]
  | comparison key op operand =>
    cases depth with
    | zero => rfl
    | succ depth =>
      rw [reread?, Json.rereadFloat?_eq operand depth]
      simp only [toJson, Json.reread?_object, Json.reread?_string, Json.rereadFields?, TagPath.reread?_toJson]
      by_cases deep : 2 ≤ depth
      · cases Json.reread? depth (.float operand) with
        | none => simp [deep]
        | some read =>
          simp [deep, height, ofKindedJson?, childrenOf, ofFields?, Json.single?, Json.asChoice?, named,
            TagPath.ofJson?_toJson, Comparison.ofWord_word, Option.map_eq_bind]
      · simp [deep, height]
  | and left right leftReads rightReads | or left right leftReads rightReads =>
    refine reread_pair (fun one two => ?_) (leftReads innerNamed) (rightReads innerNamed)
    simp [ofKindedJson?, childrenOf, ofFields?, Json.single?, named, Option.map₂, Option.map_eq_bind]
  | not inner reads | group inner reads =>
    refine reread_single (fun one => ?_) (reads innerNamed)
    simp [ofKindedJson?, childrenOf, ofFields?, Json.single?, named, Option.map_eq_bind]

theorem ofJsonText?_write (expr : Expr) (layout : Json.Layout) :
    ofJsonText? (expr.toJson.write layout) = if expr.height ≤ 125 then expr.reread? else none := by
  have named (name : String) : Json.asString? (.string name) = some name := rfl
  have read := ofKindedJson?_toJson expr named Json.maxDepth
  rw [ofJsonText?, Json.ofText?_write]
  refine read.trans (if_congr ?_ rfl rfl)
  rw [Json.maxDepth]
  omega

theorem reread?_eq_self {expr : Expr}
    (same : ∀ operand ∈ expr.operands, Json.rereadFloat? operand.2 = some operand.2) : expr.reread? = some expr := by
  induction expr with
  | predicate path => rfl
  | comparison key op operand =>
    rw [reread?, same (key, operand) List.mem_cons_self]
    rfl
  | and left right leftReads rightReads | or left right leftReads rightReads =>
    rw [operands, List.forall_mem_append] at same
    rw [reread?, leftReads same.1, rightReads same.2]
    rfl
  | not inner reads | group inner reads =>
    rw [reread?, reads same]
    rfl

theorem reread?_eq_none {expr : Expr} {operand : TagPath × Float} (member : operand ∈ expr.operands)
    (lost : Json.rereadFloat? operand.2 = none) : expr.reread? = none := by
  induction expr with
  | predicate path => cases member
  | comparison key op value =>
    rw [List.mem_singleton.mp member] at lost
    rw [reread?, lost, Option.map_none]
  | and left right leftLost rightLost | or left right leftLost rightLost =>
    rw [reread?]
    rcases List.mem_append.mp member with inLeft | inRight
    · rw [leftLost inLeft, Option.map₂_none_left]
    · rw [rightLost inRight, Option.map₂_none_right]
  | not inner lostInside | group inner lostInside => rw [reread?, lostInside member, Option.map_none]

/-- A stored expression loads back as itself if the reader gives its operands back, and so with its faults and with what
    it selects. One with an operand that is not finite does not load. -/
theorem stored_text_loads_back (expr : Expr) (layout : Json.Layout) :
    (expr.height ≤ 100 → (∀ operand ∈ expr.operands, Number.isFinite operand.2 = true) →
      (∀ operand ∈ expr.operands, Number.isFinite operand.2 = true →
        Json.ofText? (Json.float operand.2).text = some (.float operand.2)) →
      ofJsonText? (expr.toJson.write layout) = some expr ∧
        (∀ limit, (ofJsonText? (expr.toJson.write layout)).map (check limit) = some (expr.check limit)) ∧
        ∀ context, (ofJsonText? (expr.toJson.write layout)).map (eval context) = some (expr.eval context)) ∧
      ((∃ operand ∈ expr.operands, Number.isFinite operand.2 = false) →
        ofJsonText? (expr.toJson.write layout) = none) := by
  rw [ofJsonText?_write]
  refine ⟨fun low finite rereads => ?_, fun ⟨operand, member, endless⟩ => ?_⟩
  · have same : ∀ operand ∈ expr.operands, Json.rereadFloat? operand.2 = some operand.2 := by
      intro operand member
      rw [Json.rereadFloat?, rereads operand member (finite operand member)]
      rfl
    rw [if_pos (by omega), reread?_eq_self same]
    exact ⟨rfl, fun _ => rfl, fun _ => rfl⟩
  · rw [reread?_eq_none member (Json.rereadFloat?_of_not_finite endless), ite_self]

/-- Empty, quoted and unprintable segments, which no source can spell, are kept, and so is the fault that they are. -/
theorem stored_text_loads_back_quoted :
    let path : TagPath := ⟨["", "a\"b\\c\x01\n", "😀"]⟩
    let expr : Expr := .or (.not (.predicate path)) (.group (.and (.comparison path .atMost 2.5) (.predicate ⟨[]⟩)))
    let endless : Expr := .not (.comparison path .less (Number.ofMagnitude true Number.infinityBits))
    expr.height = 4 ∧ ofJsonText? (expr.toJson.write (.indented 0)) = some expr ∧
      (ofJsonText? (expr.toJson.write (.indented 0))).map (check 64) = some (.error (.invalidSegment "")) ∧
      ofJsonText? (endless.toJson.write .compact) = none := by
  intro path expr endless
  have finite : Number.isFinite 2.5 = true := by decide +kernel
  have infinite : Number.isFinite (Number.ofMagnitude true Number.infinityBits) = false := by decide +kernel
  have loads := (stored_text_loads_back expr (.indented 0)).1 (by decide) (List.forall_mem_singleton.mpr finite)
    (List.forall_mem_singleton.mpr fun _ => Json.ofText?_two_and_a_half)
  have refused := (stored_text_loads_back endless .compact).2 ⟨_, List.mem_singleton_self _, infinite⟩
  exact ⟨rfl, loads.1, (loads.2.1 64).trans rfl, refused⟩

end Expr

end TagQuery
