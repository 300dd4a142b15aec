import TagQuery.Proofs.NestingLimit
import TagQuery.Proofs.SegmentTexts

namespace TagQuery

open Lexer Text Layout

namespace TagPath

/-- What the check of a path leaves open: its words are short enough to be lexed, and its points are read as points. -/
structure Distinct (path : TagPath) : Prop where
  short : ∀ segment ∈ path.segments, startsWith isWordStart segment.toList = true → segment.utf8ByteSize ≤ Limits.wordBytes
  separated : TagPath.separated path.segments = true

theorem allows_iff (first : Bool) (segment : String) :
    allows first segment = true ↔
      isSegment segment = true ∧ isReserved segment = false ∧
        (first = false → Comparison.ofWord? segment = none) := by
  cases first <;> simp [allows, and_assoc]

theorem Distinct.writable {path : TagPath} (distinct : path.Distinct) (checked : path.check = .ok ()) :
    path.Writable := by
  obtain ⟨segments⟩ := path
  cases segments with
  | nil => cases checked
  | cons first rest =>
    obtain ⟨begins, all⟩ := (check_ok_iff first rest).mp checked
    have start := (allows_iff true first).mp begins
    have later (segment : String) (member : segment ∈ rest) := (allows_iff false segment).mp (all segment member)
    have short (segment : String) (member : segment ∈ first :: rest) (word : IsWord segment.toList) :
        byteLength segment.toList ≤ Limits.wordBytes := by
      rw [byteLength_toList]
      exact distinct.short segment member word.1
    exact
      { nonempty := List.cons_ne_nil first rest
        valid := List.forall_mem_cons.mpr ⟨start.1, fun segment member => (later segment member).1⟩
        free := List.forall_mem_cons.mpr ⟨start.2.1, fun segment member => (later segment member).2.1⟩
        short := short
        plain := fun segment member => (later segment member).2.2 rfl
        separated := distinct.separated }

theorem Lexical.short {path : TagPath} (lexical : path.Lexical) (segment : String) (member : segment ∈ path.segments) :
    startsWith isWordStart segment.toList = true → segment.utf8ByteSize ≤ Limits.wordBytes :=
  ((isLexeme_ofSegment_iff segment).mp (lexical.2 segment member)).2.2

end TagPath

namespace Expr

variable {limit : Nat} {expr : Expr}

theorem SoundConditions.reads_back_iff (sound : expr.SoundConditions) (ranked : expr.ranked = true)
    (nested : expr.leftNested = true) (shallow : expr.nesting ≤ Limits.clampNesting limit) :
    (∃ lexed, tokenize expr.text = .ok lexed ∧ Expr.ofTokens limit lexed.tokens = .ok expr) ↔
      (∀ path ∈ expr.paths, path.Distinct) ∧ expr.tokens.length ≤ Limits.tokens := by
  have whole : expr.text.toList = [] ++ (expr.text.toList ++ []) := (List.append_nil _).symm
  have ended : StopsNumber [] := ⟨rfl, nofun⟩
  constructor
  · rintro ⟨lexed, lexing, parsing⟩
    obtain ⟨splits, few⟩ := splits_of_tokenize lexing
    have spelled := ((Reader.run_ok_iff _ _ _ expr).mp parsing).1
    have lexical := spelled.paths_lexical splits.lexical
    rw [spelled.length_eq] at few
    rw [whole, ← List.append_nil (Token.untilEof _)] at splits
    have separated := (spelled.recovers sound.finite [] [] [] rfl ended splits).1
    exact ⟨fun path member => ⟨(lexical path member).short, separated path member⟩, few⟩
  · rintro ⟨distinct, few⟩
    have writable : expr.Writable :=
      ⟨ranked, fun path member => (distinct path member).writable (sound.paths path member), sound.finite⟩
    have splits := writable.legible.prints [] [] [] rfl ended splits_nil
    rw [← whole, List.append_nil] at splits
    obtain ⟨lexed, lexing, same⟩ := tokenize_of_splits splits few
    have spelled := (spells_regrouped ranked writable.paths).as_disjunction
    rw [regrouped_of_leftNested nested, ← same] at spelled
    exact ⟨lexed, lexing, (Reader.run_ok_iff _ _ _ expr).mpr ⟨spelled, shallow⟩⟩

theorem soundConditions_predicate {path : TagPath} (checked : (predicate path).check limit = .ok ()) :
    (predicate path).SoundConditions where
  paths := List.forall_mem_singleton.mpr checked
  finite := nofun

theorem soundConditions_comparison {key : TagPath} {op : Comparison} {operand : Float}
    (checked : (comparison key op operand).check limit = .ok ()) : (comparison key op operand).SoundConditions := by
  simp only [Expr.check, checkUnder] at checked
  cases path : key.check with
  | error error =>
    rw [path] at checked
    cases checked
  | ok =>
    rw [path] at checked
    cases finite : Number.isFinite operand with
    | false =>
      rw [finite] at checked
      cases checked
    | true => exact ⟨List.forall_mem_singleton.mpr path, List.forall_mem_singleton.mpr finite⟩

end Expr

theorem TagPath.tokens_length (path : List String) : (TagPath.tokens path).length = 2 * path.length := by
  induction path with
  | nil => rfl
  | cons first rest ih =>
    have step : (TagPath.tokens (first :: rest)).length = (TagPath.tokens rest).length + 2 := rfl
    rw [step, ih, List.length_cons]
    omega

/-- A valid condition is read back from its text, under any limit on nesting, just where its segments stay distinct and
    its tokens are not too many. -/
theorem valid_conditions_read_back_iff_distinct (limit other : Nat) :
    (∀ path : TagPath, (Expr.predicate path).check limit = .ok () →
      ((∃ lexed, tokenize ("tag." ++ path.text) = .ok lexed ∧
          Expr.ofTokens other lexed.tokens = .ok (.predicate path)) ↔
        path.Distinct ∧ 2 * path.segments.length + 1 ≤ Limits.tokens)) ∧
    (∀ (key : TagPath) (op : Comparison) (operand : Float), (Expr.comparison key op operand).check limit = .ok () →
      ((∃ lexed, tokenize (Expr.comparison key op operand).text = .ok lexed ∧
          Expr.ofTokens other lexed.tokens = .ok (.comparison key op operand)) ↔
        key.Distinct ∧ 2 * key.segments.length + 5 ≤ Limits.tokens)) := by
  constructor
  · intro path checked
    have sound := Expr.soundConditions_predicate checked
    have count : (Expr.predicate path).tokens.length = 2 * path.segments.length + 1 :=
      congrArg (· + 1) (TagPath.tokens_length path.segments)
    have back := @Expr.SoundConditions.reads_back_iff other _ sound rfl rfl (Nat.zero_le _)
    rw [Expr.paths, List.forall_mem_singleton, count] at back
    exact back
  · intro key op operand checked
    have sound := Expr.soundConditions_comparison checked
    have count : (Expr.comparison key op operand).tokens.length = 2 * key.segments.length + 5 := by
      rw [Expr.tokens, List.length_cons, List.length_append, TagPath.tokens_length]
      rfl
    have back := @Expr.SoundConditions.reads_back_iff other _ sound rfl rfl (Nat.zero_le _)
    rw [Expr.paths, List.forall_mem_singleton, count] at back
    exact back

theorem valid_conditions_read_back_iff_distinct_numbers :
    ∃ (path : TagPath) (bound : Float) (lexed lexed' : Lexed), "tag." ++ path.text = "tag.gt.10.-5.x_1.1.50" ∧
      (Expr.comparison path .atLeast bound).text = "tag.gt.10.-5.x_1.1.50.ge.-1.5" ∧
      (Expr.predicate path).check 0 = .ok () ∧ (Expr.comparison path .atLeast bound).check 0 = .ok () ∧
      tokenize ("tag." ++ path.text) = .ok lexed ∧ Expr.ofTokens 0 lexed.tokens = .ok (.predicate path) ∧
      tokenize (Expr.comparison path .atLeast bound).text = .ok lexed' ∧
      Expr.ofTokens 0 lexed'.tokens = .ok (.comparison path .atLeast bound) := by
  let path : TagPath := ⟨["gt", "10", "-5", "x_1", "1.50"]⟩
  let bound := Number.Decimal.toFloat true ⟨15, -1⟩
  have distinct : path.Distinct := ⟨by decide, by decide⟩
  have checked : (Expr.predicate path).check 0 = .ok () := by decide +kernel
  have checked' : (Expr.comparison path .atLeast bound).check 0 = .ok () := by decide +kernel
  obtain ⟨predicates, comparisons⟩ := valid_conditions_read_back_iff_distinct 0 0
  obtain ⟨lexed, lexing, parsing⟩ := (predicates path checked).mpr ⟨distinct, by decide⟩
  obtain ⟨lexed', lexing', parsing'⟩ := (comparisons path .atLeast bound checked').mpr ⟨distinct, by decide⟩
  exact ⟨path, bound, lexed, lexed', by decide, by decide +kernel, checked, checked', lexing, parsing, lexing', parsing'⟩

/-- Two numbers side by side are valid segments, but their text is that of one number. -/
theorem valid_numbers_fuse :
    ∃ (path : TagPath) (lexed : Lexed), (Expr.predicate path).check 64 = .ok () ∧
      tokenize ("tag." ++ path.text) = .ok lexed ∧ Expr.ofTokens 64 lexed.tokens = .ok (.predicate ⟨["1.5"]⟩) ∧
      Expr.ofTokens 64 lexed.tokens ≠ .ok (.predicate path) := by
  have reading : (tokenize ("tag." ++ TagPath.text ⟨["1", "5"]⟩)).toOption.map
      (fun lexed => Expr.ofTokens 64 lexed.tokens) = some (.ok (.predicate ⟨["1.5"]⟩)) := by decide +kernel
  obtain ⟨lexed, lexing, parsing⟩ := exists_tokenize reading
  refine ⟨⟨["1", "5"]⟩, lexed, by decide +kernel, lexing, parsing, ?_⟩
  rw [parsing]
  decide

end TagQuery
