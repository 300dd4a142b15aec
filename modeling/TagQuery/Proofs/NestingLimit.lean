import TagQuery.Proofs.CompiledValidity
import TagQuery.Proofs.ReaderStops

namespace TagQuery

theorem Limits.clampNesting_mono {limit wider : Nat} (wide : limit ≤ wider) :
    clampNesting limit ≤ clampNesting wider := by
  unfold clampNesting
  omega

namespace Expr

structure SoundConditions (expr : Expr) : Prop where
  paths : ∀ path ∈ expr.paths, path.check = .ok ()
  finite : ∀ operand ∈ expr.operands, Number.isFinite operand.2 = true

theorem SoundConditions.parts {left right expr : Expr} (sound : expr.SoundConditions)
    (paths : expr.paths = left.paths ++ right.paths) (operands : expr.operands = left.operands ++ right.operands) :
    left.SoundConditions ∧ right.SoundConditions := by
  obtain ⟨checked, finite⟩ := sound
  rw [paths, List.forall_mem_append] at checked
  rw [operands, List.forall_mem_append] at finite
  exact ⟨⟨checked.1, finite.1⟩, ⟨checked.2, finite.2⟩⟩

theorem checkUnder_of_soundConditions {limit : Nat} {expr : Expr} (sound : expr.SoundConditions) (depth : Nat)
    (within : depth ≤ limit) :
    expr.checkUnder limit depth =
      if depth + expr.nesting ≤ limit then .ok () else .error (.nestingTooDeep (limit + 1) limit) := by
  -- a check that goes past the limit does so by one level, since it stops there
  induction expr generalizing depth with
  | predicate path =>
    have checked : path.check = .ok () := sound.paths path (List.mem_singleton_self path)
    rw [nesting, Nat.add_zero, if_pos within]
    exact checked
  | comparison key op operand =>
    have checked : key.check = .ok () := sound.paths key (List.mem_singleton_self key)
    have finite : Number.isFinite operand = true := sound.finite (key, operand) (List.mem_singleton_self _)
    rw [nesting, Nat.add_zero, if_pos within, checkUnder, checked, finite]
    rfl
  | and left right first second | or left right first second =>
    obtain ⟨before, after⟩ := sound.parts rfl rfl
    rw [checkUnder, nesting, first before depth within, second after depth within]
    by_cases leftFits : depth + left.nesting ≤ limit
    · by_cases rightFits : depth + right.nesting ≤ limit
      · rw [if_pos leftFits, if_pos rightFits, if_pos (by omega)]
        rfl
      · rw [if_pos leftFits, if_neg rightFits, if_neg (by omega)]
        rfl
    · have deep : ¬ depth + max left.nesting right.nesting ≤ limit := by omega
      rw [if_neg leftFits, if_neg deep]
      rfl
  | not inner ih | group inner ih =>
    rw [checkUnder, nesting]
    by_cases deeper : depth + 1 ≤ limit
    · have rest := ih ⟨sound.paths, sound.finite⟩ (depth + 1) deeper
      rw [if_pos deeper, rest, Nat.add_assoc]
    · have deepest : depth = limit := by omega
      rw [if_neg deeper, if_neg (by omega), deepest]

theorem check_of_soundConditions {expr : Expr} (sound : expr.SoundConditions) (limit : Nat) :
    expr.check limit =
      if expr.nesting ≤ Limits.clampNesting limit then .ok ()
      else .error (.nestingTooDeep (Limits.clampNesting limit + 1) (Limits.clampNesting limit)) := by
  have checked := checkUnder_of_soundConditions sound 0 (Nat.zero_le (Limits.clampNesting limit))
  rwa [Nat.zero_add] at checked

theorem ofTokens_of_wider {limit wider : Nat} {tokens : List (Spanned Token)} {expr : Expr}
    (accepted : ofTokens wider tokens = .ok expr) :
    ofTokens limit tokens = .ok expr ↔ expr.nesting ≤ Limits.clampNesting limit := by
  have spelled := ((Reader.run_ok_iff _ _ _ expr).mp accepted).1
  constructor
  · intro accepted'
    exact ((Reader.run_ok_iff _ _ _ expr).mp accepted').2
  · intro nested
    exact (Reader.run_ok_iff _ _ _ expr).mpr ⟨spelled, nested⟩

end Expr

/-- A limit on nesting cuts readings off and changes nothing else. What a wider limit accepts is accepted up to the
    nesting of the expression, and the check of the expression draws the same line. -/
theorem nesting_limit_only_cuts_off (tokens : List (Spanned Token)) {limit wider : Nat} (wide : limit ≤ wider) :
    (Expr.ofTokens limit tokens = Expr.ofTokens wider tokens ∨
      ∃ offset, Expr.ofTokens limit tokens =
        .error (.nestingTooDeep offset (Limits.clampNesting limit + 1) (Limits.clampNesting limit))) ∧
    ∀ expr, Expr.ofTokens wider tokens = .ok expr →
      (Expr.ofTokens limit tokens = Expr.ofTokens wider tokens ↔ expr.nesting ≤ Limits.clampNesting limit) ∧
      (expr.SoundConditions →
        (expr.nesting ≤ Limits.clampNesting limit ↔
          ∀ depth bound, expr.check limit ≠ .error (.nestingTooDeep depth bound))) := by
  constructor
  · have clamped := Limits.clampNesting_mono wide
    rcases (Reader.within_start _).run_of_le clamped (Cursor.endOffset tokens) tokens with same | cut
    · exact Or.inl same.symm
    · exact Or.inr cut
  · intro expr accepted
    constructor
    · rw [accepted]
      exact Expr.ofTokens_of_wider accepted
    · intro sound
      rw [Expr.check_of_soundConditions sound limit]
      by_cases nested : expr.nesting ≤ Limits.clampNesting limit
      · rw [if_pos nested]
        exact iff_of_true nested nofun
      · rw [if_neg nested]
        exact iff_of_false nested fun silent => silent _ _ rfl

theorem nesting_limit_only_cuts_off_group :
    ∃ (lexed : Lexed) (expr : Expr), tokenize "tag.a and not (tag.b.gt.5)" = .ok lexed ∧ 0 ≤ 2 ∧
      Expr.ofTokens 2 lexed.tokens = .ok expr ∧ expr.SoundConditions ∧ expr.nesting = 2 ∧
      Expr.ofTokens 0 lexed.tokens = .error (.nestingTooDeep 14 2 1) ∧
      Expr.ofTokens 0 lexed.tokens ≠ Expr.ofTokens 2 lexed.tokens ∧
      ¬ ∀ depth bound, expr.check 0 ≠ .error (.nestingTooDeep depth bound) := by
  let expr : Expr := .and (.predicate ⟨["a"]⟩)
    (.not (.group (.comparison ⟨["b"]⟩ .greater (Number.Decimal.toFloat false ⟨5, 0⟩))))
  have sound : expr.SoundConditions := ⟨by decide +kernel, by decide +kernel⟩
  have deep : ¬ expr.nesting ≤ Limits.clampNesting 0 := by decide
  have readings : (tokenize "tag.a and not (tag.b.gt.5)").toOption.map
      (fun lexed => (Expr.ofTokens 2 lexed.tokens, Expr.ofTokens 0 lexed.tokens)) =
        some (.ok expr, .error (.nestingTooDeep 14 2 1)) := by decide +kernel
  obtain ⟨lexed, lexing, seen⟩ := exists_tokenize readings
  obtain ⟨accepted, refused⟩ := Prod.mk.inj seen
  obtain ⟨same, checked⟩ := (nesting_limit_only_cuts_off lexed.tokens (show 0 ≤ 2 by decide)).2 expr accepted
  exact ⟨lexed, expr, lexing, by decide, accepted, sound, rfl, refused, mt same.mp deep, mt (checked sound).mpr deep⟩

end TagQuery
