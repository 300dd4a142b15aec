import TagQuery.Proofs.BatchDecisions
import TagQuery.Proofs.CompiledValidity

namespace TagQuery

namespace TagContext

variable {first second : TagContext} {key : String}

theorem contains_of_get? (same : first.get? key = second.get? key) : first.contains key = second.contains key := by
  unfold contains
  rw [Std.TreeMap.contains_eq_isSome_getElem?, Std.TreeMap.contains_eq_isSome_getElem?]
  exact congrArg Option.isSome same

theorem get?_of_isEmpty {context : TagContext} (bare : context.isEmpty = true) (key : String) : context.get? key = none :=
  Std.TreeMap.getElem?_of_isEmpty bare

end TagContext

theorem TagPath.holds_congr {path : TagPath} {first second : TagContext}
    (same : first.get? path.keyAndValue.1 = second.get? path.keyAndValue.1) : path.holds first = path.holds second := by
  unfold holds
  generalize path.keyAndValue = condition at same
  obtain ⟨key, value⟩ := condition
  cases value with
  | none => exact TagContext.contains_of_get? same
  | some value =>
    dsimp only at same ⊢
    rw [same]

namespace Expr

variable {expr : Expr} {context : TagContext} {key : String}

theorem mem_referencedKeys_iff : key ∈ expr.referencedKeys ↔ key ∈ expr.lookups := by
  rw [referencedKeys, Std.TreeSet.mem_toList, Std.TreeSet.mem_ofList, List.contains_iff_mem]

theorem eval_congr {first second : TagContext} (same : ∀ key ∈ expr.lookups, first.get? key = second.get? key) :
    expr.eval first = expr.eval second := by
  induction expr with
  | predicate path =>
    have one := same path.keyAndValue.1 (List.mem_singleton_self _)
    exact congrArg Except.ok (TagPath.holds_congr one)
  | comparison path op operand =>
    have one := same path.text (List.mem_singleton_self _)
    simp only [eval, evalComparison, one]
  | and left right before after | or left right before after =>
    have left := before fun key member => same key (List.mem_append_left _ member)
    have right := after fun key member => same key (List.mem_append_right _ member)
    simp only [eval, left, right]
  | not inner ih | group inner ih => simp only [eval, ih same]

theorem mem_lookups_of_operands {operand : TagPath × Float} (member : operand ∈ expr.operands) :
    operand.1.text ∈ expr.lookups := by
  induction expr with
  | predicate => cases member
  | comparison =>
    obtain rfl := List.mem_singleton.mp member
    exact List.mem_singleton_self _
  | and left right before after | or left right before after =>
    rcases List.mem_append.mp member with member | member
    · exact List.mem_append_left _ (before member)
    · exact List.mem_append_right _ (after member)
  | not inner ih | group inner ih => exact ih member

theorem eval_error (failed : expr.eval context = .error (.nonNumericTagValue key)) :
    (∃ operand ∈ expr.operands, key = operand.1.text) ∧
      ∃ value, context.get? key = some value ∧ Number.ofTagValue? value = none := by
  induction expr with
  | predicate => cases failed
  | comparison path op operand =>
    simp only [eval, evalComparison] at failed
    cases found : context.get? path.text with
    | none =>
      rw [found] at failed
      cases failed
    | some value =>
      cases read : Number.ofTagValue? value with
      | some number =>
        simp only [found, read] at failed
        cases failed
      | none =>
        simp only [found, read] at failed
        cases failed
        exact ⟨⟨_, List.mem_singleton_self _, rfl⟩, value, found, read⟩
  | and left right before after | or left right before after =>
    -- the left operand fails, or it leaves the result to the right one
    have failed : left.eval context = .error (.nonNumericTagValue key) ∨
        right.eval context = .error (.nonNumericTagValue key) := by
      simp only [eval] at failed
      split at failed
      · exact Or.inr failed
      · exact Or.inl failed
    rcases failed with failed | failed
    · obtain ⟨⟨operand, member, same⟩, value⟩ := before failed
      exact ⟨⟨operand, List.mem_append_left _ member, same⟩, value⟩
    · obtain ⟨⟨operand, member, same⟩, value⟩ := after failed
      exact ⟨⟨operand, List.mem_append_right _ member, same⟩, value⟩
  | not inner ih =>
    apply ih
    simp only [eval] at failed
    cases decided : inner.eval context with
    | ok holds =>
      rw [decided] at failed
      cases failed
    | error error =>
      rw [decided] at failed
      cases failed
      rfl
  | group inner ih => exact ih failed

end Expr

namespace DynamicGroup

variable {group : DynamicGroup} {context : TagContext} {policy : NonNumericPolicy} {error : EvalError}

theorem eval_of_decide_error (decided : group.decide context policy = .error error) :
    group.filter.expr.eval context = .error error := by
  unfold decide Filter.decide Filter.eval at decided
  split at decided
  · cases decided
  · cases result : group.filter.expr.eval context with
    | ok holds =>
      rw [result] at decided
      cases holds <;> cases decided
    | error other =>
      rw [result] at decided
      cases decided
      rfl

theorem isEmpty_of_decide_error (decided : group.decide context policy = .error error) : context.isEmpty = false := by
  obtain ⟨key⟩ := error
  obtain ⟨-, value, found, -⟩ := Expr.eval_error (eval_of_decide_error decided)
  cases bare : context.isEmpty with
  | false => rfl
  | true =>
    rw [TagContext.get?_of_isEmpty bare] at found
    cases found

theorem decide_of_isEmpty (bare : context.isEmpty = true) : (group.decide context policy).isError = false := by
  cases decided : group.decide context policy with
  | error error =>
    rw [isEmpty_of_decide_error decided] at bare
    cases bare
  | member | notMember => rfl

end DynamicGroup

namespace Batch

variable {group : DynamicGroup} {source : TagSource} {settings : BatchSettings} {policy : NonNumericPolicy}

def Decides (group : DynamicGroup) (source : TagSource) (policy : NonNumericPolicy) (verdict : Verdict) : Prop :=
  source.lookup verdict.entity ≠ .crash ∧ verdict = Batch.verdict group source policy verdict.entity

/-- Whether every error of a report is about an entity with tags and comes from them. -/
def BlamesTags (group : DynamicGroup) (source : TagSource) (policy : NonNumericPolicy) (report : BatchReport) : Prop :=
  ∀ entity error, (entity, error) ∈ report.errors →
    (∃ context, source.lookup entity = .known context ∧ context.isEmpty = false ∧
      group.decide context policy = .error error) ∧ entity ∉ report.unknown

theorem decides_of_verdict? {entity : String} {logged : Logged Verdict}
    (decided : verdict? group source policy entity = some logged) : Decides group source policy logged.value := by
  have answers : source.lookup entity ≠ .crash := by
    intro crash
    simp only [verdict?, crash] at decided
    cases decided
  obtain ⟨other, same, value⟩ := verdict?_value group policy answers
  obtain rfl := Option.some.inj (decided.symm.trans same)
  rw [Decides, value, verdict_entity]
  exact ⟨answers, rfl⟩

theorem Decides.known_of_error {verdict : Verdict} {error : EvalError} (decides : Decides group source policy verdict)
    (failed : verdict.decision = .error error) :
    ∃ context, source.lookup verdict.entity = .known context ∧ context.isEmpty = false ∧
      group.decide context policy = .error error := by
  obtain ⟨answers, same⟩ := decides
  rw [same] at failed
  unfold Batch.verdict at failed
  cases found : source.lookup verdict.entity with
  | crash => exact absurd found answers
  | known context =>
    rw [found] at failed
    exact ⟨context, rfl, DynamicGroup.isEmpty_of_decide_error failed, failed⟩
  | unknown =>
    rw [found] at failed
    cases DynamicGroup.isEmpty_of_decide_error failed

theorem work_decides (entities : List String) :
    ∀ verdict ∈ (work group source settings entities).verdicts, Decides group source settings.policy verdict := by
  induction entities with
  | nil => nofun
  | cons entity entities ih =>
    intro verdict member
    unfold work at member
    split at member
    · cases member
    · rename_i logged decided
      have first := decides_of_verdict? decided
      split at member
      · obtain rfl := List.mem_singleton.mp member
        exact first
      · rcases List.mem_cons.mp member with rfl | member
        · exact first
        · exact ih verdict member

theorem workAll_decides (pieces : List (List String)) :
    ∀ done ∈ workAll group source settings pieces, ∀ verdict ∈ done.verdicts,
      Decides group source settings.policy verdict := by
  induction pieces with
  | nil => nofun
  | cons piece pieces ih =>
    intro done member
    simp only [workAll] at member
    split at member
    · obtain rfl := List.mem_singleton.mp member
      exact work_decides piece
    · rcases List.mem_cons.mp member with rfl | member
      · exact work_decides piece
      · exact ih done member

theorem verdicts_cases (workers : Nat) (entities : List String) :
    (∃ list, (verdicts group source settings workers entities).run.value = some (.ok list) ∧
      ∀ verdict ∈ list, Decides group source settings.policy verdict) ∨
    (verdicts group source settings workers entities).run.value = none ∨
    (verdicts group source settings workers entities).run.value = some (.error .workerFailure) := by
  unfold verdicts
  split
  · exact Or.inl ⟨[], rfl, nofun⟩
  · split
    · cases crashed : (work group source settings entities).crashed with
      | true => exact Or.inr (Or.inl (if_pos crashed))
      | false => exact Or.inl ⟨_, if_neg (ne_true_of_eq_false crashed), work_decides entities⟩
    · rw [Crashable.value_bind, Crashable.value_lift, Option.bind_some]
      unfold joinWork
      split
      · refine Or.inl ⟨_, rfl, fun verdict member => ?_⟩
        obtain ⟨done, inside, member⟩ := List.mem_flatMap.mp member
        exact workAll_decides _ done inside verdict member
      · exact Or.inr (Or.inr rfl)
      · exact Or.inr (Or.inl rfl)

theorem mem_of_mem_untilFailure {verdict : Verdict} {list : List Verdict} (member : verdict ∈ untilFailure list) :
    verdict ∈ list := by
  induction list with
  | nil => cases member
  | cons first list ih =>
    simp only [untilFailure] at member
    split at member
    · obtain rfl := List.mem_singleton.mp member
      exact List.mem_cons_self
    · rcases List.mem_cons.mp member with rfl | member
      · exact List.mem_cons_self
      · exact List.mem_cons_of_mem _ (ih member)

theorem ofVerdicts_blamesTags {list : List Verdict} (decide : ∀ verdict ∈ list, Decides group source policy verdict)
    (name : String) (submitted : Nat) : BlamesTags group source policy (.ofVerdicts name submitted list) := by
  intro entity error listed
  obtain ⟨verdict, member, blamed⟩ := List.mem_filterMap.mp listed
  have failed : verdict.decision = .error error ∧ verdict.entity = entity := by
    split at blamed
    · rename_i found
      cases blamed
      exact ⟨found, rfl⟩
    · cases blamed
  obtain ⟨failed, rfl⟩ := failed
  obtain ⟨context, found, tagged, decided⟩ := (decide verdict member).known_of_error failed
  refine ⟨⟨context, found, tagged, decided⟩, fun unknown => ?_⟩
  -- another verdict about the same entity has looked it up in the same source
  obtain ⟨other, inside, same⟩ := List.mem_map.mp unknown
  obtain ⟨among, strange⟩ := List.mem_filter.mp inside
  obtain ⟨answers, value⟩ := decide other among
  rw [value, verdict_unknown group policy answers, same, found] at strange
  cases strange

theorem merge_blamesTags {list : List Verdict} (decide : ∀ verdict ∈ list, Decides group source settings.policy verdict)
    (submitted : Nat) : BlamesTags group source settings.policy (merge group settings submitted list) := by
  unfold merge
  split
  · have reported := fun verdict member => decide verdict (mem_of_mem_untilFailure member)
    exact ofVerdicts_blamesTags reported group.name submitted
  · exact ofVerdicts_blamesTags decide group.name submitted

theorem run_blamesTags {entities : List String} {report : BatchReport}
    (completed : (run group source settings entities).run.value = some (.completed report)) :
    BlamesTags group source settings.policy report := by
  by_cases few : entities.length ≤ min settings.entities Limits.batchEntities
  · rw [run_within group few] at completed
    rcases @verdicts_cases group source settings (Limits.clampWorkers settings.workers) entities with
      ⟨list, finished, decide⟩ | crashed | failed
    · rw [finished] at completed
      cases completed
      exact merge_blamesTags decide _
    · rw [crashed] at completed
      cases completed
    · rw [failed] at completed
      cases completed
  · unfold run at completed
    rw [if_pos (Nat.not_le.mp few)] at completed
    cases completed

end Batch

/-- An expression is decided by the tags of the keys that it refers to, and fails only where one of them
    has a value that is no number. So no entity without tags fails, alone or in a batch, whichever
    verdicts the workers of the batch have left. -/
theorem evaluation_reads_referenced_keys (expr : Expr) (group : DynamicGroup) (source : TagSource)
    (settings : BatchSettings) :
    (∀ first second : TagContext, (∀ key ∈ expr.referencedKeys, first.get? key = second.get? key) →
      expr.eval first = expr.eval second) ∧
    (∀ context key, expr.eval context = .error (.nonNumericTagValue key) →
      (∃ operand ∈ expr.operands, key = operand.1.text) ∧ key ∈ expr.referencedKeys ∧
      ∃ value, context.get? key = some value ∧ Number.ofTagValue? value = none) ∧
    (∀ context policy, context.isEmpty = true → (group.decide context policy).isError = false) ∧
    (∀ entity policy, source.lookup entity = .unknown →
      ∃ decision, group.decideFor? source entity policy = some decision ∧ decision.isError = false) ∧
    (∀ entities report, (Batch.run group source settings entities).run.value = some (.completed report) →
      Batch.BlamesTags group source settings.policy report) ∧
    ∀ list submitted, (∀ verdict ∈ list, Batch.Decides group source settings.policy verdict) →
      Batch.BlamesTags group source settings.policy (Batch.merge group settings submitted list) := by
  refine ⟨fun first second same => ?_, fun context key failed => ?_, fun _ _ => DynamicGroup.decide_of_isEmpty,
    fun entity policy unknown => ?_, fun _ _ => Batch.run_blamesTags, fun _ submitted decide => ?_⟩
  · apply Expr.eval_congr
    intro key member
    exact same key (Expr.mem_referencedKeys_iff.mpr member)
  · obtain ⟨⟨operand, member, rfl⟩, value⟩ := Expr.eval_error failed
    have referred := Expr.mem_referencedKeys_iff.mpr (Expr.mem_lookups_of_operands member)
    exact ⟨⟨operand, member, rfl⟩, referred, value⟩
  · refine ⟨group.decide .empty policy, ?_, DynamicGroup.decide_of_isEmpty rfl⟩
    simp only [DynamicGroup.decideFor?, unknown]
  · exact Batch.merge_blamesTags decide submitted

theorem evaluation_reads_referenced_keys_score :
    ∃ (group : DynamicGroup) (context other : TagContext),
      group.filter.expr.eval context = .error (.nonNumericTagValue "score") ∧
      group.filter.expr.eval other = .error (.nonNumericTagValue "score") ∧
      context.get? "team" ≠ other.get? "team" ∧ "score" ∈ group.filter.expr.referencedKeys := by
  let bound := Number.Decimal.toFloat false ⟨80, 0⟩
  let expr : Expr := .and (.not (.predicate ⟨["a", "10", "x"]⟩)) (.comparison ⟨["score"]⟩ .greater bound)
  let group : DynamicGroup := ⟨"risky", .ofExpr "not tag.a.10.x and tag.score.gt.80" expr⟩
  let context : TagContext := .ofList [("a.10", "y"), ("score", "high"), ("team", "red")]
  let other : TagContext := .ofList [("a.10", "y"), ("score", "high")]
  obtain ⟨same, truthful, -⟩ := evaluation_reads_referenced_keys expr group (EntityStore.source {}) ⟨1, false, 9, .error⟩
  have failed : expr.eval context = .error (.nonNumericTagValue "score") := by decide +kernel
  have alike := same context other (by decide +kernel)
  exact ⟨group, context, other, failed, alike.symm.trans failed, by decide +kernel, (truthful context "score" failed).2.1⟩

end TagQuery
