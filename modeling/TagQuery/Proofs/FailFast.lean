import TagQuery.Proofs.WorkerTurns

namespace TagQuery

def DynamicGroup.FailsFor (group : DynamicGroup) (source : TagSource) (policy : NonNumericPolicy) (entity : String) :
    Prop :=
  ∃ error, group.decideFor? source entity policy = some (.error error)

namespace Batch

def shares (workers : Nat) (entities : List String) : List (List String) :=
  if workers = 1 then [entities] else chunks (chunkSize entities.length workers) entities

/-- Whether the workers of a batch can come to an end, and in every order of their turns come to the decisions of one
    report. -/
def EveryOrderReports (group : DynamicGroup) (source : TagSource) (settings : BatchSettings) (entities : List String)
    (report : BatchReport) : Prop :=
  (∃ verdicts, Interleaves group source settings (shares (Limits.clampWorkers settings.workers) entities) verdicts) ∧
    ∀ verdicts, Interleaves group source settings (shares (Limits.clampWorkers settings.workers) entities) verdicts →
      merge group settings entities.length verdicts = report

section

variable (group : DynamicGroup) {source : TagSource} {settings : BatchSettings} {entity : String}
  {entities : List String} {list front back : List Verdict} {failed : Verdict}

theorem shares_flatten (workers : Nat) (entities : List String) : (shares workers entities).flatten = entities := by
  unfold shares
  split
  · exact List.flatten_singleton
  · exact chunks_flatten _ entities

theorem verdict_isError_iff {policy : NonNumericPolicy} (answers : source.lookup entity ≠ .crash) :
    (verdict group source policy entity).decision.isError = true ↔ group.FailsFor source policy entity := by
  rw [DynamicGroup.FailsFor, decideFor?_eq group policy answers]
  cases (verdict group source policy entity).decision <;> simp [Decision.isError]

theorem untilFailure_of_calm (calm : ∀ verdict ∈ list, verdict.decision.isError = false) : untilFailure list = list := by
  induction list with
  | nil => rfl
  | cons verdict list ih =>
    obtain ⟨here, later⟩ := List.forall_mem_cons.mp calm
    simp only [untilFailure, here, Bool.false_eq_true, if_false, ih later]

theorem untilFailure_of_failure (calm : ∀ verdict ∈ front, verdict.decision.isError = false)
    (failure : failed.decision.isError = true) : untilFailure (front ++ failed :: back) = front ++ [failed] := by
  induction front with
  | nil => simp only [List.nil_append, untilFailure, failure, if_true]
  | cons verdict front ih =>
    obtain ⟨here, later⟩ := List.forall_mem_cons.mp calm
    simp only [List.cons_append, untilFailure, here, Bool.false_eq_true, if_false, ih later]

theorem work_failFast (failFast : settings.failFast = true)
    (answers : ∀ entity ∈ entities, source.lookup entity ≠ .crash) :
    (work group source settings entities).crashed = false ∧
      (work group source settings entities).verdicts =
        untilFailure (entities.map (verdict group source settings.policy)) := by
  induction entities with
  | nil => exact ⟨rfl, rfl⟩
  | cons entity entities ih =>
    obtain ⟨logged, found, value⟩ := verdict?_value group settings.policy (answers entity List.mem_cons_self)
    obtain ⟨crashed, verdicts⟩ := ih fun other member => answers other (List.mem_cons_of_mem _ member)
    rw [List.map_cons, untilFailure, ← value]
    cases failure : logged.value.decision.isError with
    | true => simp [work, found, failFast, failure]
    | false => simp [work, found, failure, crashed, verdicts]

theorem work_of_calm (answers : ∀ entity ∈ entities, source.lookup entity ≠ .crash)
    (calm : ∀ entity ∈ entities, (verdict group source settings.policy entity).decision.isError = false) :
    work group source settings entities = work group source { settings with failFast := false } entities := by
  induction entities with
  | nil => rfl
  | cons entity entities ih =>
    obtain ⟨logged, found, value⟩ := verdict?_value group settings.policy (answers entity List.mem_cons_self)
    obtain ⟨here, later⟩ := List.forall_mem_cons.mp calm
    rw [← value] at here
    simp only [work, found, here, Bool.and_false, Bool.false_eq_true, if_false,
      ih (fun other member => answers other (List.mem_cons_of_mem _ member)) later]

theorem workAll_of_calm {pieces : List (List String)} (answers : ∀ entity ∈ pieces.flatten, source.lookup entity ≠ .crash)
    (calm : ∀ entity ∈ pieces.flatten, (verdict group source settings.policy entity).decision.isError = false) :
    workAll group source settings pieces = workAll group source { settings with failFast := false } pieces := by
  induction pieces with
  | nil => rfl
  | cons piece pieces ih =>
    rw [List.flatten_cons, List.forall_mem_append] at answers calm
    have decided := (@work_of_answers group source { settings with failFast := false } _ rfl answers.1).2
    have quiet : (work group source { settings with failFast := false } piece).verdicts.any
        (fun verdict => verdict.decision.isError) = false := by
      rw [decided, List.any_map, List.any_eq_false]
      intro entity member
      simp [calm.1 entity member]
    simp only [workAll, work_of_calm group answers.1 calm.1, quiet, Bool.and_false, Bool.false_eq_true, if_false,
      ih answers.2 calm.2]

theorem verdicts_of_calm (workers : Nat) (answers : ∀ entity ∈ entities, source.lookup entity ≠ .crash)
    (calm : ∀ entity ∈ entities, (verdict group source settings.policy entity).decision.isError = false) :
    (verdicts group source settings workers entities).run.value =
      some (.ok (entities.map (verdict group source settings.policy))) := by
  have same : verdicts group source settings workers entities =
      verdicts group source { settings with failFast := false } workers entities := by
    have whole := chunks_flatten (chunkSize entities.length workers) entities
    have together := @workAll_of_calm group source settings (chunks (chunkSize entities.length workers) entities)
      (by rwa [whole]) (by rwa [whole])
    simp only [verdicts, work_of_calm group answers calm, together]
  rw [same]
  exact verdicts_value group workers rfl answers

theorem verdicts_of_one_worker (failFast : settings.failFast = true)
    (answers : ∀ entity ∈ entities, source.lookup entity ≠ .crash) :
    (verdicts group source settings 1 entities).run.value =
      some (.ok (untilFailure (entities.map (verdict group source settings.policy)))) := by
  obtain ⟨crashed, decided⟩ := work_failFast group failFast answers
  cases entities with
  | nil => rfl
  | cons entity entities =>
    show (if (work group source settings (entity :: entities)).crashed = true then none else _) = _
    rw [crashed, decided]
    rfl

theorem merge_of_calm (submitted : Nat) (calm : ∀ verdict ∈ list, verdict.decision.isError = false) :
    merge group settings submitted list = .ofVerdicts group.name submitted list := by
  have quiet : list.any (fun verdict => verdict.decision.isError) = false := by
    rw [List.any_eq_false]
    intro verdict member
    simp [calm verdict member]
  unfold merge
  split
  · simp only [untilFailure_of_calm calm, quiet, Bool.false_and]
    rfl
  · rfl

theorem merge_of_failure (submitted : Nat) (failFast : settings.failFast = true)
    (calm : ∀ verdict ∈ front, verdict.decision.isError = false) (failure : failed.decision.isError = true) :
    merge group settings submitted (front ++ [failed]) =
      { BatchReport.ofVerdicts group.name submitted (front ++ [failed]) with
        stoppedEarly := decide ((front ++ [failed]).length < submitted) } := by
  have stopped : untilFailure (front ++ [failed]) = front ++ [failed] := untilFailure_of_failure calm failure
  have any : (front ++ [failed]).any (fun verdict => verdict.decision.isError) = true := by simp [failure]
  simp only [merge, failFast, if_true, stopped, any, Bool.true_and]

theorem errors_of_failure {error : EvalError} (submitted : Nat) (calm : ∀ verdict ∈ front, verdict.decision.isError = false)
    (failure : failed.decision = .error error) :
    (BatchReport.ofVerdicts group.name submitted (front ++ [failed])).errors = [(failed.entity, error)] := by
  simp only [BatchReport.ofVerdicts, List.filterMap_append, List.filterMap_cons, failure, List.filterMap_nil]
  rw [List.filterMap_eq_nil_iff.mpr ?_, List.nil_append]
  intro verdict member
  have quiet := calm verdict member
  cases decision : verdict.decision with
  | error other =>
    rw [decision] at quiet
    cases quiet
  | member | notMember => rfl

theorem everyOrderReports
    (unstoppable : Unstoppable group source settings (shares (Limits.clampWorkers settings.workers) entities))
    (answers : ∀ entity ∈ entities, source.lookup entity ≠ .crash)
    (joined : (shares (Limits.clampWorkers settings.workers) entities).flatMap
      (fun share => (work group source settings share).verdicts) = list) :
    EveryOrderReports group source settings entities (merge group settings entities.length list) := by
  have whole := shares_flatten (Limits.clampWorkers settings.workers) entities
  refine ⟨exists_interleaves fun share shared entity member => ?_, fun verdicts interleaves => ?_⟩
  · apply answers
    rw [← whole]
    exact List.mem_flatten_of_mem shared member
  · rw [interleaves.eq unstoppable, joined]

theorem exists_first_failure (fails : ∃ entity ∈ entities, group.FailsFor source settings.policy entity) :
    ∃ before entity error after, entities = before ++ entity :: after ∧
      (∀ earlier ∈ before, ¬ group.FailsFor source settings.policy earlier) ∧
      group.decideFor? source entity settings.policy = some (.error error) := by
  induction entities with
  | nil => simp at fails
  | cons entity entities ih =>
    by_cases here : group.FailsFor source settings.policy entity
    · obtain ⟨error, decided⟩ := here
      exact ⟨[], entity, error, entities, rfl, nofun, decided⟩
    · have later : ∃ other ∈ entities, group.FailsFor source settings.policy other := by
        obtain ⟨other, member, failure⟩ := fails
        rcases List.mem_cons.mp member with rfl | member
        · exact absurd failure here
        · exact ⟨other, member, failure⟩
      obtain ⟨before, other, error, after, rfl, calm, decided⟩ := ih later
      exact ⟨entity :: before, other, error, after, rfl, List.forall_mem_cons.mpr ⟨here, calm⟩, decided⟩

theorem unstoppable_of_calm (failFast : settings.failFast = true)
    (answers : ∀ entity ∈ entities, source.lookup entity ≠ .crash)
    (calm : ∀ entity ∈ entities, (verdict group source settings.policy entity).decision.isError = false) (workers : Nat) :
    Unstoppable group source settings (shares workers entities) ∧
      (shares workers entities).flatMap (fun share => (work group source settings share).verdicts) =
        entities.map (verdict group source settings.policy) := by
  have whole := shares_flatten workers entities
  have decided (share : List String) (shared : share ∈ shares workers entities) :
      (work group source settings share).verdicts = share.map (verdict group source settings.policy) := by
    have inside (entity : String) (member : entity ∈ share) : entity ∈ entities := by
      rw [← whole]
      exact List.mem_flatten_of_mem shared member
    rw [(work_failFast group failFast fun entity member => answers entity (inside entity member)).2, untilFailure_of_calm]
    rw [List.forall_mem_map]
    exact fun entity member => calm entity (inside entity member)
  constructor
  · refine Or.inr fun share shared verdict member => ?_
    rw [decided share shared] at member
    obtain ⟨entity, inside, rfl⟩ := List.mem_map.mp member
    apply calm
    rw [← whole]
    exact List.mem_flatten_of_mem shared inside
  · rw [List.flatMap_def, List.map_congr_left decided, ← List.map_flatten, whole]

theorem quiet_of_calm {policy : NonNumericPolicy} (answers : ∀ entity ∈ entities, source.lookup entity ≠ .crash)
    (calm : ∀ entity ∈ entities, ¬ group.FailsFor source policy entity) :
    ∀ entity ∈ entities, (verdict group source policy entity).decision.isError = false := by
  intro entity member
  rw [Bool.eq_false_iff, ne_eq, verdict_isError_iff group (answers entity member)]
  exact calm entity member

def stoppedReport (group : DynamicGroup) (source : TagSource) (policy : NonNumericPolicy) (submitted : Nat)
    (reported : List String) : BatchReport :=
  { BatchReport.ofVerdicts group.name submitted (reported.map (verdict group source policy)) with
    stoppedEarly := decide (reported.length < submitted) }

theorem merge_untilFailure {before after : List String} (submitted : Nat) (failFast : settings.failFast = true)
    (quiet : ∀ earlier ∈ before, (verdict group source settings.policy earlier).decision.isError = false)
    (failure : (verdict group source settings.policy entity).decision.isError = true) :
    merge group settings submitted
        (untilFailure ((before ++ entity :: after).map (verdict group source settings.policy))) =
      stoppedReport group source settings.policy submitted (before ++ [entity]) := by
  have calm : ∀ decided ∈ before.map (verdict group source settings.policy), decided.decision.isError = false :=
    List.forall_mem_map.mpr quiet
  rw [List.map_append, List.map_cons, untilFailure_of_failure calm failure,
    merge_of_failure group submitted failFast calm failure, stoppedReport, List.map_append, List.map_singleton,
    List.length_append, List.length_append, List.length_map]
  rfl

theorem run_of_first_failure {before after : List String} (failFast : settings.failFast = true)
    (alone : Limits.clampWorkers settings.workers = 1)
    (answers : ∀ asked ∈ before ++ entity :: after, source.lookup asked ≠ .crash)
    (few : (before ++ entity :: after).length ≤ min settings.entities Limits.batchEntities)
    (quiet : ∀ earlier ∈ before, (verdict group source settings.policy earlier).decision.isError = false)
    (failure : (verdict group source settings.policy entity).decision.isError = true) :
    let report := stoppedReport group source settings.policy (before ++ entity :: after).length (before ++ [entity])
    (run group source settings (before ++ entity :: after)).run.value = some (.completed report) ∧
      EveryOrderReports group source settings (before ++ entity :: after) report := by
  have merged := @merge_untilFailure group source settings entity before after (before ++ entity :: after).length failFast
    quiet failure
  have single : shares (Limits.clampWorkers settings.workers) (before ++ entity :: after) = [before ++ entity :: after] := by
    rw [shares, if_pos alone]
  have decided := verdicts_of_one_worker group failFast answers
  rw [← alone] at decided
  rw [← merged]
  refine ⟨run_of_verdicts group few decided, everyOrderReports group ?_ answers ?_⟩
  · rw [single]
    exact Or.inl rfl
  · rw [single, List.flatMap_singleton, (work_failFast group failFast answers).2]

theorem run_of_calm (failFast : settings.failFast = true) (answers : ∀ entity ∈ entities, source.lookup entity ≠ .crash)
    (few : entities.length ≤ min settings.entities Limits.batchEntities)
    (quiet : ∀ entity ∈ entities, (verdict group source settings.policy entity).decision.isError = false) :
    let report := BatchReport.ofVerdicts group.name entities.length (entities.map (verdict group source settings.policy))
    (run group source settings entities).run.value = some (.completed report) ∧
      EveryOrderReports group source settings entities report := by
  have calm : ∀ decided ∈ entities.map (verdict group source settings.policy), decided.decision.isError = false :=
    List.forall_mem_map.mpr quiet
  have merged := @merge_of_calm group settings _ entities.length calm
  obtain ⟨unstoppable, joined⟩ := unstoppable_of_calm group failFast answers quiet (Limits.clampWorkers settings.workers)
  rw [← merged]
  exact ⟨run_of_verdicts group few (verdicts_of_calm group _ answers quiet),
    everyOrderReports group unstoppable answers joined⟩

end

/-- A batch of one worker that stops at the first failure reports the entities up to the first that cannot be decided, as
    a batch of them alone does. Where every entity can be decided, stopping changes nothing with any number of workers. -/
theorem failFast_reports_first_failure (group : DynamicGroup) (source : TagSource) (settings : BatchSettings)
    (entities : List String) (failFast : settings.failFast = true)
    (answers : ∀ entity ∈ entities, source.lookup entity ≠ .crash)
    (few : entities.length ≤ min settings.entities Limits.batchEntities) :
    (Limits.clampWorkers settings.workers = 1 → (∃ entity ∈ entities, group.FailsFor source settings.policy entity) →
      ∃ before entity error after report whole, entities = before ++ entity :: after ∧
        (∀ earlier ∈ before, ¬ group.FailsFor source settings.policy earlier) ∧
        group.decideFor? source entity settings.policy = some (.error error) ∧
        (run group source settings entities).run.value = some (.completed report) ∧
        (run group source { settings with failFast := false } (before ++ [entity])).run.value = some (.completed whole) ∧
        report.members = whole.members ∧ report.nonMembers = whole.nonMembers ∧ report.errors = whole.errors ∧
        report.unknown = whole.unknown ∧ report.errors = [(entity, error)] ∧ report.submitted = entities.length ∧
        (report.stoppedEarly = true ↔ (before ++ [entity]).length < entities.length) ∧
        EveryOrderReports group source settings entities report) ∧
    ((∀ entity ∈ entities, ¬ group.FailsFor source settings.policy entity) → ∀ workers, ∃ report,
      (run group source { settings with workers } entities).run.value = some (.completed report) ∧
      (run group source { settings with workers, failFast := false } entities).run.value = some (.completed report) ∧
      report.stoppedEarly = false ∧ EveryOrderReports group source { settings with workers } entities report) := by
  constructor
  · intro alone fails
    obtain ⟨before, entity, error, after, rfl, calm, decided⟩ := exists_first_failure group fails
    obtain ⟨answersBefore, answersAfter⟩ := List.forall_mem_append.mp answers
    have asked : source.lookup entity ≠ .crash := answersAfter entity List.mem_cons_self
    have quiet := quiet_of_calm group answersBefore calm
    have failure : (verdict group source settings.policy entity).decision = .error error := by
      rw [decideFor?_eq group settings.policy asked] at decided
      exact Option.some.inj decided
    have isError := (verdict_isError_iff group asked).mpr ⟨error, decided⟩
    obtain ⟨ran, everyOrder⟩ := run_of_first_failure group failFast alone answers few quiet isError
    have shorter : (before ++ [entity]).length ≤ (before ++ entity :: after).length := by simp
    have whole := @run_value group source { settings with failFast := false } (before ++ [entity]) rfl
      (List.forall_mem_append.mpr ⟨answersBefore, List.forall_mem_singleton.mpr asked⟩) (Nat.le_trans shorter few)
    refine ⟨before, entity, error, after, _, _, rfl, calm, decided, ran, whole, rfl, rfl, rfl, rfl, ?_, rfl,
      decide_eq_true_iff, everyOrder⟩
    have one := errors_of_failure group (before ++ entity :: after).length (List.forall_mem_map.mpr quiet) failure
    rw [verdict_entity] at one
    rw [← one, stoppedReport, List.map_append, List.map_singleton]
  · intro calm workers
    have quiet := quiet_of_calm group answers calm
    obtain ⟨ran, everyOrder⟩ := @run_of_calm group source { settings with workers } entities failFast answers few quiet
    have whole := @run_value group source { settings with workers, failFast := false } entities rfl answers few
    exact ⟨_, ran, whole, rfl, everyOrder⟩

theorem failFast_reports_first_failure_score :
    ∃ (group : DynamicGroup) (source : TagSource) (report : BatchReport),
      group.filter.source = "tag.score.gt.80" ∧
      (run group source ⟨0, true, 9, .error⟩ ["al", "bo", "cy", "bo"]).run.value = some (.completed report) ∧
      report.members = ["al"] ∧ report.errors = [("bo", .nonNumericTagValue "score")] ∧ report.submitted = 4 ∧
      report.stoppedEarly = true ∧ EveryOrderReports group source ⟨0, true, 9, .error⟩ ["al", "bo", "cy", "bo"] report ∧
      ∃ calm, (run group source ⟨3, true, 9, .error⟩ ["al", "cy", "al"]).run.value = some (.completed calm) ∧
        (run group source ⟨3, false, 9, .error⟩ ["al", "cy", "al"]).run.value = some (.completed calm) := by
  let bound := Number.Decimal.toFloat false ⟨80, 0⟩
  let group : DynamicGroup := ⟨"risky", .ofExpr "tag.score.gt.80" (.comparison ⟨["score"]⟩ .greater bound)⟩
  let store : EntityStore := .ofList
    [("al", .ofList [("score", "90.5")]), ("bo", .ofList [("score", "high")]), ("cy", .ofList [("score", "80")])]
  have answers (entities : List String) : ∀ entity ∈ entities, store.source.lookup entity ≠ .crash := by
    intro entity _
    simp only [EntityStore.source]
    split <;> simp
  have fails : group.decideFor? store.source "bo" .error = some (.error (.nonNumericTagValue "score")) := by
    decide +kernel
  let expected : BatchReport :=
    ⟨"risky", ["al"], [], [("bo", .nonNumericTagValue "score")], [], 4, true⟩
  have value : (run group store.source ⟨0, true, 9, .error⟩ ["al", "bo", "cy", "bo"]).run.value = some (.completed expected) := by
    decide +kernel
  have calm : ∀ entity ∈ ["al", "cy", "al"], ¬ group.FailsFor store.source .error entity := by
    have decided : ∀ entity ∈ ["al", "cy", "al"],
        ((group.decideFor? store.source entity .error).any Decision.isError) = false := by decide +kernel
    rintro entity member ⟨error, failure⟩
    have quiet := decided entity member
    rw [failure] at quiet
    cases quiet
  obtain ⟨_, _, _, _, report, _, _, _, _, ran, _, _, _, _, _, _, _, _, everyOrder⟩ :=
    (failFast_reports_first_failure group store.source ⟨0, true, 9, .error⟩ ["al", "bo", "cy", "bo"] rfl (answers _)
      (by decide)).1 rfl ⟨"bo", by simp, _, fails⟩
  obtain ⟨same, ran', ran'', -⟩ :=
    (failFast_reports_first_failure group store.source ⟨0, true, 9, .error⟩ ["al", "cy", "al"] rfl (answers _)
      (by decide)).2 calm 3
  obtain rfl : expected = report := by
    rw [value] at ran
    cases ran
    rfl
  exact ⟨group, store.source, expected, rfl, value, rfl, rfl, rfl, rfl, everyOrder, same, ran', ran''⟩

end Batch

end TagQuery
