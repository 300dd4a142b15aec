import Mathlib.Data.List.Basic
import TagQuery.Group.Batch

namespace TagQuery

def Lookup.isUnknown : Lookup → Bool
  | .unknown => true
  | _ => false

namespace BatchReport

theorem evaluated_ofVerdicts (group : String) (submitted : Nat) (verdicts : List Verdict) :
    (ofVerdicts group submitted verdicts).evaluated = verdicts.length := by
  induction verdicts with
  | nil => rfl
  | cons verdict verdicts ih =>
    obtain ⟨entity, known, decision⟩ := verdict
    simp only [evaluated, ofVerdicts, List.length_map] at ih ⊢
    cases decision <;> simp [Decision.isMember] at ih ⊢ <;> omega

end BatchReport

namespace Batch

def verdict (group : DynamicGroup) (source : TagSource) (policy : NonNumericPolicy) (entity : String) : Verdict :=
  match source.lookup entity with
  | .known context => ⟨entity, true, group.decide context policy⟩
  | _ => ⟨entity, false, group.decide .empty policy⟩

section

variable (group : DynamicGroup) {source : TagSource} {settings : BatchSettings} (policy : NonNumericPolicy)
  {entity : String} {entities : List String}

theorem verdict_entity : (verdict group source policy entity).entity = entity := by
  unfold verdict
  split <;> rfl

theorem verdict?_value (answers : source.lookup entity ≠ .crash) :
    ∃ logged, verdict? group source policy entity = some logged ∧ logged.value = verdict group source policy entity := by
  unfold verdict? verdict
  cases found : source.lookup entity with
  | crash => exact absurd found answers
  | known context =>
    refine ⟨_, rfl, ?_⟩
    dsimp only
    cases group.decide context policy <;> rfl
  | unknown =>
    refine ⟨_, rfl, ?_⟩
    dsimp only
    cases group.decide .empty policy <;> rfl

theorem decideFor?_eq (answers : source.lookup entity ≠ .crash) :
    group.decideFor? source entity policy = some (verdict group source policy entity).decision := by
  unfold DynamicGroup.decideFor? verdict
  cases found : source.lookup entity with
  | crash => exact absurd found answers
  | known context => rfl
  | unknown => rfl

theorem verdict_unknown (answers : source.lookup entity ≠ .crash) :
    (!(verdict group source policy entity).known) = (source.lookup entity).isUnknown := by
  unfold verdict
  cases found : source.lookup entity with
  | crash => exact absurd found answers
  | known context => rfl
  | unknown => rfl

theorem work_of_answers (goesOn : settings.failFast = false)
    (answers : ∀ entity ∈ entities, source.lookup entity ≠ .crash) :
    (work group source settings entities).crashed = false ∧
      (work group source settings entities).verdicts = entities.map (verdict group source settings.policy) := by
  induction entities with
  | nil => exact ⟨rfl, rfl⟩
  | cons entity entities ih =>
    obtain ⟨logged, found, value⟩ := verdict?_value group settings.policy (answers entity List.mem_cons_self)
    obtain ⟨crashed, verdicts⟩ := ih fun other member => answers other (List.mem_cons_of_mem _ member)
    simp only [work, found, goesOn, Bool.false_and, Bool.false_eq_true, if_false]
    exact ⟨crashed, by rw [value, verdicts, List.map_cons]⟩

theorem workAll_of_goesOn (goesOn : settings.failFast = false) (pieces : List (List String)) :
    workAll group source settings pieces = pieces.map (work group source settings) := by
  induction pieces with
  | nil => rfl
  | cons piece pieces ih =>
    simp only [workAll, goesOn, Bool.false_and, Bool.false_eq_true, if_false, ih, List.map_cons]

theorem chunks_flatten {α : Type} (size : Nat) (list : List α) : (chunks size list).flatten = list := by
  fun_induction chunks size list with
  | case1 => rfl
  | case2 first rest ih => rw [List.flatten_cons, ih, List.cons_append, List.take_append_drop]

theorem joinWork_value {works : List Work} (steady : ∀ done ∈ works, done.crashed = false) :
    (joinWork works).run.value = some (.ok (works.flatMap (·.verdicts))) := by
  have none : works.filter (·.crashed) = [] := List.filter_eq_nil_iff.mpr fun done member => by simp [steady done member]
  rw [joinWork, none]
  rfl

theorem joinWork_pieces {pieces : List (List String)} (goesOn : settings.failFast = false)
    (answers : ∀ entity ∈ pieces.flatten, source.lookup entity ≠ .crash) :
    (joinWork (workAll group source settings pieces)).run.value =
      some (.ok (pieces.flatten.map (verdict group source settings.policy))) := by
  have decided (piece : List String) (member : piece ∈ pieces) :=
    work_of_answers group goesOn fun entity inside => answers entity (List.mem_flatten_of_mem member inside)
  have steady : ∀ done ∈ workAll group source settings pieces, done.crashed = false := by
    rw [workAll_of_goesOn group goesOn, List.forall_mem_map]
    exact fun piece member => (decided piece member).1
  have same := List.map_congr_left fun piece member => (decided piece member).2
  rw [joinWork_value steady, workAll_of_goesOn group goesOn, List.flatMap_map, List.flatMap_def, same, List.map_flatten]

theorem verdicts_value (workers : Nat) (goesOn : settings.failFast = false)
    (answers : ∀ entity ∈ entities, source.lookup entity ≠ .crash) :
    (verdicts group source settings workers entities).run.value =
      some (.ok (entities.map (verdict group source settings.policy))) := by
  unfold verdicts
  split
  · rename_i empty
    rw [List.isEmpty_iff.mp empty]
    rfl
  · split
    · obtain ⟨crashed, decided⟩ := work_of_answers group goesOn answers
      show (if (work group source settings entities).crashed = true then none else _) = _
      rw [crashed, decided]
      rfl
    · have whole := chunks_flatten (chunkSize entities.length workers) entities
      rw [← whole] at answers
      have joined := joinWork_pieces group goesOn answers
      rw [whole] at joined
      rwa [Crashable.value_bind, Crashable.value_lift]

theorem filter_verdicts (test : Verdict → Bool) (entities : List String) :
    ((entities.map (verdict group source policy)).filter test).map (·.entity) =
      entities.filter fun entity => test (verdict group source policy entity) := by
  rw [List.filter_map, List.map_map]
  exact (List.map_congr_left fun entity _ => verdict_entity group policy).trans (List.map_id _)

theorem filterMap_verdicts {α : Type} (part : Verdict → Option α) (entities : List String) :
    (entities.map (verdict group source policy)).filterMap part =
      entities.filterMap fun entity => part (verdict group source policy entity) := List.filterMap_map

theorem run_within (few : entities.length ≤ min settings.entities Limits.batchEntities) :
    (run group source settings entities).run.value =
      (verdicts group source settings (Limits.clampWorkers settings.workers) entities).run.value.map fun joined =>
        match joined with
        | .ok list => .completed (merge group settings entities.length list)
        | .error error => .failed error := by
  unfold run
  rw [if_neg (Nat.not_lt.mpr few), Crashable.value_bind, Crashable.value_lift, Option.bind_some, Crashable.value_bind]
  cases (verdicts group source settings (Limits.clampWorkers settings.workers) entities).run.value with
  | none => rfl
  | some joined => cases joined <;> rfl

theorem run_of_verdicts {list : List Verdict} (few : entities.length ≤ min settings.entities Limits.batchEntities)
    (decided : (verdicts group source settings (Limits.clampWorkers settings.workers) entities).run.value =
      some (.ok list)) :
    (run group source settings entities).run.value =
      some (.completed (merge group settings entities.length list)) := by
  rw [run_within group few, decided, Option.map_some]

theorem run_value (goesOn : settings.failFast = false) (answers : ∀ entity ∈ entities, source.lookup entity ≠ .crash)
    (few : entities.length ≤ min settings.entities Limits.batchEntities) :
    (run group source settings entities).run.value =
      some (.completed
        (.ofVerdicts group.name entities.length (entities.map (verdict group source settings.policy)))) := by
  have ended := run_of_verdicts group few (verdicts_value group (Limits.clampWorkers settings.workers) goesOn answers)
  simpa only [merge, goesOn, Bool.false_eq_true, if_false] using ended

/-- A batch that is not stopped lists its entities as each alone is decided, in order, however many
    workers take part. -/
theorem run_lists_single_decisions (group : DynamicGroup) (source : TagSource) (settings : BatchSettings)
    (entities : List String) (goesOn : settings.failFast = false)
    (answers : ∀ entity ∈ entities, source.lookup entity ≠ .crash)
    (few : entities.length ≤ min settings.entities Limits.batchEntities) :
    ∃ report,
      (∀ workers, (run group source { settings with workers } entities).run.value = some (.completed report)) ∧
      report.group = group.name ∧
      report.members =
        entities.filter (fun entity => group.decideFor? source entity settings.policy = some .member) ∧
      report.nonMembers =
        entities.filter (fun entity => group.decideFor? source entity settings.policy = some .notMember) ∧
      report.errors =
        entities.filterMap (fun entity =>
          match group.decideFor? source entity settings.policy with
          | some (.error error) => some (entity, error)
          | _ => none) ∧
      report.unknown = entities.filter (fun entity => (source.lookup entity).isUnknown) ∧
      report.evaluated = entities.length ∧ report.submitted = entities.length ∧ report.stoppedEarly = false ∧
      ∀ workers, (verdicts group source settings workers entities).run.value =
        some (.ok (work group source settings entities).verdicts) := by
  let report := BatchReport.ofVerdicts group.name entities.length (entities.map (verdict group source settings.policy))
  refine ⟨report, fun workers => ?_, rfl, ?_, ?_, ?_, ?_, ?_, rfl, rfl, fun workers => ?_⟩
  · exact @run_value group source { settings with workers } entities goesOn answers few
  · refine (filter_verdicts group settings.policy _ _).trans (List.filter_congr fun entity member => ?_)
    rw [decideFor?_eq group settings.policy (answers entity member)]
    cases (verdict group source settings.policy entity).decision <;> rfl
  · refine (filter_verdicts group settings.policy _ _).trans (List.filter_congr fun entity member => ?_)
    rw [decideFor?_eq group settings.policy (answers entity member)]
    cases (verdict group source settings.policy entity).decision <;> rfl
  · refine (filterMap_verdicts group settings.policy _ _).trans (List.filterMap_congr fun entity member => ?_)
    rw [decideFor?_eq group settings.policy (answers entity member), verdict_entity]
    cases (verdict group source settings.policy entity).decision <;> rfl
  · refine (filter_verdicts group settings.policy _ _).trans (List.filter_congr fun entity member => ?_)
    exact verdict_unknown group settings.policy (answers entity member)
  · rw [BatchReport.evaluated_ofVerdicts, List.length_map]
  · rw [verdicts_value group workers goesOn answers, (work_of_answers group goesOn answers).2]

theorem run_lists_single_decisions_mixed :
    ∃ (group : DynamicGroup) (source : TagSource) (report : BatchReport),
      group.filter.source = "tag.score.gt.80" ∧
      (∀ workers, (run group source ⟨workers, false, 9, .error⟩ ["bo", "al", "eve", "al", "cy"]).run.value =
        some (.completed report)) ∧
      report.members = ["al", "al"] ∧ report.nonMembers = ["eve", "cy"] ∧
      report.errors = [("bo", .nonNumericTagValue "score")] ∧ report.unknown = ["eve"] ∧ report.evaluated = 5 := by
  let bound := Number.Decimal.toFloat false ⟨80, 0⟩
  let group : DynamicGroup := ⟨"risky", .ofExpr "tag.score.gt.80" (.comparison ⟨["score"]⟩ .greater bound)⟩
  let store : EntityStore := .ofList
    [("al", .ofList [("score", "90.5")]), ("bo", .ofList [("score", "high")]), ("cy", .ofList [("score", "80")])]
  have answers : ∀ entity ∈ ["bo", "al", "eve", "al", "cy"], store.source.lookup entity ≠ .crash := by
    intro entity _
    simp only [EntityStore.source]
    split <;> nofun
  obtain ⟨report, ran, -, members, others, errors, unknown, evaluated, -⟩ :=
    run_lists_single_decisions group store.source ⟨1, false, 9, .error⟩ _ rfl answers (by decide)
  refine ⟨group, store.source, report, rfl, ran, ?_, ?_, ?_, ?_, evaluated⟩
  · rw [members]
    decide +kernel
  · rw [others]
    decide +kernel
  · rw [errors]
    decide +kernel
  · rw [unknown]
    decide +kernel

end

end Batch

end TagQuery
