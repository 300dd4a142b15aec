import TagQuery.Proofs.BatchDecisions

namespace TagQuery

def TagSource.crashes (source : TagSource) (entity : String) : Bool :=
  match source.lookup entity with
  | .crash => true
  | _ => false

theorem TagSource.crashes_iff {source : TagSource} {entity : String} :
    source.crashes entity = true ↔ source.lookup entity = .crash := by
  unfold crashes
  cases source.lookup entity <;> simp

namespace Batch

/-- Joins workers in order up to the first that crashed. The workers after it are left unjoined. -/
def joinInOrder : List Work → Except (List Work) (List Verdict)
  | [] => .ok []
  | done :: later => if done.crashed then .error later else (joinInOrder later).map (done.verdicts ++ ·)

/-- What joining comes to at the end of the workers' scope. The crash that was joined is reported; a crash among
    the workers left unjoined goes on in the caller, who gets nothing. -/
def leaveScope : Except (List Work) (List Verdict) → Option (Except BatchError (List Verdict))
  | .ok verdicts => some (.ok verdicts)
  | .error unjoined => if unjoined.any (·.crashed) then none else some (.error .workerFailure)

/-- The pieces of a batch that hold an entity whose tags cannot be asked for. -/
def crashingChunks (source : TagSource) (workers : Nat) (entities : List String) : List (List String) :=
  (chunks (chunkSize entities.length workers) entities).filter fun chunk => chunk.any source.crashes

theorem leaveScope_map (add : List Verdict → List Verdict) (joined : Except (List Work) (List Verdict)) :
    leaveScope (joined.map add) = (leaveScope joined).map (·.map add) := by
  cases joined with
  | ok verdicts => rfl
  | error unjoined =>
    simp only [Except.map, leaveScope]
    split <;> rfl

theorem leaveScope_joinInOrder (works : List Work) :
    leaveScope (joinInOrder works) =
      match works.filter (·.crashed) with
      | [] => some (.ok (works.flatMap (·.verdicts)))
      | [_] => some (.error .workerFailure)
      | _ :: _ :: _ => none := by
  induction works with
  | nil => rfl
  | cons done later ih =>
    by_cases crashed : done.crashed = true
    · -- the joining stops here, so the outcome hangs on the workers that are left
      rw [joinInOrder, if_pos crashed, List.filter_cons_of_pos crashed, leaveScope]
      cases others : later.filter (·.crashed) with
      | nil =>
        have steady : later.any (·.crashed) = false := by
          rw [List.any_eq_false]
          exact List.filter_eq_nil_iff.mp others
        rw [steady]
        rfl
      | cons second rest =>
        have found : second ∈ later.filter (·.crashed) := by
          rw [others]
          exact List.mem_cons_self
        have another : later.any (·.crashed) = true :=
          List.any_eq_true.mpr ⟨second, List.mem_filter.mp found⟩
        rw [another]
        rfl
    · rw [joinInOrder, if_neg crashed, leaveScope_map, ih, List.filter_cons_of_neg crashed]
      cases later.filter (·.crashed) with
      | nil => rfl
      | cons second rest => cases rest <;> rfl

theorem joinWork_eq_leaveScope (works : List Work) : (joinWork works).run.value = leaveScope (joinInOrder works) := by
  rw [leaveScope_joinInOrder, joinWork]
  cases works.filter (·.crashed) with
  | nil => rfl
  | cons first rest => cases rest <;> rfl

section

variable (group : DynamicGroup) {source : TagSource} {settings : BatchSettings} {entities : List String}

theorem verdict?_of_crash {entity : String} (policy : NonNumericPolicy) (crash : source.lookup entity = .crash) :
    verdict? group source policy entity = none := by
  rw [verdict?, crash]

theorem work_crashed (goesOn : settings.failFast = false) :
    (work group source settings entities).crashed = entities.any source.crashes := by
  induction entities with
  | nil => rfl
  | cons entity entities ih =>
    rw [List.any_cons, work]
    by_cases crash : source.lookup entity = .crash
    · rw [verdict?_of_crash group settings.policy crash, TagSource.crashes_iff.mpr crash]
      rfl
    · obtain ⟨logged, found, -⟩ := verdict?_value group settings.policy crash
      have answers : source.crashes entity = false := by
        rw [Bool.eq_false_iff, ne_eq, TagSource.crashes_iff]
        exact crash
      simp only [found, goesOn, answers, Bool.false_and, Bool.false_eq_true, if_false, Bool.false_or]
      exact ih

theorem crashed_works (goesOn : settings.failFast = false) (pieces : List (List String)) :
    ((workAll group source settings pieces).filter (·.crashed)).length =
      (pieces.filter fun piece => piece.any source.crashes).length := by
  rw [workAll_of_goesOn group goesOn, List.filter_map, List.length_map]
  refine congrArg List.length (List.filter_congr fun piece _ => ?_)
  exact work_crashed group goesOn

theorem crashingChunks_eq_nil_iff (workers : Nat) :
    crashingChunks source workers entities = [] ↔ ∀ entity ∈ entities, source.lookup entity ≠ .crash := by
  have whole := chunks_flatten (chunkSize entities.length workers) entities
  rw [crashingChunks, List.filter_eq_nil_iff]
  constructor
  · intro steady entity member crash
    rw [← whole] at member
    obtain ⟨chunk, inside, member⟩ := List.mem_flatten.mp member
    exact steady chunk inside (List.any_eq_true.mpr ⟨entity, member, TagSource.crashes_iff.mpr crash⟩)
  · intro answers chunk inside crashing
    obtain ⟨entity, member, crash⟩ := List.any_eq_true.mp crashing
    have among : entity ∈ entities := whole ▸ List.mem_flatten_of_mem inside member
    exact answers entity among (TagSource.crashes_iff.mp crash)

theorem verdicts_joined {workers : Nat} (several : workers ≠ 1) :
    (verdicts group source settings workers entities).run.value =
      leaveScope (joinInOrder (workAll group source settings (chunks (chunkSize entities.length workers) entities))) := by
  cases entities with
  | nil =>
    rw [chunks]
    rfl
  | cons entity entities =>
    rw [← joinWork_eq_leaveScope]
    simp only [verdicts, List.isEmpty_cons, Bool.false_eq_true, if_false, several]
    rw [Crashable.value_bind, Crashable.value_lift, Option.bind_some]

/-- What a batch of several workers comes to when nothing stops them: it completes unless a worker crashes, reports
    the crash of a single worker, and crashes itself with more of them. -/
theorem run_of_crashing_chunks (goesOn : settings.failFast = false)
    (few : entities.length ≤ min settings.entities Limits.batchEntities)
    (several : 1 < Limits.clampWorkers settings.workers) :
    match (crashingChunks source (Limits.clampWorkers settings.workers) entities).length with
    | 0 => ∃ report, (run group source settings entities).run.value = some (.completed report)
    | 1 => (run group source settings entities).run.value = some (.failed .workerFailure)
    | _ + 2 => (run group source settings entities).run.value = none := by
  have joined := @verdicts_joined group source settings entities _ (Nat.ne_of_gt several)
  rw [leaveScope_joinInOrder] at joined
  rw [crashingChunks, ← crashed_works group goesOn, run_within group few, joined]
  cases (workAll group source settings
      (chunks (chunkSize entities.length (Limits.clampWorkers settings.workers)) entities)).filter (·.crashed) with
  | nil => exact ⟨_, rfl⟩
  | cons first rest => cases rest <;> rfl

/-- Several workers report a crash of the tag source just when one worker alone meets it. When two workers meet one,
    joining ends at the first of them, so the batch crashes instead and with it all that would follow. -/
theorem crash_reported_iff_one_worker (group : DynamicGroup) (source : TagSource) (settings : BatchSettings)
    (entities : List String) (goesOn : settings.failFast = false)
    (few : entities.length ≤ min settings.entities Limits.batchEntities)
    (several : 1 < Limits.clampWorkers settings.workers) :
    ((∃ report, (run group source settings entities).run.value = some (.completed report)) ↔
      ∀ entity ∈ entities, source.lookup entity ≠ .crash) ∧
    ((run group source settings entities).run.value = some (.failed .workerFailure) ↔
      (crashingChunks source (Limits.clampWorkers settings.workers) entities).length = 1) ∧
    ((run group source settings entities).run.value = none ↔
      2 ≤ (crashingChunks source (Limits.clampWorkers settings.workers) entities).length) ∧
    (2 ≤ (crashingChunks source (Limits.clampWorkers settings.workers) entities).length →
      ∀ (α : Type) (next : BatchOutcome → Crashable α),
        (run group source settings entities >>= next).run = ⟨none, (run group source settings entities).run.events⟩) := by
  have outcome := @run_of_crashing_chunks group source settings entities goesOn few several
  rw [← crashingChunks_eq_nil_iff (Limits.clampWorkers settings.workers), ← List.length_eq_zero_iff]
  split at outcome
  · rename_i none
    obtain ⟨report, completed⟩ := outcome
    simp [completed, none]
  · rename_i one
    simp [outcome, one]
  · rename_i more
    refine ⟨by simp [outcome, more], by simp [outcome, more], by simp [outcome, more], fun _ _ next => ?_⟩
    exact Crashable.run_bind_crash outcome next

/-- Two workers that meet the same entity, whose tags cannot be asked for. -/
theorem two_crashes_unreported :
    ∃ (group : DynamicGroup) (source : TagSource) (settings : BatchSettings) (entities : List String),
      settings.failFast = false ∧ entities.length ≤ min settings.entities Limits.batchEntities ∧
      1 < Limits.clampWorkers settings.workers ∧ (∃ entity ∈ entities, source.lookup entity = .crash) ∧
      (run group source settings entities).run.value ≠ some (.failed .workerFailure) ∧
      (run group source settings entities).run.value = none := by
  let group : DynamicGroup := ⟨"g", .ofExpr "tag.a" (.predicate ⟨["a"]⟩)⟩
  let source : TagSource := ⟨fun entity => if entity = "x" then .crash else .unknown, []⟩
  have pieces : (crashingChunks source 2 ["x", "x"]).length = 2 := by
    simp [crashingChunks, chunks, chunkSize, source, TagSource.crashes]
  have outcome := @run_of_crashing_chunks group source ⟨2, false, 9, .noMatch⟩ ["x", "x"] rfl (by decide) (by decide)
  rw [show Limits.clampWorkers 2 = 2 from rfl, pieces] at outcome
  refine ⟨group, source, ⟨2, false, 9, .noMatch⟩, ["x", "x"], rfl, by decide, by decide,
    ⟨"x", List.mem_cons_self, rfl⟩, ?_, outcome⟩
  simp [outcome]

theorem crash_reported_iff_one_worker_twice :
    ∃ (group : DynamicGroup) (source : TagSource), source.lookup "x" = .crash ∧
      (run group source ⟨2, false, 9, .noMatch⟩ ["a", "b", "x", "x"]).run.value = some (.failed .workerFailure) ∧
      (run group source ⟨2, false, 9, .noMatch⟩ ["a", "x", "b", "x"]).run.value = none := by
  let group : DynamicGroup := ⟨"g", .ofExpr "tag.a" (.predicate ⟨["a"]⟩)⟩
  let source : TagSource := ⟨fun entity => if entity = "x" then .crash else .unknown, []⟩
  have together : (crashingChunks source 2 ["a", "b", "x", "x"]).length = 1 := by
    simp [crashingChunks, chunks, chunkSize, source, TagSource.crashes]
  have apart : (crashingChunks source 2 ["a", "x", "b", "x"]).length = 2 := by
    simp [crashingChunks, chunks, chunkSize, source, TagSource.crashes]
  obtain ⟨-, reported, -⟩ := crash_reported_iff_one_worker group source ⟨2, false, 9, .noMatch⟩ ["a", "b", "x", "x"] rfl
    (by decide) (by decide)
  obtain ⟨-, -, crashes, -⟩ := crash_reported_iff_one_worker group source ⟨2, false, 9, .noMatch⟩ ["a", "x", "b", "x"] rfl
    (by decide) (by decide)
  exact ⟨group, source, rfl, reported.mpr together, crashes.mpr (Nat.le_of_eq apart.symm)⟩

end

end Batch

end TagQuery
