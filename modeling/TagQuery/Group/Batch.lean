import TagQuery.Group.TagSource

namespace TagQuery

structure BatchSettings where
  workers : Nat
  failFast : Bool
  entities : Nat
  policy : NonNumericPolicy
deriving DecidableEq, Repr

inductive BatchError
  | tooManyEntities (count limit : Nat)
  | workerFailure
deriving DecidableEq, Repr

namespace BatchError

def code : BatchError → String
  | .tooManyEntities .. => "E080"
  | .workerFailure => "E081"

def message : BatchError → String
  | .tooManyEntities count limit => s!"Too many entities in batch: {count} (max: {limit})"
  | .workerFailure => "Worker thread failed: worker thread panicked during evaluation"

def event (error : BatchError) : LogEvent := .error error.code error.message

end BatchError

structure Verdict where
  entity : String
  known : Bool
  decision : Decision
deriving DecidableEq, Repr

structure BatchReport where
  group : String
  members : List String := []
  nonMembers : List String := []
  errors : List (String × EvalError) := []
  unknown : List String := []
  submitted : Nat
  stoppedEarly : Bool := false
deriving DecidableEq, Repr

namespace BatchReport

def evaluated (report : BatchReport) : Nat :=
  report.members.length + report.nonMembers.length + report.errors.length

def isMember (report : BatchReport) (entity : String) : Bool := report.members.contains entity

def ofVerdicts (group : String) (submitted : Nat) (verdicts : List Verdict) : BatchReport where
  group
  submitted
  members := (verdicts.filter fun verdict => verdict.decision.isMember).map (·.entity)
  nonMembers :=
    (verdicts.filter fun verdict => verdict.decision = .notMember).map (·.entity)
  errors := verdicts.filterMap fun verdict =>
    match verdict.decision with
    | .error error => some (verdict.entity, error)
    | _ => none
  unknown := (verdicts.filter fun verdict => !verdict.known).map (·.entity)

def counts (report : BatchReport) : String :=
  "Group '" ++ report.group ++
    s!"': {report.evaluated} evaluated, {report.members.length} members, " ++
    s!"{report.nonMembers.length} non-members, {report.errors.length} errors"

def summary (report : BatchReport) (clock : Clock) : String :=
  report.counts ++ ", " ++ clock.elapsed ++ "ms"

end BatchReport

inductive BatchOutcome
  | completed (report : BatchReport)
  | failed (error : BatchError)
deriving DecidableEq, Repr

namespace Batch

structure Work where
  verdicts : List Verdict := []
  crashed : Bool := false
  events : List LogEvent := []

def chunks {α : Type} (size : Nat) : List α → List (List α)
  | [] => []
  | first :: rest => (first :: rest.take (size - 1)) :: chunks size (rest.drop (size - 1))
termination_by list => list.length
decreasing_by simp only [List.length_drop, List.length_cons]; omega

def chunkSize (entities workers : Nat) : Nat :=
  let workers := max workers 1
  max ((entities + workers - 1) / workers) 1

def unknownEvent (entity : String) : LogEvent :=
  (LogEvent.warning "W011" "Entity has no tag context, evaluating with no tags").withText
    "entity" entity

def failureEvent (group : DynamicGroup) (entity : String) (error : EvalError) : LogEvent :=
  (((LogEvent.warning "E082" "Entity evaluation failed").withText "entity" entity).withText
    "group" group.name).withText "error" error.message

/-- The decision about one entity with its events; nothing when the source of tags crashes. -/
def verdict? (group : DynamicGroup) (source : TagSource) (policy : NonNumericPolicy)
    (entity : String) : Option (Logged Verdict) :=
  let decided (known : Bool) (context : TagContext) : Logged Verdict := do
    Logged.when (!known) (unknownEvent entity)
    let decision := group.decide context policy
    match decision with
    | .error error => Logged.log (failureEvent group entity error)
    | _ => pure ()
    return ⟨entity, known, decision⟩
  match source.lookup entity with
  | .known context => some (decided true context)
  | .unknown => some (decided false .empty)
  | .crash => none

/-- Decides about the entities of one worker in order. With `failFast` the worker ends after an
    entity that it cannot decide. -/
def work (group : DynamicGroup) (source : TagSource) (settings : BatchSettings) :
    List String → Work
  | [] => {}
  | entity :: entities =>
    match verdict? group source settings.policy entity with
    | none => { crashed := true }
    | some logged =>
      if settings.failFast && logged.value.decision.isError then
        { verdicts := [logged.value], events := logged.events }
      else
        let others := work group source settings entities
        { others with
          verdicts := logged.value :: others.verdicts
          events := logged.events ++ others.events }

/-- The workers of a batch one after the other. With `failFast` no work is begun after an entity
    that could not be decided. -/
def workAll (group : DynamicGroup) (source : TagSource) (settings : BatchSettings) :
    List (List String) → List Work
  | [] => []
  | chunk :: chunks =>
    let done := work group source settings chunk
    if settings.failFast && done.verdicts.any fun verdict => verdict.decision.isError then [done]
    else done :: workAll group source settings chunks

/-- The decisions up to the first that fails, which ends a batch with `failFast`. -/
def untilFailure : List Verdict → List Verdict
  | [] => []
  | verdict :: verdicts =>
    if verdict.decision.isError then [verdict] else verdict :: untilFailure verdicts

def merge (group : DynamicGroup) (settings : BatchSettings) (submitted : Nat)
    (verdicts : List Verdict) : BatchReport :=
  if settings.failFast then
    let reported := untilFailure verdicts
    { BatchReport.ofVerdicts group.name submitted reported with
      stoppedEarly :=
        reported.any (fun verdict => verdict.decision.isError) && reported.length < submitted }
  else .ofVerdicts group.name submitted verdicts

def startEvent (group : DynamicGroup) (entities workers : Nat) : LogEvent :=
  (((LogEvent.info "I000" "Starting batch membership evaluation").withText
    "group" group.name).withNumber "entities" entities).withNumber "threads" workers

def parallelEvent (entities size workers : Nat) : LogEvent :=
  (((LogEvent.debug "D000" "Parallel batch configuration").withNumber
    "entities" entities).withNumber "chunk_size" size).withNumber "threads" workers

def completedEvent (report : BatchReport) : LogEvent :=
  (((((LogEvent.info "I080" "Batch membership evaluation completed").withText
    "group" report.group).withNumber "members" report.members.length).withNumber
    "non_members" report.nonMembers.length).withNumber
    "errors" report.errors.length).withDetail "duration_ms" .elapsed

/-- Joins the work of several workers in order. The first crash is reported and ends the joining; with a second
    one the caller crashes too. -/
def joinWork (works : List Work) : Crashable (Except BatchError (List Verdict)) :=
  let events := works.flatMap (·.events)
  match works.filter (·.crashed) with
  | [] => .mk ⟨some (.ok (works.flatMap (·.verdicts))), events⟩
  | [_] => .mk ⟨some (.error .workerFailure), events ++ [BatchError.workerFailure.event]⟩
  | _ => .mk ⟨none, events ++ [BatchError.workerFailure.event]⟩

def verdicts (group : DynamicGroup) (source : TagSource) (settings : BatchSettings)
    (workers : Nat) (entities : List String) : Crashable (Except BatchError (List Verdict)) :=
  if entities.isEmpty then pure (.ok [])
  else if workers = 1 then
    let done := work group source settings entities
    .mk ⟨if done.crashed then none else some (.ok done.verdicts), done.events⟩
  else do
    let size := chunkSize entities.length workers
    Logged.log (parallelEvent entities.length size workers)
    joinWork (workAll group source settings (chunks size entities))

def run (group : DynamicGroup) (source : TagSource) (settings : BatchSettings)
    (entities : List String) : Crashable BatchOutcome := do
  let limit := min settings.entities Limits.batchEntities
  if limit < entities.length then
    let error := BatchError.tooManyEntities entities.length limit
    Logged.log error.event
    return .failed error
  else
    let workers := Limits.clampWorkers settings.workers
    Logged.log (startEvent group entities.length workers)
    match ← verdicts group source settings workers entities with
    | .error error => return .failed error
    | .ok verdicts =>
      let report := merge group settings entities.length verdicts
      Logged.log (completedEvent report)
      return .completed report

def runKnown (group : DynamicGroup) (source : TagSource) (settings : BatchSettings) :
    Crashable BatchOutcome :=
  run group source settings source.entities

end Batch

end TagQuery
