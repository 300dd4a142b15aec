import Mathlib.Logic.Relation
import TagQuery.Proofs.BatchDecisions

namespace TagQuery.Batch

structure Worker where
  ahead : List String
  verdicts : List Verdict := []

structure Crew where
  stop : Bool := false
  workers : List Worker

def Crew.ofShares (shares : List (List String)) : Crew where
  workers := shares.map fun share => { ahead := share }

section

variable (group : DynamicGroup) (source : TagSource) (settings : BatchSettings)

/-- What one worker does about its next entity, with the flag before and after. A worker that has not seen the flag yet
    goes on. -/
inductive Turn : Bool → Worker → Bool → Worker → Prop
  | stops {entity : String} {ahead : List String} {verdicts : List Verdict} (failFast : settings.failFast = true) :
      Turn true ⟨entity :: ahead, verdicts⟩ true ⟨[], verdicts⟩
  | fails {stop : Bool} {entity : String} {ahead : List String} {verdicts : List Verdict} {logged : Logged Verdict}
      (decided : verdict? group source settings.policy entity = some logged)
      (failed : (settings.failFast && logged.value.decision.isError) = true) :
      Turn stop ⟨entity :: ahead, verdicts⟩ true ⟨[], verdicts ++ [logged.value]⟩
  | goesOn {stop : Bool} {entity : String} {ahead : List String} {verdicts : List Verdict} {logged : Logged Verdict}
      (decided : verdict? group source settings.policy entity = some logged)
      (passed : (settings.failFast && logged.value.decision.isError) = false) :
      Turn stop ⟨entity :: ahead, verdicts⟩ stop ⟨ahead, verdicts ++ [logged.value]⟩

inductive Step : Crew → Crew → Prop
  | turn {stop stop' : Bool} {before after : List Worker} {worker worker' : Worker}
      (turn : Turn group source settings stop worker stop' worker') :
      Step ⟨stop, before ++ worker :: after⟩ ⟨stop', before ++ worker' :: after⟩

/-- Whether workers on some shares can come to some decisions, joined in order, when all have ended. -/
def Interleaves (shares : List (List String)) (verdicts : List Verdict) : Prop :=
  ∃ crew, Relation.ReflTransGen (Step group source settings) (.ofShares shares) crew ∧
    (∀ worker ∈ crew.workers, worker.ahead = []) ∧ verdicts = crew.workers.flatMap (·.verdicts)

def Worker.outcome (worker : Worker) : List Verdict :=
  worker.verdicts ++ (work group source settings worker.ahead).verdicts

/-- Whether the flag can stop no work: there is but one share, or none with an entity that cannot be decided. -/
def Unstoppable (shares : List (List String)) : Prop :=
  shares.length = 1 ∨
    ∀ share ∈ shares, ∀ verdict ∈ (work group source settings share).verdicts, verdict.decision.isError = false

structure Keeps (shares : List (List String)) (crew : Crew) : Prop where
  outcomes : crew.workers.map (Worker.outcome group source settings) =
    shares.map fun share => (work group source settings share).verdicts
  idle : crew.stop = true → ∀ worker ∈ crew.workers, worker.ahead = []

variable {group source settings} {stop stop' : Bool} {worker worker' : Worker} {shares : List (List String)}
  {crew crew' : Crew}

theorem Turn.ahead_ne_nil (turn : Turn group source settings stop worker stop' worker') : worker.ahead ≠ [] := by
  cases turn <;> exact List.cons_ne_nil _ _

theorem Turn.outcome_eq (turn : Turn group source settings stop worker stop' worker')
    (idle : stop = true → worker.ahead = []) :
    worker'.outcome group source settings = worker.outcome group source settings := by
  cases turn with
  | stops => cases idle rfl
  | fails decided failed => simp [Worker.outcome, work, decided, failed]
  | goesOn decided passed => simp [Worker.outcome, work, decided, passed]

theorem Turn.flag (turn : Turn group source settings stop worker stop' worker') :
    stop' = stop ∨ worker'.ahead = [] ∧ ∃ verdict ∈ worker.outcome group source settings,
      verdict.decision.isError = true := by
  cases turn with
  | stops | goesOn => exact Or.inl rfl
  | @fails _ _ _ _ logged decided failed =>
    have error : logged.value.decision.isError = true := (Bool.and_eq_true_iff.mp failed).2
    refine Or.inr ⟨rfl, logged.value, ?_, error⟩
    simp [Worker.outcome, work, decided, failed]

theorem keeps_ofShares (shares : List (List String)) : Keeps group source settings shares (.ofShares shares) where
  outcomes := by
    rw [Crew.ofShares, List.map_map]
    rfl
  idle := nofun

theorem Keeps.step (keeps : Keeps group source settings shares crew)
    (unstoppable : Unstoppable group source settings shares) (step : Step group source settings crew crew') :
    Keeps group source settings shares crew' := by
  obtain ⟨outcomes, idle⟩ := keeps
  obtain @⟨stop, stop', before, after, worker, worker', turn⟩ := step
  have member : worker ∈ before ++ worker :: after := by simp
  have running : stop ≠ true := fun raised => turn.ahead_ne_nil (idle raised worker member)
  have same := turn.outcome_eq fun raised => absurd raised running
  constructor
  · rw [← outcomes]
    simp only [List.map_append, List.map_cons, same]
  · intro raised
    rcases turn.flag with kept | ⟨ended, verdict, inside, failed⟩
    · rw [kept] at raised
      exact absurd raised running
    · rcases unstoppable with lone | calm
      · -- the worker that raises the flag is the only one, and has ended
        have size : (before ++ worker :: after).length = 1 := by
          rw [← lone]
          simpa using congrArg List.length outcomes
        simp only [List.length_append, List.length_cons] at size
        obtain rfl : before = [] := List.eq_nil_of_length_eq_zero (by omega)
        obtain rfl : after = [] := List.eq_nil_of_length_eq_zero (by omega)
        intro other only
        obtain rfl := List.mem_singleton.mp only
        exact ended
      · have among : worker.outcome group source settings ∈
            (before ++ worker :: after).map (Worker.outcome group source settings) := List.mem_map_of_mem member
        rw [outcomes] at among
        obtain ⟨share, shared, whole⟩ := List.mem_map.mp among
        rw [← whole] at inside
        rw [calm share shared verdict inside] at failed
        cases failed

theorem Keeps.run (unstoppable : Unstoppable group source settings shares)
    (run : Relation.ReflTransGen (Step group source settings) (.ofShares shares) crew) :
    Keeps group source settings shares crew := by
  induction run with
  | refl => exact keeps_ofShares shares
  | tail _ step ih => exact ih.step unstoppable step

theorem Interleaves.eq (unstoppable : Unstoppable group source settings shares) {verdicts : List Verdict}
    (interleaves : Interleaves group source settings shares verdicts) :
    verdicts = shares.flatMap fun share => (work group source settings share).verdicts := by
  obtain ⟨crew, run, ended, rfl⟩ := interleaves
  have outcomes := (Keeps.run unstoppable run).outcomes
  have done : crew.workers.map (Worker.outcome group source settings) = crew.workers.map (·.verdicts) := by
    refine List.map_congr_left fun worker member => ?_
    rw [Worker.outcome, ended worker member]
    exact List.append_nil _
  rw [done] at outcomes
  rw [List.flatMap_def, List.flatMap_def, outcomes]

theorem exists_turns (before after : List Worker) {ahead : List String}
    (answers : ∀ entity ∈ ahead, source.lookup entity ≠ .crash) (stop : Bool) (verdicts : List Verdict) :
    ∃ stop' verdicts', Relation.ReflTransGen (Step group source settings)
      ⟨stop, before ++ ⟨ahead, verdicts⟩ :: after⟩ ⟨stop', before ++ ⟨[], verdicts'⟩ :: after⟩ := by
  induction ahead generalizing verdicts with
  | nil => exact ⟨stop, verdicts, .refl⟩
  | cons entity ahead ih =>
    obtain ⟨logged, decided, -⟩ := verdict?_value group settings.policy (answers entity List.mem_cons_self)
    cases failed : settings.failFast && logged.value.decision.isError with
    | true => exact ⟨true, _, .single (.turn (.fails decided failed))⟩
    | false =>
      obtain ⟨stop', verdicts', rest⟩ :=
        ih (fun other member => answers other (List.mem_cons_of_mem _ member)) (verdicts ++ [logged.value])
      exact ⟨stop', verdicts', .head (.turn (.goesOn decided failed)) rest⟩

theorem exists_interleaves (answers : ∀ share ∈ shares, ∀ entity ∈ share, source.lookup entity ≠ .crash) :
    ∃ verdicts, Interleaves group source settings shares verdicts := by
  suffices ends : ∀ (stop : Bool) (before : List Worker), (∀ worker ∈ before, worker.ahead = []) →
      ∃ crew, Relation.ReflTransGen (Step group source settings)
        ⟨stop, before ++ shares.map fun share => { ahead := share }⟩ crew ∧
        ∀ worker ∈ crew.workers, worker.ahead = [] by
    obtain ⟨crew, run, ended⟩ := ends false [] nofun
    exact ⟨_, crew, run, ended, rfl⟩
  induction shares with
  | nil =>
    intro stop before ended
    exact ⟨_, .refl, by simpa using ended⟩
  | cons share shares ih =>
    intro stop before ended
    obtain ⟨here, later⟩ := List.forall_mem_cons.mp answers
    obtain ⟨stop', verdicts, first⟩ := @exists_turns group source settings before
      (shares.map fun share => { ahead := share }) share here stop []
    obtain ⟨crew, rest, finished⟩ := ih later stop' (before ++ [⟨[], verdicts⟩]) (by
      rw [List.forall_mem_append]
      exact ⟨ended, List.forall_mem_singleton.mpr rfl⟩)
    rw [List.append_assoc] at rest
    exact ⟨crew, first.trans rest, finished⟩

end

end TagQuery.Batch
