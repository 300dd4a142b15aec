import Mathlib.Logic.Function.Basic
import TagQuery.Proofs.CacheRuns

namespace TagQuery

/-- A filter that clients hold together. Its address tells it apart from other filters of the same source. -/
structure SharedFilter where
  address : Nat
  filter : Filter
deriving DecidableEq, Repr

namespace SharedCache

inductive Task
  | idle
  | compiling (source : String)
  | holding (source : String) (shared : SharedFilter)
deriving DecidableEq, Repr

structure World (Client : Type) where
  filters : SourceMap SharedFilter := {}
  allocated : Nat := 0
  tasks : Client → Task := fun _ => .idle

/-- What a client does without being interrupted. A call ends with `found`, `rejected` or `settled`. -/
inductive Event (Client : Type)
  | found (client : Client) (source : String) (shared : SharedFilter)
  | missed (client : Client) (source : String)
  | rejected (client : Client) (source : String) (error : FilterError)
  | allocated (client : Client) (source : String) (shared : SharedFilter)
  | settled (client : Client) (source : String) (shared : SharedFilter)
  | invalidated (client : Client) (source : String) (present : Bool)
  | cleared (client : Client)

variable {Client : Type}

namespace Event

def answer? : Event Client → Option (String × Except FilterError SharedFilter)
  | .found _ source shared | .settled _ source shared => some (source, .ok shared)
  | .rejected _ source error => some (source, .error error)
  | _ => none

def Removes (source : String) : Event Client → Prop
  | .invalidated _ removed _ => removed = source
  | .cleared _ => True
  | _ => False

def address? : Event Client → Option Nat
  | .allocated _ _ shared => some shared.address
  | _ => none

end Event

/-- Whether all filters in the cache, and those on the way into it, are compiled from their sources. -/
structure Coherent (limit : Nat) (world : World Client) : Prop where
  resident : ∀ source shared, world.filters.get? source = some shared →
    Filter.compile limit source = .ok shared.filter
  held : ∀ client source shared, world.tasks client = .holding source shared →
    Filter.compile limit source = .ok shared.filter

theorem coherent_empty (limit : Nat) : Coherent limit ({} : World Client) where
  resident source shared found := by
    rw [SourceMap.get?_empty] at found
    cases found
  held _ _ _ holding := by cases holding

variable [DecidableEq Client]

def World.assign (world : World Client) (client : Client) (task : Task) : World Client :=
  { world with tasks := Function.update world.tasks client task }

/-- Looking up and putting in are each done under the lock, compiling is not. -/
inductive Step (limit : Nat) : World Client → Event Client → World Client → Prop
  | found {world : World Client} {client : Client} {source : String} {shared : SharedFilter}
      (idle : world.tasks client = .idle) (hit : world.filters.get? source = some shared) :
      Step limit world (.found client source shared) world
  | missed {world : World Client} {client : Client} {source : String}
      (idle : world.tasks client = .idle) (miss : world.filters.get? source = none) :
      Step limit world (.missed client source) (world.assign client (.compiling source))
  | rejected {world : World Client} {client : Client} {source : String} {error : FilterError}
      (task : world.tasks client = .compiling source) (failed : Filter.compile limit source = .error error) :
      Step limit world (.rejected client source error) (world.assign client .idle)
  | allocated {world : World Client} {client : Client} {source : String} {filter : Filter}
      (task : world.tasks client = .compiling source) (compiled : Filter.compile limit source = .ok filter) :
      Step limit world (.allocated client source ⟨world.allocated, filter⟩)
        { world.assign client (.holding source ⟨world.allocated, filter⟩) with allocated := world.allocated + 1 }
  | settled {world : World Client} {client : Client} {source : String} {shared : SharedFilter}
      (task : world.tasks client = .holding source shared) :
      Step limit world (.settled client source (world.filters.settle source shared).1)
        { world.assign client .idle with filters := (world.filters.settle source shared).2 }
  | invalidated {world : World Client} {client : Client} {source : String} (idle : world.tasks client = .idle) :
      Step limit world (.invalidated client source (world.filters.contains source))
        { world with filters := world.filters.erase source }
  | cleared {world : World Client} {client : Client} (idle : world.tasks client = .idle) :
      Step limit world (.cleared client) { world with filters := {} }

/-- Any number of clients, one event after the other. -/
inductive Run (limit : Nat) : World Client → List (Event Client) → World Client → Prop
  | done {world : World Client} : Run limit world [] world
  | step {before next after : World Client} {event : Event Client} {events : List (Event Client)}
      (first : Step limit before event next) (rest : Run limit next events after) :
      Run limit before (event :: events) after

variable {limit : Nat} {before after world : World Client} {event : Event Client} {events : List (Event Client)}
  {source : String} {shared : SharedFilter}

theorem Run.split {front back : List (Event Client)} (run : Run limit before (front ++ event :: back) after) :
    ∃ first second, Run limit before front first ∧ Step limit first event second ∧ Run limit second back after := by
  induction front generalizing before with
  | nil =>
    cases run with
    | step first rest => exact ⟨before, _, .done, first, rest⟩
  | cons other front ih =>
    cases run with
    | step earlier rest =>
      obtain ⟨first, second, ahead, step, later⟩ := ih rest
      exact ⟨first, second, .step earlier ahead, step, later⟩

theorem tasks_assign (world : World Client) (client other : Client) (task : Task) :
    (world.assign client task).tasks other = if other = client then task else world.tasks other :=
  Function.update_apply _ _ _ _

theorem Coherent.assign (coherent : Coherent limit world) (client : Client) (task : Task)
    (compiled : ∀ source shared, task = .holding source shared → Filter.compile limit source = .ok shared.filter) :
    Coherent limit (world.assign client task) where
  resident := coherent.resident
  held other source shared holding := by
    rw [tasks_assign] at holding
    split at holding
    · exact compiled source shared holding
    · exact coherent.held other source shared holding

theorem Step.coherent (step : Step limit before event after) (coherent : Coherent limit before) : Coherent limit after := by
  cases step with
  | found => exact coherent
  | @missed client source => exact coherent.assign client (.compiling source) nofun
  | @rejected client => exact coherent.assign client .idle nofun
  | @allocated client source filter task compiled =>
    have assigned := coherent.assign client (.holding source ⟨before.allocated, filter⟩) (by
      intro _ _ same
      cases same
      exact compiled)
    exact ⟨assigned.resident, assigned.held⟩
  | @settled client source shared task =>
    refine ⟨fun other entry found => ?_, (coherent.assign client .idle nofun).held⟩
    -- the filter that the client holds goes in only where the source is still missing
    cases present : before.filters.get? source with
    | some resident =>
      rw [SourceMap.settle, present] at found
      exact coherent.resident other entry found
    | none =>
      rw [SourceMap.get?_settle present] at found
      split at found
      · rename_i same
        cases same
        cases found
        exact coherent.held client source shared task
      · exact coherent.resident other entry found
  | @invalidated client source idle =>
    refine ⟨fun other entry found => ?_, coherent.held⟩
    rw [SourceMap.get?_erase] at found
    split at found
    · cases found
    · exact coherent.resident other entry found
  | cleared =>
    refine ⟨fun other entry found => ?_, coherent.held⟩
    rw [SourceMap.get?_empty] at found
    cases found

theorem Run.coherent (run : Run limit before events after) (coherent : Coherent limit before) : Coherent limit after := by
  induction run with
  | done => exact coherent
  | step first _ ih => exact ih (first.coherent coherent)

theorem Step.keeps (step : Step limit before event after) (kept : ¬ event.Removes source)
    (found : before.filters.get? source = some shared) : after.filters.get? source = some shared := by
  cases step with
  | found | missed | rejected | allocated => exact found
  | @settled client other entry task =>
    cases present : before.filters.get? other with
    | some resident =>
      rw [SourceMap.settle, present]
      exact found
    | none =>
      have apart : other ≠ source := by
        rintro rfl
        rw [present] at found
        cases found
      rw [SourceMap.get?_settle present, if_neg apart]
      exact found
  | @invalidated client removed idle =>
    have apart : removed ≠ source := kept
    rw [SourceMap.get?_erase, if_neg apart]
    exact found
  | cleared => exact absurd trivial kept

theorem Run.keeps (run : Run limit before events after) (kept : ∀ event ∈ events, ¬ event.Removes source)
    (found : before.filters.get? source = some shared) : after.filters.get? source = some shared := by
  induction run with
  | done => exact found
  | step first _ ih =>
    have next := first.keeps (kept _ List.mem_cons_self) found
    exact ih (fun event member => kept event (List.mem_cons_of_mem _ member)) next

theorem Step.resident_of_answer (step : Step limit before event after)
    (answered : event.answer? = some (source, .ok shared)) : after.filters.get? source = some shared := by
  cases step with
  | found _ hit =>
    cases answered
    exact hit
  | settled =>
    cases answered
    exact SourceMap.get?_settle_self
  | missed | rejected | allocated | invalidated | cleared => cases answered

theorem Step.answer_of_resident {resident : SharedFilter} (step : Step limit before event after)
    (answered : event.answer? = some (source, .ok shared)) (present : before.filters.get? source = some resident) :
    shared = resident := by
  cases step with
  | found _ hit =>
    cases answered
    exact Option.some.inj (hit.symm.trans present)
  | settled =>
    cases answered
    rw [SourceMap.settle, present]
  | missed | rejected | allocated | invalidated | cleared => cases answered

theorem Step.answer_compiled {result : Except FilterError SharedFilter} (step : Step limit before event after)
    (coherent : Coherent limit before) (answered : event.answer? = some (source, result)) :
    result.map (·.filter) = Filter.compile limit source := by
  cases result with
  | ok shared => exact ((step.coherent coherent).resident source shared (step.resident_of_answer answered)).symm
  | error error =>
    cases step with
    | rejected _ failed =>
      cases answered
      exact failed.symm
    | found | missed | allocated | settled | invalidated | cleared => cases answered

theorem Step.answers_agree {start last : World Client} {second : Event Client}
    {one other : Except FilterError SharedFilter} (step : Step limit start event before)
    (between : Run limit before events after) (step' : Step limit after second last) (coherent : Coherent limit start)
    (kept : ∀ event ∈ events, ¬ event.Removes source) (answered : event.answer? = some (source, one))
    (answered' : second.answer? = some (source, other)) : one = other := by
  have compiled := step.answer_compiled coherent answered
  have compiled' := step'.answer_compiled (between.coherent (step.coherent coherent)) answered'
  have alike := compiled.trans compiled'.symm
  -- both fail, or both have the filter that has stayed in the cache
  cases one with
  | error error =>
    cases other with
    | error error' => exact congrArg Except.error (Except.error.inj alike)
    | ok shared => cases alike
  | ok shared =>
    cases other with
    | error error => cases alike
    | ok shared' =>
      have resident := between.keeps kept (step.resident_of_answer answered)
      rw [step'.answer_of_resident answered' resident]

theorem Step.allocated_le (step : Step limit before event after) : before.allocated ≤ after.allocated := by
  cases step with
  | allocated => exact Nat.le_succ _
  | found | missed | rejected | settled | invalidated | cleared => exact Nat.le_refl _

theorem Run.addresses (run : Run limit before events after) :
    (∀ address ∈ events.filterMap Event.address?, before.allocated ≤ address) ∧
      (events.filterMap Event.address?).Nodup := by
  induction run with
  | done => exact ⟨nofun, .nil⟩
  | @step before next after event events first rest ih =>
    obtain ⟨later, apart⟩ := ih
    have grown := first.allocated_le
    cases first with
    | allocated =>
      refine ⟨fun address member => ?_, List.nodup_cons.mpr ⟨fun member => ?_, apart⟩⟩
      · rcases List.mem_cons.mp member with rfl | member
        · exact Nat.le_refl _
        · exact Nat.le_trans grown (later address member)
      · exact absurd (later _ member) (Nat.not_succ_le_self _)
    | found | missed | rejected | settled | invalidated | cleared => exact ⟨later, apart⟩

section Alone

variable {cache : FilterCache} {client : Client}

def Shows (cache : FilterCache) (world : World Client) : Prop :=
  ∀ source, cache.get? source = (world.filters.get? source).map (·.filter)

/-- A call that nobody interrupts is the call of a cache with one caller. -/
theorem getOrCompile_alone (shows : Shows cache world) (idle : world.tasks client = .idle) (source : String) :
    ∃ events after result, Run cache.limit world events after ∧ events.filterMap Event.answer? = [(source, result)] ∧
      result.map (·.filter) = (cache.getOrCompile source).value.1 ∧
      Shows (cache.getOrCompile source).value.2 after ∧ after.tasks client = .idle := by
  cases present : world.filters.get? source with
  | some shared =>
    have hit : cache.get? source = some shared.filter := by rw [shows, present]; rfl
    rw [FilterCache.getOrCompile_of_hit hit]
    exact ⟨[_], world, .ok shared, .step (.found idle present) .done, rfl, rfl, shows, idle⟩
  | none =>
    have miss : cache.get? source = none := by rw [shows, present]; rfl
    have compiling : (world.assign client (.compiling source)).tasks client = .compiling source := by
      rw [tasks_assign, if_pos rfl]
    rw [FilterCache.getOrCompile_of_miss miss]
    cases compiled : Filter.compile cache.limit source with
    | error error =>
      refine ⟨_, _, .error error, .step (.missed idle present) (.step (.rejected compiling compiled) .done), rfl, rfl,
        shows, ?_⟩
      rw [tasks_assign, if_pos rfl]
    | ok filter =>
      let began := world.assign client (.compiling source)
      let shared : SharedFilter := ⟨world.allocated, filter⟩
      let next : World Client := { began.assign client (.holding source shared) with allocated := world.allocated + 1 }
      have holding : next.tasks client = .holding source shared := (tasks_assign began client client _).trans (if_pos rfl)
      let after : World Client := { next.assign client .idle with filters := (world.filters.settle source shared).2 }
      have ran : Run cache.limit world [.missed client source, .allocated client source shared,
          .settled client source (world.filters.settle source shared).1] after :=
        .step (.missed idle present) (.step (.allocated compiling compiled) (.step (.settled holding) .done))
      refine ⟨_, after, .ok (world.filters.settle source shared).1, ran, rfl, ?_, fun other => ?_, ?_⟩
      · rw [SourceMap.settle_of_missing present]
        rfl
      · refine (SourceMap.get?_settle miss other).trans ?_
        rw [SourceMap.get?_settle present]
        split
        · rfl
        · exact shows other
      · exact (tasks_assign next client client _).trans (if_pos rfl)

theorem invalidate_alone (shows : Shows cache world) (idle : world.tasks client = .idle) (source : String) :
    ∃ after, Run limit world [.invalidated client source (cache.invalidate source).1] after ∧
      Shows (cache.invalidate source).2 after := by
  have same : (cache.invalidate source).1 = world.filters.contains source := by
    show (cache.get? source).isSome = _
    rw [shows, Option.isSome_map]
    rfl
  rw [same]
  refine ⟨_, .step (.invalidated idle) .done, fun other => ?_⟩
  refine (SourceMap.get?_erase other).trans ?_
  rw [SourceMap.get?_erase]
  split
  · rfl
  · exact shows other

theorem clear_alone (cache : FilterCache) (idle : world.tasks client = .idle) :
    ∃ after, Run limit world [.cleared client] after ∧ Shows cache.clear after := by
  refine ⟨_, .step (.cleared idle) .done, fun other => ?_⟩
  rw [SourceMap.get?_empty]
  exact SourceMap.get?_empty other

end Alone

/-- However the calls of any number of clients interleave, the cache holds what its sources compile to,
    each call ends with what its source compiles to, a call that fails leaves the cache as it was and its
    source out of it, and calls for a source have the very same result unless it is removed between
    their ends. -/
theorem shared_results_coherent (limit : Nat) (events : List (Event Client)) (world : World Client)
    (run : Run limit {} events world) :
    (∀ source shared, world.filters.get? source = some shared → Filter.compile limit source = .ok shared.filter) ∧
    (∀ event ∈ events, ∀ source result, event.answer? = some (source, result) →
      result.map (·.filter) = Filter.compile limit source) ∧
    (∀ source error, Filter.compile limit source = .error error → world.filters.get? source = none) ∧
    (∀ next client source error, Step limit world (.missed client source) next ∨
      Step limit world (.rejected client source error) next → next.filters = world.filters) ∧
    (∀ front first between second back source one other, events = front ++ first :: (between ++ second :: back) →
      first.answer? = some (source, one) → second.answer? = some (source, other) →
      (∀ event ∈ between, ¬ event.Removes source) → one = other) ∧
    (events.filterMap Event.address?).Nodup := by
  have coherent := run.coherent (coherent_empty limit)
  refine ⟨coherent.resident, fun event member source result answered => ?_, fun source error failed => ?_, ?_,
    fun front first between second back source one other whole answered answered' kept => ?_, run.addresses.2⟩
  · obtain ⟨front, back, rfl⟩ := List.append_of_mem member
    obtain ⟨before, after, ahead, step, -⟩ := run.split
    exact step.answer_compiled (ahead.coherent (coherent_empty limit)) answered
  · cases found : world.filters.get? source with
    | none => rfl
    | some shared =>
      have compiled := coherent.resident source shared found
      rw [failed] at compiled
      cases compiled
  · rintro next client source error (step | step) <;> cases step <;> rfl
  · subst whole
    obtain ⟨start, before, ahead, step, rest⟩ := run.split
    obtain ⟨after, last, middle, step', -⟩ := rest.split
    exact step.answers_agree middle step' (ahead.coherent (coherent_empty limit)) kept answered answered'

theorem shared_results_coherent_race :
    ∃ (filter : Filter) (shared : SharedFilter) (world : World Bool), Filter.compile 1 "tag.a" = .ok filter ∧
      Run 1 {} [.missed true "tag.a", .missed false "tag.a", .allocated true "tag.a" ⟨0, filter⟩,
        .allocated false "tag.a" ⟨1, filter⟩, .settled false "tag.a" ⟨1, filter⟩, .settled true "tag.a" shared] world ∧
      shared = ⟨1, filter⟩ := by
  let filter : Filter := .ofExpr "tag.a" (.predicate ⟨["a"]⟩)
  have compiled : Filter.compile 1 "tag.a" = .ok filter := by decide +kernel
  let filters : SourceMap SharedFilter := ((({} : SourceMap SharedFilter).settle "tag.a" ⟨1, filter⟩).2)
  let shared : SharedFilter := (filters.settle "tag.a" ⟨0, filter⟩).1
  have missing : ({} : SourceMap SharedFilter).get? "tag.a" = none := SourceMap.get?_empty "tag.a"
  have run : ∃ world : World Bool, Run 1 {} [.missed true "tag.a", .missed false "tag.a",
      .allocated true "tag.a" ⟨0, filter⟩, .allocated false "tag.a" ⟨1, filter⟩, .settled false "tag.a" ⟨1, filter⟩,
      .settled true "tag.a" shared] world :=
    ⟨_, .step (.missed rfl missing) (.step (.missed rfl missing) (.step (.allocated rfl compiled)
      (.step (.allocated rfl compiled) (.step (.settled rfl) (.step (.settled rfl) .done)))))⟩
  obtain ⟨world, run⟩ := run
  have same := (shared_results_coherent 1 _ world run).2.2.2.2.1 [_, _, _, _] _ [] _ [] "tag.a" _ _ rfl rfl rfl nofun
  exact ⟨filter, shared, world, compiled, run, (Except.ok.inj same).symm⟩

end SharedCache

end TagQuery
