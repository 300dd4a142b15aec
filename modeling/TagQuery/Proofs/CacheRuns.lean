import Mathlib.Data.Finset.Card
import TagQuery.Filter.Cache

namespace TagQuery

namespace SourceMap

variable {α : Type} {map : SourceMap α} {source : String} {entry : α}

theorem get?_empty (source : String) : ({} : SourceMap α).get? source = none := Std.TreeMap.getElem?_emptyc

theorem settle_of_missing (missing : map.get? source = none) :
    map.settle source entry = (entry, ⟨map.entries.insert source entry⟩) := by
  unfold settle
  rw [missing]

theorem get?_settle (missing : map.get? source = none) (other : String) :
    (map.settle source entry).2.get? other = if source = other then some entry else map.get? other := by
  rw [settle_of_missing missing]
  refine Std.TreeMap.getElem?_insert.trans ?_
  simp only [Std.LawfulEqCmp.compare_eq_iff_eq]
  rfl

theorem get?_settle_self : (map.settle source entry).2.get? source = some (map.settle source entry).1 := by
  cases present : map.get? source with
  | some resident =>
    unfold settle
    rw [present]
    exact present
  | none => rw [get?_settle present, if_pos rfl, settle_of_missing present]

theorem contains_eq_contains_entries : map.contains source = map.entries.contains source :=
  Std.TreeMap.isSome_getElem?_eq_contains

theorem size_settle (missing : map.get? source = none) : (map.settle source entry).2.size = map.size + 1 := by
  have absent : map.entries.contains source = false := by
    rw [← contains_eq_contains_entries, contains, missing]
    rfl
  rw [settle_of_missing missing]
  refine Std.TreeMap.size_insert.trans (if_neg ?_)
  rw [absent]
  exact Bool.false_ne_true

theorem get?_erase (other : String) :
    (map.erase source).get? other = if source = other then none else map.get? other := by
  refine Std.TreeMap.getElem?_erase.trans ?_
  simp only [Std.LawfulEqCmp.compare_eq_iff_eq]
  rfl

theorem size_erase : (map.erase source).size = if map.contains source then map.size - 1 else map.size := by
  rw [contains_eq_contains_entries]
  exact Std.TreeMap.size_erase

theorem isEmpty_iff_size : map.isEmpty = true ↔ map.size = 0 := by
  unfold isEmpty
  rw [Std.TreeMap.isEmpty_eq_size_eq_zero]
  exact beq_iff_eq

end SourceMap

inductive CacheCall
  | get (source : String)
  | getOrCompile (source : String)
  | invalidate (source : String)
  | clear
deriving DecidableEq, Repr

inductive CacheAnswer
  | found (filter : Option Filter)
  | compiled (result : Except FilterError Filter)
  | removed (present : Bool)
  | cleared

def CacheCall.run {State : Type} (perform : State → CacheCall → CacheAnswer × State) :
    State → List CacheCall → List CacheAnswer × State
  | state, [] => ([], state)
  | state, call :: calls =>
    let (answer, next) := perform state call
    let (answers, last) := run perform next calls
    (answer :: answers, last)

/-- A call when it is known which sources are kept and nothing else is stored. -/
def performOnSources (limit : Nat) (kept : Finset String) : CacheCall → CacheAnswer × Finset String
  | .get source => (.found (if source ∈ kept then (Filter.compile limit source).toOption else none), kept)
  | .getOrCompile source =>
    match Filter.compile limit source with
    | .error error => (.compiled (.error error), kept)
    | .ok filter => (.compiled (.ok filter), insert source kept)
  | .invalidate source => (.removed (source ∈ kept), kept.erase source)
  | .clear => (.cleared, ∅)

namespace FilterCache

def perform (cache : FilterCache) : CacheCall → CacheAnswer × FilterCache
  | .get source => (.found (cache.get? source), cache)
  | .getOrCompile source =>
    let (result, after) := (cache.getOrCompile source).value
    (.compiled result, after)
  | .invalidate source =>
    let (present, after) := cache.invalidate source
    (.removed present, after)
  | .clear => (.cleared, cache.clear)

structure Keeps (cache : FilterCache) (limit : Nat) (kept : Finset String) : Prop where
  under_limit : cache.limit = limit
  compiles : ∀ source ∈ kept, ∃ filter, Filter.compile limit source = .ok filter
  get?_eq : ∀ source, cache.get? source = if source ∈ kept then (Filter.compile limit source).toOption else none
  size_eq : cache.size = kept.card

theorem getOrCompile_of_hit {cache : FilterCache} {source : String} {filter : Filter}
    (hit : cache.get? source = some filter) : (cache.getOrCompile source).value = (.ok filter, cache) := by
  unfold getOrCompile
  rw [hit]
  rfl

theorem getOrCompile_of_miss {cache : FilterCache} {source : String} (miss : cache.get? source = none) :
    (cache.getOrCompile source).value =
      match Filter.compile cache.limit source with
      | .error error => (.error error, cache)
      | .ok filter => (.ok filter, { cache with filters := (cache.filters.settle source filter).2 }) := by
  unfold getOrCompile
  rw [miss]
  simp only [Logged.value_bind, Filter.compileLogged_value]
  cases Filter.compile cache.limit source with
  | error error => rfl
  | ok filter =>
    have resident := congrArg Prod.fst (@SourceMap.settle_of_missing _ cache.filters source filter miss)
    exact Prod.ext (congrArg Except.ok resident) rfl

namespace Keeps

variable {cache : FilterCache} {limit : Nat} {kept : Finset String}

theorem nothing (limit : Nat) : Keeps (ofLimit limit) limit ∅ where
  under_limit := rfl
  compiles := nofun
  get?_eq source := SourceMap.get?_empty source
  size_eq := rfl

theorem get?_iff (keeps : Keeps cache limit kept) (source : String) (filter : Filter) :
    cache.get? source = some filter ↔ source ∈ kept ∧ Filter.compile limit source = .ok filter := by
  rw [keeps.get?_eq]
  by_cases resident : source ∈ kept
  · obtain ⟨compiled, accepted⟩ := keeps.compiles source resident
    simp [resident, accepted, Except.toOption]
  · simp [resident]

theorem miss (keeps : Keeps cache limit kept) {source : String} (absent : source ∉ kept) :
    cache.get? source = none := by
  rw [keeps.get?_eq, if_neg absent]

theorem contains_eq (keeps : Keeps cache limit kept) (source : String) :
    cache.filters.contains source = decide (source ∈ kept) := by
  show (cache.get? source).isSome = _
  by_cases resident : source ∈ kept
  · obtain ⟨filter, accepted⟩ := keeps.compiles source resident
    rw [(keeps.get?_iff source filter).mpr ⟨resident, accepted⟩]
    simp [resident]
  · rw [keeps.miss resident]
    simp [resident]

theorem getOrCompile_of_error (keeps : Keeps cache limit kept) {source : String} {error : FilterError}
    (rejected : Filter.compile limit source = .error error) :
    (cache.getOrCompile source).value = (.error error, cache) := by
  have absent : source ∉ kept := fun resident => by
    obtain ⟨filter, accepted⟩ := keeps.compiles source resident
    rw [rejected] at accepted
    cases accepted
  rw [getOrCompile_of_miss (keeps.miss absent), keeps.under_limit, rejected]

theorem settle (keeps : Keeps cache limit kept) {source : String} {filter : Filter} (absent : source ∉ kept)
    (accepted : Filter.compile limit source = .ok filter) :
    Keeps { cache with filters := (cache.filters.settle source filter).2 } limit (insert source kept) where
  under_limit := keeps.under_limit
  compiles other member := by
    rcases Finset.mem_insert.mp member with rfl | resident
    · exact ⟨filter, accepted⟩
    · exact keeps.compiles other resident
  get?_eq other := by
    refine (SourceMap.get?_settle (keeps.miss absent) other).trans ?_
    by_cases same : source = other
    · subst same
      rw [if_pos rfl, if_pos (Finset.mem_insert_self _ _), accepted]
      rfl
    · rw [if_neg same]
      simp only [Finset.mem_insert, Ne.symm same, false_or]
      exact keeps.get?_eq other
  size_eq := by
    rw [Finset.card_insert_of_notMem absent, ← keeps.size_eq]
    exact SourceMap.size_settle (keeps.miss absent)

theorem getOrCompile_of_ok (keeps : Keeps cache limit kept) {source : String} {filter : Filter}
    (accepted : Filter.compile limit source = .ok filter) :
    (cache.getOrCompile source).value.1 = .ok filter ∧
      Keeps (cache.getOrCompile source).value.2 limit (insert source kept) := by
  by_cases resident : source ∈ kept
  · rw [getOrCompile_of_hit ((keeps.get?_iff source filter).mpr ⟨resident, accepted⟩),
      Finset.insert_eq_self.mpr resident]
    exact ⟨rfl, keeps⟩
  · obtain rfl := keeps.under_limit
    rw [getOrCompile_of_miss (keeps.miss resident), accepted]
    exact ⟨rfl, keeps.settle resident accepted⟩

theorem invalidate (keeps : Keeps cache limit kept) (source : String) :
    Keeps (cache.invalidate source).2 limit (kept.erase source) where
  under_limit := keeps.under_limit
  compiles other member := keeps.compiles other (Finset.mem_of_mem_erase member)
  get?_eq other := by
    refine (SourceMap.get?_erase other).trans ?_
    by_cases same : source = other
    · subst same
      rw [if_pos rfl, if_neg (Finset.notMem_erase _ _)]
    · rw [if_neg same]
      simp only [Finset.mem_erase, ne_eq, Ne.symm same, not_false_eq_true, true_and]
      exact keeps.get?_eq other
  size_eq := by
    refine SourceMap.size_erase.trans ?_
    rw [keeps.contains_eq, Finset.card_erase_eq_ite]
    simp only [decide_eq_true_eq]
    rw [← keeps.size_eq]
    rfl

theorem perform (keeps : Keeps cache limit kept) (call : CacheCall) :
    (cache.perform call).1 = (performOnSources limit kept call).1 ∧
      Keeps (cache.perform call).2 limit (performOnSources limit kept call).2 := by
  cases call with
  | get source => exact ⟨congrArg CacheAnswer.found (keeps.get?_eq source), keeps⟩
  | getOrCompile source =>
    dsimp only [performOnSources]
    cases compiled : Filter.compile limit source with
    | error error =>
      have unchanged := keeps.getOrCompile_of_error compiled
      refine ⟨congrArg CacheAnswer.compiled (congrArg Prod.fst unchanged), ?_⟩
      show Keeps (cache.getOrCompile source).value.2 limit kept
      rw [unchanged]
      exact keeps
    | ok filter =>
      obtain ⟨answer, keeps_more⟩ := keeps.getOrCompile_of_ok compiled
      exact ⟨congrArg CacheAnswer.compiled answer, keeps_more⟩
  | invalidate source => exact ⟨congrArg CacheAnswer.removed (keeps.contains_eq source), keeps.invalidate source⟩
  | clear =>
    obtain rfl := keeps.under_limit
    exact ⟨rfl, nothing cache.limit⟩

theorem run (keeps : Keeps cache limit kept) (calls : List CacheCall) :
    (CacheCall.run FilterCache.perform cache calls).1 = (CacheCall.run (performOnSources limit) kept calls).1 ∧
      Keeps (CacheCall.run FilterCache.perform cache calls).2 limit
        (CacheCall.run (performOnSources limit) kept calls).2 := by
  induction calls generalizing cache kept with
  | nil => exact ⟨rfl, keeps⟩
  | cons call calls ih =>
    obtain ⟨answer, keeps_next⟩ := keeps.perform call
    obtain ⟨answers, keeps_last⟩ := ih keeps_next
    exact ⟨congrArg₂ List.cons answer answers, keeps_last⟩

theorem isEmpty_iff (keeps : Keeps cache limit kept) : cache.isEmpty = true ↔ kept = ∅ := by
  rw [← Finset.card_eq_zero, ← keeps.size_eq]
  exact SourceMap.isEmpty_iff_size

end Keeps

/-- However its calls are mixed, a cache answers as compilation does, for the sources that were
    compiled and not removed since. -/
theorem run_answers_from_sources (limit : Nat) (calls : List CacheCall) :
    ∃ answers cache kept,
      CacheCall.run perform (ofLimit limit) calls = (answers, cache) ∧
      CacheCall.run (performOnSources limit) ∅ calls = (answers, kept) ∧
      cache.size = kept.card ∧ (cache.isEmpty = true ↔ kept = ∅) ∧
      (∀ source ∈ kept, ∃ filter, Filter.compile limit source = .ok filter) ∧
      (∀ source filter, cache.get? source = some filter ↔
        source ∈ kept ∧ Filter.compile limit source = .ok filter) ∧
      (∀ source, (cache.getOrCompile source).value.1 = Filter.compile limit source) ∧
      ∀ source error, Filter.compile limit source = .error error → (cache.getOrCompile source).value.2 = cache := by
  obtain ⟨answers, keeps⟩ := (Keeps.nothing limit).run calls
  refine ⟨_, _, _, rfl, Prod.ext answers.symm rfl, keeps.size_eq, keeps.isEmpty_iff, keeps.compiles, keeps.get?_iff,
    fun source => ?_, fun source error rejected => ?_⟩
  · cases compiled : Filter.compile limit source with
    | error error => rw [keeps.getOrCompile_of_error compiled]
    | ok filter => exact (keeps.getOrCompile_of_ok compiled).1
  · rw [keeps.getOrCompile_of_error rejected]

end FilterCache

end TagQuery
