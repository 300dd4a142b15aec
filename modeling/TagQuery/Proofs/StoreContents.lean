import Mathlib.Data.List.Sort
import TagQuery.Proofs.BatchDecisions
import TagQuery.Proofs.ByteOrder

namespace TagQuery

inductive StoreCall
  | insert (entity : String) (context : TagContext)
  | erase (entity : String)

namespace StoreCall

def entity : StoreCall → String
  | .insert entity _ | .erase entity => entity

def tags? : StoreCall → Option TagContext
  | .insert _ context => some context
  | .erase _ => none

/-- The last of some calls that is about an entity. -/
def last? (entity : String) (calls : List StoreCall) : Option StoreCall :=
  (calls.filter fun call => call.entity = entity).getLast?

def lastTags? (entity : String) (calls : List StoreCall) : Option TagContext := (last? entity calls).bind (·.tags?)

theorem lastTags?_eq_some_iff (entity : String) (calls : List StoreCall) (context : TagContext) :
    lastTags? entity calls = some context ↔ last? entity calls = some (.insert entity context) := by
  unfold lastTags?
  cases last : last? entity calls with
  | none => simp
  | some call =>
    have about : call.entity = entity := by
      have member := List.mem_of_getLast? last
      simpa using (List.mem_filter.mp member).2
    subst about
    cases call <;> simp [StoreCall.tags?, StoreCall.entity]

end StoreCall

namespace EntityStore

def perform (store : EntityStore) : StoreCall → EntityStore
  | .insert entity context => store.insert entity context
  | .erase entity => store.erase entity

def ofCalls (calls : List StoreCall) : EntityStore := calls.foldl perform {}

theorem get?_perform (store : EntityStore) (call : StoreCall) (entity : String) :
    (store.perform call).get? entity = if call.entity = entity then call.tags? else store.get? entity := by
  cases call with
  | insert inserted context =>
    refine Std.TreeMap.getElem?_insert.trans ?_
    simp only [Std.LawfulEqCmp.compare_eq_iff_eq]
    rfl
  | erase erased =>
    refine Std.TreeMap.getElem?_erase.trans ?_
    simp only [Std.LawfulEqCmp.compare_eq_iff_eq]
    rfl

theorem get?_foldl (calls : List StoreCall) (store : EntityStore) (entity : String) :
    (calls.foldl perform store).get? entity =
      match StoreCall.last? entity calls with
      | some call => call.tags?
      | none => store.get? entity := by
  induction calls generalizing store with
  | nil => rfl
  | cons call calls ih =>
    rw [List.foldl_cons, ih, get?_perform]
    by_cases about : call.entity = entity
    · rw [if_pos about, StoreCall.last?, StoreCall.last?, List.filter_cons_of_pos (by simpa using about),
        List.getLast?_cons]
      cases (calls.filter fun call => call.entity = entity).getLast? <;> rfl
    · rw [if_neg about, StoreCall.last?, StoreCall.last?, List.filter_cons_of_neg (by simpa using about)]

theorem get?_ofCalls (calls : List StoreCall) (entity : String) :
    (ofCalls calls).get? entity = StoreCall.lastTags? entity calls := by
  rw [ofCalls, get?_foldl, StoreCall.lastTags?]
  cases StoreCall.last? entity calls with
  | none => exact Std.TreeMap.getElem?_emptyc
  | some call => rfl

theorem mem_entities_iff (store : EntityStore) (entity : String) :
    entity ∈ store.entities ↔ (store.get? entity).isSome = true := by
  rw [entities, Std.TreeMap.mem_keys, get?, Std.TreeMap.isSome_getElem?_iff_mem]

theorem entities_increasing (store : EntityStore) : store.entities.Pairwise (· < ·) := by
  have ordered : store.entities.Pairwise fun first second => compare first second = .lt := Std.TreeMap.ordered_keys
  exact ordered.imp Text.compare_lt_iff.mp

theorem entities_nodup (store : EntityStore) : store.entities.Nodup := store.entities_increasing.imp ne_of_lt

theorem mergeSort_names (store : EntityStore) {names : List String} (once : names.Nodup)
    (all : ∀ name, name ∈ names ↔ name ∈ store.entities) :
    names.mergeSort (fun first second => decide (Text.bytes first ≤ Text.bytes second)) = store.entities := by
  have sorted : (names.mergeSort fun first second => decide (Text.bytes first ≤ Text.bytes second)).Pairwise
      fun first second => Text.bytes first ≤ Text.bytes second := by
    refine (List.pairwise_mergeSort (fun a b c one two => ?_) (fun a b => ?_) names).imp of_decide_eq_true
    · exact decide_eq_true (List.le_trans (of_decide_eq_true one) (of_decide_eq_true two))
    · simpa using List.le_total (Text.bytes a) (Text.bytes b)
  have increasing : store.entities.Pairwise fun first second => Text.bytes first ≤ Text.bytes second :=
    store.entities_increasing.imp fun less => List.le_of_lt (Text.bytes_lt_iff.mpr less)
  have same : names.Perm store.entities :=
    (List.perm_ext_iff_of_nodup once store.entities_nodup).mpr all
  refine ((List.mergeSort_perm names _).trans same).eq_of_pairwise (fun first second _ _ one two => ?_) sorted increasing
  rcases lt_trichotomy first second with less | rfl | less
  · exact absurd (Text.bytes_lt_iff.mpr less) two
  · rfl
  · exact absurd (Text.bytes_lt_iff.mpr less) one

theorem source_of_contents {first second : EntityStore} (same : ∀ entity, first.get? entity = second.get? entity) :
    first.source = second.source := by
  have members (entity : String) : entity ∈ first.entities ↔ entity ∈ second.entities := by
    rw [mem_entities_iff, mem_entities_iff, same]
  have perm : first.entities.Perm second.entities :=
    (List.perm_ext_iff_of_nodup first.entities_nodup second.entities_nodup).mpr members
  have names : first.entities = second.entities :=
    perm.eq_of_pairwise (fun _ _ _ _ less more => absurd more (lt_asymm less)) first.entities_increasing
      second.entities_increasing
  simp only [source, names, same]

theorem lookup_known_iff (store : EntityStore) (entity : String) (context : TagContext) :
    store.source.lookup entity = .known context ↔ store.get? entity = some context := by
  simp only [source]
  split <;> simp [*]

theorem lookup_ne_crash (store : EntityStore) (entity : String) : store.source.lookup entity ≠ .crash := by
  cases found : store.get? entity <;> simp [source, found]

end EntityStore

theorem BatchReport.errors_names (group : String) (submitted : Nat) (verdicts : List Verdict) :
    (ofVerdicts group submitted verdicts).errors.map (·.1) =
      (verdicts.filter fun verdict => verdict.decision.isError).map (·.entity) := by
  simp only [ofVerdicts]
  induction verdicts with
  | nil => rfl
  | cons verdict verdicts ih =>
    obtain ⟨entity, known, decision⟩ := verdict
    cases decision <;> simp [Decision.isError, ih]

namespace Batch

open EntityStore

/-- The entities that a report names, with each list in the order of the store. -/
structure Sorts (store : EntityStore) (decision : String → Decision) (report : BatchReport) : Prop where
  members : report.members = store.entities.filter fun entity => (decision entity).isMember
  nonMembers : report.nonMembers = store.entities.filter fun entity => decision entity = .notMember
  errors : report.errors.map (·.1) = store.entities.filter fun entity => (decision entity).isError
  unknown : report.unknown = []

theorem sorts_of_verdicts (group : DynamicGroup) (store : EntityStore) (policy : NonNumericPolicy) :
    Sorts store (fun entity => (verdict group store.source policy entity).decision)
      (.ofVerdicts group.name store.entities.length (store.entities.map (verdict group store.source policy))) where
  members := filter_verdicts group policy _ _
  nonMembers := filter_verdicts group policy _ _
  errors := (BatchReport.errors_names _ _ _).trans (filter_verdicts group policy _ _)
  unknown := by
    refine (filter_verdicts group policy _ _).trans (List.filter_eq_nil_iff.mpr fun entity member => ?_)
    obtain ⟨context, present⟩ := Option.isSome_iff_exists.mp ((store.mem_entities_iff entity).mp member)
    simp [verdict, EntityStore.source, present]

theorem Sorts.count {store : EntityStore} {decision : String → Decision} {report : BatchReport}
    (sorts : Sorts store decision report) (name : String) :
    report.members.count name + report.nonMembers.count name + (report.errors.map (·.1)).count name =
      if (store.get? name).isSome then 1 else 0 := by
  have once : store.entities.count name = if (store.get? name).isSome then 1 else 0 := by
    simp only [← store.mem_entities_iff]
    exact List.Nodup.count store.entities_nodup
  have part (test : String → Bool) :
      (store.entities.filter test).count name = if test name then store.entities.count name else 0 := by
    split
    · rename_i passes
      exact List.count_filter passes
    · rename_i fails
      exact List.count_eq_zero.mpr fun member => fails (List.mem_filter.mp member).2
  rw [sorts.members, sorts.nonMembers, sorts.errors, part, part, part, once]
  cases decision name <;> simp [Decision.isMember, Decision.isError]

theorem Sorts.increasing {store : EntityStore} {decision : String → Decision} {report : BatchReport}
    (sorts : Sorts store decision report) :
    report.members.Pairwise (· < ·) ∧ report.nonMembers.Pairwise (· < ·) ∧
      (report.errors.map (·.1)).Pairwise (· < ·) := by
  rw [sorts.members, sorts.nonMembers, sorts.errors]
  exact ⟨store.entities_increasing.filter _, store.entities_increasing.filter _, store.entities_increasing.filter _⟩

theorem Sorts.isMember_iff {store : EntityStore} {decision : String → Decision} {report : BatchReport}
    (sorts : Sorts store decision report) (name : String) :
    report.isMember name = true ↔ (store.get? name).isSome = true ∧ decision name = .member := by
  rw [BatchReport.isMember, sorts.members, List.contains_iff_mem, List.mem_filter, store.mem_entities_iff]
  cases decision name <;> simp [Decision.isMember]

end Batch

/-- A store lists the entities that were inserted last, in the order of their bytes and with the tags of that insertion,
    and a batch within its limit depends on nothing else: it reports each of them once, in that order. -/
theorem batch_depends_on_contents (calls : List StoreCall) :
    (EntityStore.ofCalls calls).entities.Pairwise (fun first second => Text.bytes first < Text.bytes second) ∧
    (∀ name, name ∈ (EntityStore.ofCalls calls).entities ↔
      ∃ context, StoreCall.last? name calls = some (.insert name context)) ∧
    (∀ name context, (EntityStore.ofCalls calls).source.lookup name = .known context ↔
      StoreCall.last? name calls = some (.insert name context)) ∧
    (∀ names : List String, names.Nodup → (∀ name, name ∈ names ↔ name ∈ (EntityStore.ofCalls calls).entities) →
      names.mergeSort (fun first second => decide (Text.bytes first ≤ Text.bytes second)) =
        (EntityStore.ofCalls calls).entities) ∧
    (∀ other, (∀ name, StoreCall.lastTags? name other = StoreCall.lastTags? name calls) →
      (EntityStore.ofCalls other).source = (EntityStore.ofCalls calls).source) ∧
    ∀ (group : DynamicGroup) (settings : BatchSettings), settings.failFast = false →
      (EntityStore.ofCalls calls).entities.length ≤ min settings.entities Limits.batchEntities →
      ∃ report,
        (∀ workers, (Batch.runKnown group (EntityStore.ofCalls calls).source { settings with workers }).run.value =
          some (.completed report)) ∧
        report.members.Pairwise (fun first second => Text.bytes first < Text.bytes second) ∧
        report.nonMembers.Pairwise (fun first second => Text.bytes first < Text.bytes second) ∧
        (report.errors.map (·.1)).Pairwise (fun first second => Text.bytes first < Text.bytes second) ∧
        report.unknown = [] ∧
        (∀ name, report.members.count name + report.nonMembers.count name + (report.errors.map (·.1)).count name =
          if name ∈ (EntityStore.ofCalls calls).entities then 1 else 0) ∧
        ∀ name, report.isMember name = true ↔ name ∈ (EntityStore.ofCalls calls).entities ∧
          group.decideFor? (EntityStore.ofCalls calls).source name settings.policy = some .member := by
  have bytewise {names : List String} (increasing : names.Pairwise (· < ·)) :
      names.Pairwise fun first second => Text.bytes first < Text.bytes second :=
    increasing.imp Text.bytes_lt_iff.mpr
  refine ⟨bytewise (EntityStore.entities_increasing _), fun name => ?_, fun name context => ?_,
    fun names once all => EntityStore.mergeSort_names _ once all, fun other same => ?_,
    fun group settings goesOn few => ?_⟩
  · simp only [EntityStore.mem_entities_iff, EntityStore.get?_ofCalls, Option.isSome_iff_exists,
      StoreCall.lastTags?_eq_some_iff]
  · rw [← StoreCall.lastTags?_eq_some_iff, ← EntityStore.get?_ofCalls, EntityStore.lookup_known_iff]
  · refine EntityStore.source_of_contents fun name => ?_
    rw [EntityStore.get?_ofCalls, EntityStore.get?_ofCalls, same]
  · have answers (entity : String) := (EntityStore.ofCalls calls).lookup_ne_crash entity
    have sorts := Batch.sorts_of_verdicts group (EntityStore.ofCalls calls) settings.policy
    obtain ⟨members, others, errors⟩ := sorts.increasing
    refine ⟨_, fun workers => ?_, bytewise members, bytewise others, bytewise errors, sorts.unknown, fun name => ?_,
      fun name => ?_⟩
    · exact @Batch.run_value group _ { settings with workers } _ goesOn (fun entity _ => answers entity) few
    · simp only [sorts.count, EntityStore.mem_entities_iff]
    · rw [sorts.isMember_iff, EntityStore.mem_entities_iff, Batch.decideFor?_eq group settings.policy (answers name),
        Option.some.injEq]

/-- The entity that is inserted again has its later tags, and the one that is erased has no part in the batch. -/
theorem batch_depends_on_contents_erased :
    ∃ (group : DynamicGroup) (calls : List StoreCall) (report : BatchReport),
      calls.map (·.entity) = ["cy", "al", "bo", "al", "bo", "eve"] ∧
      (∀ workers, (Batch.runKnown group (EntityStore.ofCalls calls).source ⟨workers, false, 9, .error⟩).run.value =
        some (.completed report)) ∧
      report.members.count "al" + report.nonMembers.count "al" + (report.errors.map (·.1)).count "al" = 1 ∧
      report.members.count "bo" + report.nonMembers.count "bo" + (report.errors.map (·.1)).count "bo" = 0 ∧
      report.isMember "al" = true ∧ report.isMember "cy" = false ∧ report.unknown = [] := by
  let bound := Number.Decimal.toFloat false ⟨80, 0⟩
  let group : DynamicGroup := ⟨"risky", .ofExpr "tag.score.gt.80" (.comparison ⟨["score"]⟩ .greater bound)⟩
  let calls : List StoreCall :=
    [.insert "cy" (.ofList [("score", "80")]), .insert "al" (.ofList [("score", "low")]), .insert "bo" .empty,
      .insert "al" (.ofList [("score", "90.5")]), .erase "bo", .insert "eve" .empty]
  obtain ⟨report, ran, -, -, -, unknown, count, isMember⟩ :=
    (batch_depends_on_contents calls).2.2.2.2.2 group ⟨1, false, 9, .error⟩ rfl (by decide +kernel)
  refine ⟨group, calls, report, rfl, ran, ?_, ?_, ?_, ?_, unknown⟩
  · rw [count, if_pos (by decide +kernel)]
  · rw [count, if_neg (by decide +kernel)]
  · rw [isMember]
    decide +kernel
  · rw [← Bool.not_eq_true, isMember]
    decide +kernel

end TagQuery
