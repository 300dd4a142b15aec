import Mathlib.Data.List.Basic
import TagQuery.Proofs.BatchDecisions

namespace TagQuery.Batch

theorem chunkSize_pos (entities workers : Nat) : 0 < chunkSize entities workers :=
  Nat.lt_of_lt_of_le Nat.one_pos (Nat.le_max_right _ 1)

theorem le_mul_chunkSize (entities : Nat) {workers : Nat} (some : 0 < workers) :
    entities ≤ workers * chunkSize entities workers := by
  have atLeast : (entities + workers - 1) / workers ≤ chunkSize entities workers := by
    rw [chunkSize, Nat.max_eq_left some]
    exact Nat.le_max_left _ 1
  have room : entities ≤ workers * ((entities + workers - 1) / workers) := by
    have split := Nat.div_add_mod (entities + workers - 1) workers
    have rest := Nat.mod_lt (entities + workers - 1) some
    omega
  exact Nat.le_trans room (Nat.mul_le_mul_left workers atLeast)

section Pieces

variable {α : Type} {size : Nat}

theorem chunks_of_ne_nil (positive : 0 < size) {list : List α} (some : list ≠ []) :
    chunks size list = list.take size :: chunks size (list.drop size) := by
  obtain ⟨first, rest, rfl⟩ := List.exists_cons_of_ne_nil some
  obtain ⟨more, rfl⟩ := Nat.exists_eq_add_of_le' positive
  rw [chunks, Nat.add_sub_cancel, List.take_succ_cons, List.drop_succ_cons]

theorem chunks_eq_nil_iff (size : Nat) (list : List α) : chunks size list = [] ↔ list = [] := by
  cases list with
  | nil => simp [chunks]
  | cons first rest => simp [chunks]

theorem length_chunks_le (positive : 0 < size) {list : List α} {count : Nat} (room : list.length ≤ count * size) :
    (chunks size list).length ≤ count := by
  induction count generalizing list with
  | zero =>
    obtain rfl := List.eq_nil_of_length_eq_zero (by omega : list.length = 0)
    rw [chunks]
    exact Nat.le_refl 0
  | succ count ih =>
    by_cases some : list = []
    · rw [some, chunks]
      exact Nat.zero_le _
    · have rest : (list.drop size).length ≤ count * size := by
        rw [List.length_drop]
        rw [Nat.succ_mul] at room
        omega
      rw [chunks_of_ne_nil positive some, List.length_cons]
      exact Nat.succ_le_succ (ih rest)

theorem getElem?_chunks (positive : 0 < size) (list : List α) (place : Nat) :
    (chunks size list)[place]? =
      if place * size < list.length then some ((list.drop (place * size)).take size) else none := by
  induction place generalizing list with
  | zero =>
    by_cases some : list = []
    · simp [some, chunks]
    · rw [chunks_of_ne_nil positive some, Nat.zero_mul, if_pos (List.length_pos_iff.mpr some)]
      rfl
  | succ place ih =>
    by_cases some : list = []
    · simp [some, chunks]
    · have further : place * size < (list.drop size).length ↔ (place + 1) * size < list.length := by
        rw [List.length_drop, Nat.succ_mul]
        omega
      have start : size + place * size = (place + 1) * size := by rw [Nat.succ_mul, Nat.add_comm]
      rw [chunks_of_ne_nil positive some, List.getElem?_cons_succ, ih, List.drop_drop, start]
      simp only [further]

theorem ne_nil_of_mem_chunks {list piece : List α} (member : piece ∈ chunks size list) : piece ≠ [] := by
  fun_induction chunks size list with
  | case1 => cases member
  | case2 first rest ih =>
    rcases List.mem_cons.mp member with rfl | inside
    · exact List.cons_ne_nil _ _
    · exact ih inside

theorem length_of_mem_dropLast_chunks (positive : 0 < size) {list piece : List α}
    (member : piece ∈ (chunks size list).dropLast) : piece.length = size := by
  obtain ⟨place, found⟩ := List.mem_iff_getElem?.mp member
  have earlier : place < (chunks size list).length - 1 := by
    have within := (List.getElem?_eq_some_iff.mp found).1
    rwa [List.length_dropLast] at within
  rw [List.getElem?_dropLast, if_pos earlier, getElem?_chunks positive] at found
  -- the piece after it begins inside the list
  have next := List.getElem?_eq_getElem (show place + 1 < (chunks size list).length by omega)
  rw [getElem?_chunks positive] at next
  split at next
  · rename_i inside
    split at found
    · cases found
      rw [Nat.succ_mul] at inside
      rw [List.length_take, List.length_drop]
      omega
    · cases found
  · cases next

end Pieces

/-- A batch is cut into consecutive pieces that lose nothing, one for each worker that is begun. No piece is empty, all but
    the last have the same size, and there are no more of them than workers, however many entities there are and however many
    workers are asked for. -/
theorem work_split_among_workers {α : Type} (entities : List α) (requested : Nat) :
    let workers := Limits.clampWorkers requested
    let size := chunkSize entities.length workers
    let pieces := chunks size entities
    workers = max 1 (min requested 8) ∧ 1 ≤ size ∧
      (entities ≠ [] → 1 ≤ pieces.length) ∧ pieces.length ≤ workers ∧
      (∀ piece ∈ pieces, piece ≠ []) ∧ (∀ piece ∈ pieces.dropLast, piece.length = size) ∧
      (∀ place, pieces[place]? =
        if place * size < entities.length then some ((entities.drop (place * size)).take size) else none) ∧
      pieces.flatten = entities := by
  intro workers size pieces
  have positive : 0 < size := chunkSize_pos _ _
  have room : entities.length ≤ workers * size := le_mul_chunkSize _ (Nat.le_max_left 1 _)
  refine ⟨rfl, positive, fun some => ?_, length_chunks_le positive room, fun _ => ne_nil_of_mem_chunks,
    fun _ => length_of_mem_dropLast_chunks positive, getElem?_chunks positive entities, chunks_flatten size entities⟩
  exact List.length_pos_iff.mpr (mt (chunks_eq_nil_iff size entities).mp some)

/-- Nine entities for eight workers come in five pieces, since pieces of one entity would be nine. -/
theorem work_split_among_workers_nine :
    Limits.clampWorkers 100 = 8 ∧ chunkSize 9 8 = 2 ∧
      chunks 2 (List.range 9) = [[0, 1], [2, 3], [4, 5], [6, 7], [8]] ∧
      List.range 9 ≠ [] ∧ 1 ≤ (chunks 2 (List.range 9)).length ∧ (chunks 2 (List.range 9)).length ≤ 8 ∧
      [8] ∈ chunks 2 (List.range 9) ∧ [8] ≠ ([] : List Nat) ∧
      [0, 1] ∈ (chunks 2 (List.range 9)).dropLast ∧ [0, 1].length = 2 := by
  have workers : Limits.clampWorkers 100 = 8 := by decide
  have size : chunkSize 9 8 = 2 := by decide
  have pieces : chunks 2 (List.range 9) = [[0, 1], [2, 3], [4, 5], [6, 7], [8]] := by simp [chunks, List.range_succ]
  have last : [8] ∈ chunks 2 (List.range 9) := by simp [pieces]
  have first : [0, 1] ∈ (chunks 2 (List.range 9)).dropLast := by simp [pieces]
  have split := work_split_among_workers (List.range 9) 100
  simp only [workers, List.length_range, size] at split
  obtain ⟨-, -, begun, few, filled, even, -, -⟩ := split
  exact ⟨workers, size, pieces, by decide, begun (by decide), few, last, filled [8] last, first, even [0, 1] first⟩

end TagQuery.Batch
