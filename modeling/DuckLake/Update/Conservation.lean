import DuckLake.Update.Sink
import Mathlib.Data.Nat.ModEq

/-! What a run of the update operator's sink keeps. Each call is described once
(`step_sink`, `step_combine`); from that, the invariant `CountInv` holds after
every call, and a run that follows the engine's schedule pushes every input row
once into the copy and once into the delete. Once every thread has combined,
`GetData` reports the number of input rows. -/
namespace DuckLake

open UpdateState

variable {α : Type} {n k : Nat}

/-! ### One call -/

theorem idxSub_three (hk : 3 ≤ k) (hlt : k < UInt64.size) : idxSub k 3 = k - 3 := by
  rw [idxSub, show k + UInt64.size - 3 = k - 3 + UInt64.size by omega, Nat.add_mod_right,
    Nat.mod_eq_of_lt (by omega)]

/-- The last three elements of a list, from the elements at their indexes. -/
theorem drop_eq_of_elements {l : List α} {m : Nat} {x y z : α} (hlen : l.length = m + 3)
    (hx : l[m]? = some x) (hy : l[m + 1]? = some y) (hz : l[m + 2]? = some z) :
    l.drop m = [x, y, z] := by
  apply List.ext_getElem?
  intro i
  rw [List.getElem?_drop]
  match i with
  | 0 => exact hx
  | 1 => exact hy
  | 2 => exact hz
  | i + 3 =>
    rw [List.getElem?_eq_none_iff.mpr (show l.length ≤ m + (i + 3) by omega)]
    rfl

/-! ### Columns -/

theorem zipWith_append_column {rows : List (List α)} {j : Nat}
    (hj : ∀ row ∈ rows, j < row.length) (f : List α → List α) :
    List.zipWith (fun v r => v ++ [r]) (rows.map f) (rows.filterMap (·[j]?)) =
      rows.map fun row => f row ++ row[j]?.toList := by
  induction rows with
  | nil => rfl
  | cons row rows ih =>
    have hjr : j < row.length := hj row (List.mem_cons_self _ _)
    simp only [List.map_cons, List.filterMap_cons, List.getElem?_eq_getElem hjr,
      List.zipWith_cons_cons, Option.toList_some, ih fun r hr => hj r (List.mem_cons_of_mem _ hr)]

theorem zipWith_cons_column {rows : List (List α)} {j : Nat}
    (hj : ∀ row ∈ rows, j < row.length) (g : List α → List α) :
    List.zipWith List.cons (rows.filterMap (·[j]?)) (rows.map g) =
      rows.map fun row => row[j]?.toList ++ g row := by
  induction rows with
  | nil => rfl
  | cons row rows ih =>
    have hjr : j < row.length := hj row (List.mem_cons_self _ _)
    simp only [List.map_cons, List.filterMap_cons, List.getElem?_eq_getElem hjr,
      List.zipWith_cons_cons, Option.toList_some, List.singleton_append,
      ih fun r hr => hj r (List.mem_cons_of_mem _ hr)]

/-- Columns read from a chunk's rows, put back together, give each row's
entries at those columns. -/
theorem columnsToRows_columns {rows : List (List α)} {js : List Nat}
    (hjs : ∀ row ∈ rows, ∀ j ∈ js, j < row.length) :
    columnsToRows rows.length (js.map fun j => rows.filterMap (·[j]?)) =
      rows.map fun row => js.filterMap (row[·]?) := by
  induction js with
  | nil => simp [columnsToRows, List.map_const']
  | cons j js ih =>
    rw [List.map_cons, columnsToRows, ih fun row hr j' hj' => hjs row hr j' (List.mem_cons_of_mem _ hj'),
      zipWith_cons_column fun row hr => hjs row hr j (List.mem_cons_self _ _)]
    refine List.map_congr_left fun row _ => ?_
    rw [List.filterMap_cons]
    cases row[j]? <;> rfl

/-- The last three entries of a row of `k` columns are its delete row. -/
theorem filterMap_last_three {row : List α} (hlen : row.length = k) (hk : 3 ≤ k) :
    [k - 3, k - 3 + 1, k - 3 + 2].filterMap (row[·]?) = deleteRow row := by
  have hget : ∀ j (hj : j < row.length), row[j]? = some row[j] := fun _ hj =>
    List.getElem?_eq_getElem hj
  have hlen' : row.length = k - 3 + 3 := by omega
  rw [deleteRow, hlen, drop_eq_of_elements hlen' (hget _ (by omega)) (hget _ (by omega))
    (hget _ (by omega))]
  simp only [List.filterMap_cons, hget (k - 3) (by omega), hget (k - 3 + 1) (by omega),
    hget (k - 3 + 2) (by omega), List.filterMap_nil]

theorem column_of_lt (chunk : DataChunk α k) {j : Nat} (hj : j < k) :
    chunk.column j = .ok (chunk.rows.filterMap (·[j]?)) := if_pos hj

/-- `Sink` with children that return, from what its column reads return. -/
theorem sink_eq_ok (op : DuckLakeUpdate α) {chunk : DataChunk α k}
    {lstate : DuckLakeUpdateLocalState} {vs : List (List α)} {ids : List α} {cols : List (List α)}
    (hv : chunk.rows.mapM op.executeExpressions = .ok vs)
    (hr : chunk.column op.rowIdIndex = .ok ids)
    (hd : [0, 1, 2].mapM (fun i => chunk.column (idxAdd (idxSub k 3) i)) = .ok cols) :
    op.sink chunk lstate (.ok ()) (.ok ()) =
      .ok (List.zipWith (fun v r => v ++ [r]) vs ids, columnsToRows chunk.size cols,
        { updatedCount := idxAdd lstate.updatedCount chunk.size }) := by
  simp only [DuckLakeUpdate.sink, hv, hr, hd]
  rfl

/-- With three columns or more, the three row-identifier columns are the last three. -/
theorem deleteColumns_eq (chunk : DataChunk α k) (hk : 3 ≤ k) :
    [0, 1, 2].mapM (fun i => chunk.column (idxAdd (idxSub k 3) i)) =
      .ok ([k - 3, k - 3 + 1, k - 3 + 2].map fun j => chunk.rows.filterMap (·[j]?)) :=
  @mapM_except_ok _ _ (fun i => chunk.column (idxAdd (idxSub k 3) i))
    (fun i => chunk.rows.filterMap (·[k - 3 + i]?)) [0, 1, 2] fun i hi => by
      have hi3 : i < 3 := by simp at hi; omega
      have hbound := chunk.columnCount_lt
      show chunk.column (idxAdd (idxSub k 3) i) = _
      rw [idxSub_three hk hbound, idxAdd, Nat.mod_eq_of_lt (by omega)]
      exact column_of_lt chunk (by omega)

section Layout

-- The planned layout of the input chunks: the row id column and the three
-- row-identifier columns are there.
variable (op : DuckLakeUpdate α) (hrow : op.rowIdIndex < k) (hk : 3 ≤ k)
include hrow hk

/-- On a chunk of the planned layout whose rows the executor evaluates, and
with children that return, `Sink` pushes the copy row and the delete row of
every row of the chunk. -/
theorem sink_eq (chunk : DataChunk α k) (lstate : DuckLakeUpdateLocalState)
    (values : List α → List α) (hexec : ∀ row ∈ chunk.rows, op.executeExpressions row = .ok (values row)) :
    op.sink chunk lstate (.ok ()) (.ok ()) =
      .ok (chunk.rows.map fun row => op.copyRow (values row) row, chunk.rows.map deleteRow,
        { updatedCount := idxAdd lstate.updatedCount chunk.size }) := by
  have hlt : ∀ row ∈ chunk.rows, ∀ j < k, j < row.length := fun row hr j hj => by
    rw [chunk.rows_length row hr]; exact hj
  rw [sink_eq_ok op (mapM_except_ok hexec) (column_of_lt chunk hrow) (deleteColumns_eq chunk hk),
    zipWith_append_column fun row hr => hlt row hr _ hrow, DataChunk.size,
    columnsToRows_columns fun row hr j hj => hlt row hr j (by simp at hj; omega),
    List.map_congr_left fun row hr => filterMap_last_three (chunk.rows_length row hr) hk]
  rfl

theorem step_sink (s : UpdateState α n) (t : Fin n) (chunk : DataChunk α k)
    (values : List α → List α) (hexec : ∀ row ∈ chunk.rows, op.executeExpressions row = .ok (values row)) :
    step op s (.sink t chunk (.ok ()) (.ok ())) =
      .ok { s with
        locals := Function.update s.locals t
          { updatedCount := idxAdd (s.locals t).updatedCount chunk.size },
        copySunk := s.copySunk ++ chunk.rows.map fun row => op.copyRow (values row) row,
        deleteSunk := s.deleteSunk ++ chunk.rows.map deleteRow } := by
  rw [step, sink_eq op hrow hk chunk _ values hexec]
  rfl

end Layout

theorem step_combine (op : DuckLakeUpdate α) (s : UpdateState α n) (t : Fin n) :
    step (k := k) op s (.combine t (.ok .finished) (.ok .finished)) =
      .ok { s with
        totalUpdatedCount := idxAdd s.totalUpdatedCount (s.locals t).updatedCount,
        combined := Function.update s.combined t true } :=
  rfl

/-! ### The count invariant -/

/-- Two sums over the threads, of functions that differ at one thread only. -/
theorem sum_add_eq_of_eq_off {f g : Fin n → Nat} (t : Fin n) (h : ∀ x, x ≠ t → f x = g x) :
    ∑ x, f x + g t = ∑ x, g x + f t := by
  have hrest : ∑ x ∈ Finset.univ \ {t}, f x = ∑ x ∈ Finset.univ \ {t}, g x :=
    Finset.sum_congr rfl fun x hx => h x (Finset.not_mem_singleton.mp (Finset.mem_sdiff.mp hx).2)
  rw [Finset.sum_eq_add_sum_diff_singleton (Finset.mem_univ t) f,
    Finset.sum_eq_add_sum_diff_singleton (Finset.mem_univ t) g, hrest]
  omega

theorem pendingCount_sink (s : UpdateState α n) {t : Fin n} (ht : s.combined t = false)
    (l : DuckLakeUpdateLocalState) :
    pendingCount { s with locals := Function.update s.locals t l } + (s.locals t).updatedCount =
      pendingCount s + l.updatedCount := by
  have := sum_add_eq_of_eq_off (f := fun x => if s.combined x then 0 else
    (Function.update s.locals t l x).updatedCount)
    (g := fun x => if s.combined x then 0 else (s.locals x).updatedCount) t
    fun x hx => by simp only [Function.update_noteq hx]
  simpa [ht] using this

theorem pendingCount_combine (s : UpdateState α n) {t : Fin n} (ht : s.combined t = false) :
    pendingCount { s with combined := Function.update s.combined t true } +
        (s.locals t).updatedCount = pendingCount s := by
  have := sum_add_eq_of_eq_off
    (f := fun x => if Function.update s.combined t true x then 0 else (s.locals x).updatedCount)
    (g := fun x => if s.combined x then 0 else (s.locals x).updatedCount) t
    fun x hx => by simp only [Function.update_noteq hx]
  simpa [ht] using this

/-- The invariant of a run: the global count is an `idx_t`, and together with
the counts threads still hold it is the number of rows the copy received. -/
structure CountInv (s : UpdateState α n) : Prop where
  total_lt : s.totalUpdatedCount < UInt64.size
  count : (s.totalUpdatedCount + pendingCount s) % UInt64.size = s.copySunk.length % UInt64.size

theorem countInv_init : CountInv (init : UpdateState α n) :=
  ⟨show 0 < UInt64.size by decide, by simp [init, pendingCount]⟩

open Nat in
theorem countInv_sink {s : UpdateState α n} (hs : CountInv s) {t : Fin n} (ht : s.combined t = false)
    (chunk : DataChunk α k) (copyRows : List (List α)) (hcopy : copyRows.length = chunk.size)
    (deleteRows : List (List α)) :
    CountInv { s with
      locals := Function.update s.locals t
        { updatedCount := idxAdd (s.locals t).updatedCount chunk.size },
      copySunk := s.copySunk ++ copyRows, deleteSunk := deleteRows } := by
  set c := (s.locals t).updatedCount
  refine ⟨hs.total_lt, Nat.ModEq.add_right_cancel' c ?_⟩
  rw [List.length_append, hcopy]
  calc s.totalUpdatedCount + pendingCount
          { s with locals := Function.update s.locals t { updatedCount := idxAdd c chunk.size } } + c
        = s.totalUpdatedCount + (pendingCount s + idxAdd c chunk.size) := by
          rw [Nat.add_assoc, pendingCount_sink s ht]
    _ ≡ s.totalUpdatedCount + (pendingCount s + (c + chunk.size)) [MOD UInt64.size] :=
        Nat.ModEq.add_left _ (Nat.ModEq.add_left _ (Nat.mod_modEq _ _))
    _ = s.totalUpdatedCount + pendingCount s + chunk.size + c := by omega
    _ ≡ s.copySunk.length + chunk.size + c [MOD UInt64.size] :=
        Nat.ModEq.add_right _ (Nat.ModEq.add_right _ hs.count)

theorem countInv_combine {s : UpdateState α n} (hs : CountInv s) {t : Fin n}
    (ht : s.combined t = false) :
    CountInv { s with
      totalUpdatedCount := idxAdd s.totalUpdatedCount (s.locals t).updatedCount,
      combined := Function.update s.combined t true } := by
  refine ⟨Nat.mod_lt _ (by decide), ?_⟩
  show (idxAdd s.totalUpdatedCount (s.locals t).updatedCount +
    pendingCount { s with combined := Function.update s.combined t true }) % UInt64.size = _
  rw [idxAdd, Nat.mod_add_mod, Nat.add_right_comm, Nat.add_assoc, pendingCount_combine s ht]
  exact hs.count

/-! ### A run -/

theorem inputRows_cons (c : UpdateCall α n k) (calls : List (UpdateCall α n k)) :
    inputRows (c :: calls) = c.rows ++ inputRows calls := rfl

theorem combinedThreads_cons (c : UpdateCall α n k) (calls : List (UpdateCall α n k)) :
    combinedThreads (c :: calls) =
      (if c.isCombine then [c.thread] else []) ++ combinedThreads calls := by
  cases h : c.isCombine <;> simp [combinedThreads, List.filter_cons, h]

/-- What a run of calls does to the state, field by field. -/
structure RunSpec (op : DuckLakeUpdate α) (values : List α → List α) (s : UpdateState α n)
    (calls : List (UpdateCall α n k)) (s' : UpdateState α n) : Prop where
  copySunk : s'.copySunk = s.copySunk ++ (inputRows calls).map fun row => op.copyRow (values row) row
  deleteSunk : s'.deleteSunk = s.deleteSunk ++ (inputRows calls).map deleteRow
  combined : ∀ t, s'.combined t = (s.combined t || decide (t ∈ combinedThreads calls))

theorem childrenReturn_sink {t : Fin n} {chunk : DataChunk α k} {copySink deleteSink : Except Exception Unit}
    (h : (UpdateCall.sink t chunk copySink deleteSink).childrenReturn = true) :
    copySink = .ok () ∧ deleteSink = .ok () := by
  simpa [UpdateCall.childrenReturn] using h

theorem childrenReturn_combine {t : Fin n} {copyCombine deleteCombine : Except Exception SinkCombineResultType}
    (h : (UpdateCall.combine (α := α) (k := k) t copyCombine deleteCombine).childrenReturn = true) :
    copyCombine = .ok .finished ∧ deleteCombine = .ok .finished := by
  simpa [UpdateCall.childrenReturn] using h

/-- A run that follows the schedule, in which no calling thread has combined
yet, the executor evaluates every input row and every child returns and
finishes: it raises nothing, keeps `CountInv`, and does what `RunSpec` says. -/
theorem run_spec (op : DuckLakeUpdate α) (hrow : op.rowIdIndex < k) (hk : 3 ≤ k)
    (values : List α → List α) (calls : List (UpdateCall α n k))
    (hexec : ∀ row ∈ inputRows calls, op.executeExpressions row = .ok (values row))
    (s : UpdateState α n) (hs : CountInv s)
    (hsched : ScheduleOk calls) (hfresh : ∀ c ∈ calls, s.combined c.thread = false)
    (hchildren : ∀ c ∈ calls, c.childrenReturn = true) :
    ∃ s', run op s calls = .ok s' ∧ CountInv s' ∧ RunSpec op values s calls s' := by
  induction calls generalizing s with
  | nil => exact ⟨s, rfl, hs, ⟨by simp [inputRows], by simp [inputRows], by simp [combinedThreads]⟩⟩
  | cons c calls ih =>
    obtain ⟨hhead, htail⟩ := List.pairwise_cons.mp hsched
    have ht : s.combined c.thread = false := hfresh c (List.mem_cons_self c calls)
    have hchildren' := fun c' hc => hchildren c' (List.mem_cons_of_mem c hc)
    have hexec' := fun row hr => hexec row (List.mem_append_right c.rows hr)
    cases c with
    | sink t chunk copySink deleteSink =>
      obtain ⟨rfl, rfl⟩ := childrenReturn_sink (hchildren _ (List.mem_cons_self _ calls))
      have hchunk := fun row hr => hexec row (List.mem_append_left (inputRows calls) hr)
      obtain ⟨s', hrun, hs', hspec⟩ := ih hexec' _ (countInv_sink hs ht chunk _ (List.length_map _ _) _)
        htail (fun c' hc => hfresh c' (List.mem_cons_of_mem _ hc)) hchildren'
      refine ⟨s', by rw [run, step_sink op hrow hk s t chunk values hchunk]; exact hrun, hs',
        ⟨?_, ?_, ?_⟩⟩
      · rw [hspec.copySunk, inputRows_cons, List.map_append, List.append_assoc]; rfl
      · rw [hspec.deleteSunk, inputRows_cons, List.map_append, List.append_assoc]; rfl
      · intro t'
        rw [hspec.combined, combinedThreads_cons]
        rfl
    | combine t copyCombine deleteCombine =>
      obtain ⟨rfl, rfl⟩ := childrenReturn_combine (hchildren _ (List.mem_cons_self _ calls))
      have hfresh' : ∀ c ∈ calls, Function.update s.combined t true c.thread = false :=
        fun c' hc => by
          rw [Function.update_noteq (show c'.thread ≠ t from hhead c' hc rfl)]
          exact hfresh c' (List.mem_cons_of_mem _ hc)
      obtain ⟨s', hrun, hs', hspec⟩ := ih hexec' _ (countInv_combine hs ht) htail hfresh' hchildren'
      refine ⟨s', by rw [run, step_combine]; exact hrun, hs', ⟨?_, ?_, ?_⟩⟩
      · rw [hspec.copySunk]; rfl
      · rw [hspec.deleteSunk]; rfl
      · intro t'
        rw [hspec.combined, combinedThreads_cons]
        by_cases h : t' = t
        · subst h; simp [UpdateCall.isCombine, UpdateCall.thread]
        · simp [Function.update_noteq h, UpdateCall.isCombine, UpdateCall.thread, h]

/-- Once every thread has combined, the global count is the number of rows the
copy received, in `idx_t`. -/
theorem totalUpdatedCount_of_combined {s : UpdateState α n} (hs : CountInv s)
    (hall : ∀ t, s.combined t = true) :
    s.totalUpdatedCount = s.copySunk.length % UInt64.size := by
  have hp : pendingCount s = 0 := Finset.sum_eq_zero fun t _ => by simp [hall t]
  have hc := hs.count
  rw [hp, Nat.add_zero, Nat.mod_eq_of_lt hs.total_lt] at hc
  exact hc

/-- Rows are conserved over any interleaving. Take a run from the initial
state that follows the engine's schedule, on chunks of the planned layout, in
which the executor evaluates every input row, every child returns and finishes,
and every thread combines. The copy has received the copy row of every input row
and the delete its delete row, each once and in the order the rows were sunk,
and `GetData` reports the number of input rows when that fits a `BIGINT`. -/
theorem run_conserves_rows (op : DuckLakeUpdate α) (hrow : op.rowIdIndex < k) (hk : 3 ≤ k)
    (values : List α → List α) (calls : List (UpdateCall α n k))
    (hexec : ∀ row ∈ inputRows calls, op.executeExpressions row = .ok (values row))
    (hchildren : ∀ c ∈ calls, c.childrenReturn = true) (hsched : ScheduleOk calls)
    (hall : ∀ t, t ∈ combinedThreads calls) :
    ∃ s, run op init calls = .ok s ∧
      s.copySunk = (inputRows calls).map (fun row => op.copyRow (values row) row) ∧
      s.deleteSunk = (inputRows calls).map deleteRow ∧
      ((inputRows calls).length ≤ int64Max →
        DuckLakeUpdate.getData s.totalUpdatedCount = .ok (inputRows calls).length) := by
  obtain ⟨s, hrun, hs, hspec⟩ :=
    run_spec op hrow hk values calls hexec init countInv_init hsched (fun _ _ => rfl) hchildren
  have htotal := totalUpdatedCount_of_combined hs fun t => by simp [hspec.combined, hall t]
  refine ⟨s, hrun, hspec.copySunk, hspec.deleteSunk, fun hle => ?_⟩
  rw [htotal, hspec.copySunk, List.length_append, List.length_map]
  simp only [init, List.length_nil, Nat.zero_add, DuckLakeUpdate.getData, numericCastInt64]
  rw [Nat.mod_eq_of_lt (lt_of_le_of_lt hle (by decide)), if_pos hle]

theorem run_conserves_rows_two_threads :
    let calls : List (UpdateCall Nat 2 4) :=
      [.sink 0 ⟨[[5, 1, 10, 20], [6, 2, 11, 21]], by decide, by decide, by decide⟩ (.ok ()) (.ok ()),
        .sink 1 ⟨[[7, 3, 12, 22]], by decide, by decide, by decide⟩ (.ok ()) (.ok ()),
        .combine 1 (.ok .finished) (.ok .finished), .combine 0 (.ok .finished) (.ok .finished)]
    ∃ s, run ⟨[0], fun row => .ok (row.take 1)⟩ init calls = .ok s ∧
      s.copySunk = [[5, 1], [6, 2], [7, 3]] ∧
      s.deleteSunk = [[1, 10, 20], [2, 11, 21], [3, 12, 22]] ∧
      DuckLakeUpdate.getData s.totalUpdatedCount = .ok 3 := by
  intro calls
  obtain ⟨s, hrun, hcopy, hdelete, hcount⟩ := run_conserves_rows ⟨[0], fun row => .ok (row.take 1)⟩
    (by decide) (by decide) (fun row => row.take 1) calls (fun _ _ => rfl) (by decide) (by decide)
    (by decide)
  exact ⟨s, hrun, hcopy.trans (by decide), hdelete.trans (by decide), hcount (by decide)⟩

end DuckLake
