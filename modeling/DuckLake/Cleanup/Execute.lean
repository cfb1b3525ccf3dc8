import DuckLake.Cleanup.Bind

/-! `DuckLakeCleanupExecute`, the scan of both cleanup functions. The first
call that has files to report removes them all, unless the bind read a
`dry_run`; every call then emits up to `STANDARD_VECTOR_SIZE` paths, and the
scan ends at the first call that emits none. -/
namespace DuckLake

/-- `DuckLakeCleanupData`: what the scan keeps between calls. -/
structure DuckLakeCleanupData where
  offset : Nat := 0
  executed : Bool := false
  deriving DecidableEq, Repr

/-- What a call does besides filling its chunk: a `FileSystem::TryRemoveFile`,
whose failure is ignored, or the metadata manager's
`RemoveFilesScheduledForCleanup`. -/
inductive CleanupEffect where
  | tryRemoveFile (path : String)
  | removeFilesScheduledForCleanup (files : List DuckLakeFileForCleanup)
  deriving DecidableEq, Repr

/-- The `while` loop of `DuckLakeCleanupExecute`, with `budget` the rows the
chunk can still take: it copies paths from `offset` on. -/
def fillChunk (files : List DuckLakeFileForCleanup) :
    (budget offset : Nat) → List String → Nat × List String
  | 0, offset, rows => (offset, rows)
  | budget + 1, offset, rows =>
    match files[offset]? with
    | some file => fillChunk files budget (offset + 1) (rows ++ [file.path])
    | none => (offset, rows)

/-- The removals of the first call: every file, then, for old files, their
catalog rows. -/
def removalEffects (data : CleanupBindData) : List CleanupEffect :=
  data.files.map (fun file => .tryRemoveFile file.path) ++
    if data.type = .oldFiles then [.removeFilesScheduledForCleanup data.files] else []

/-- `DuckLakeCleanupExecute`, with `STANDARD_VECTOR_SIZE` as `vectorSize`: the
new state, the effects in the order they happen, and the paths emitted. -/
def duckLakeCleanupExecute (vectorSize : Nat) (data : CleanupBindData)
    (state : DuckLakeCleanupData) : DuckLakeCleanupData × List CleanupEffect × List String :=
  if data.files.length ≤ state.offset then (state, [], [])
  else
    let removed := !state.executed && !data.dryRun
    let effects := if removed then removalEffects data else []
    let filled := fillChunk data.files vectorSize state.offset []
    ({ offset := filled.1, executed := state.executed || removed }, effects, filled.2)

/-- The scan: calls until one emits no rows, at most `fuel` times, and what
each call did. -/
def runCleanup (vectorSize : Nat) (data : CleanupBindData) :
    Nat → DuckLakeCleanupData → List (List CleanupEffect × List String)
  | 0, _ => []
  | fuel + 1, state =>
    let call := duckLakeCleanupExecute vectorSize data state
    (call.2.1, call.2.2) :: if call.2.2 = [] then [] else runCleanup vectorSize data fuel call.1

/-- The chunk fills with the next `budget` paths, or with the rest. -/
theorem fillChunk_eq (files : List DuckLakeFileForCleanup) (budget offset : Nat)
    (rows : List String) :
    fillChunk files budget offset rows =
      (offset + min budget (files.length - offset),
        rows ++ ((files.drop offset).take budget).map (·.path)) := by
  induction budget generalizing offset rows with
  | zero =>
    simp only [fillChunk, Nat.zero_min, Nat.add_zero, List.take_zero, List.map_nil, List.append_nil]
  | succ budget ih =>
    rw [fillChunk]
    split
    · rename_i file hf
      obtain ⟨hlt, rfl⟩ := List.getElem?_eq_some_iff.mp hf
      rw [ih, List.drop_eq_getElem_cons hlt]
      simp only [List.take_succ_cons, List.map_cons, List.append_assoc, List.singleton_append,
        Prod.mk.injEq, and_true]
      omega
    · rename_i hf
      have hge : files.length ≤ offset := List.getElem?_eq_none_iff.mp hf
      rw [List.drop_eq_nil_of_le hge, Nat.sub_eq_zero_of_le hge]
      simp only [Nat.min_zero, Nat.add_zero, List.take_nil, List.map_nil, List.append_nil]

/-- A call with files left emits the next `vectorSize` paths, removes every
file if none was removed before and the bind read no `dry_run`, and moves
past what it emitted. -/
theorem duckLakeCleanupExecute_of_lt {vectorSize : Nat} {data : CleanupBindData}
    {state : DuckLakeCleanupData} (h : state.offset < data.files.length) :
    duckLakeCleanupExecute vectorSize data state =
      ({ offset := state.offset + min vectorSize (data.files.length - state.offset),
         executed := state.executed || !data.dryRun },
        if state.executed = false ∧ data.dryRun = false then removalEffects data else [],
        ((data.files.drop state.offset).take vectorSize).map (·.path)) := by
  rw [duckLakeCleanupExecute, if_neg (Nat.not_le.mpr h), fillChunk_eq]
  cases state.executed <;> cases data.dryRun <;> rfl

/-- A call with no file left does nothing and emits no row. -/
theorem duckLakeCleanupExecute_of_ge {vectorSize : Nat} {data : CleanupBindData}
    {state : DuckLakeCleanupData} (h : data.files.length ≤ state.offset) :
    duckLakeCleanupExecute vectorSize data state = (state, [], []) := by
  simp [duckLakeCleanupExecute, h]

/-- The calls that emit rows, from `offset` on: `⌈(n - offset) / vectorSize⌉`. -/
def callsLeft (vectorSize n offset : Nat) : Nat := (n - offset + vectorSize - 1) / vectorSize

theorem callsLeft_of_ge {vectorSize n offset : Nat} (hV : 0 < vectorSize) (h : n ≤ offset) :
    callsLeft vectorSize n offset = 0 :=
  Nat.div_eq_of_lt (by omega)

theorem callsLeft_of_lt {vectorSize n offset : Nat} (hV : 0 < vectorSize) (h : offset < n) :
    callsLeft vectorSize n offset =
      callsLeft vectorSize n (offset + min vectorSize (n - offset)) + 1 := by
  unfold callsLeft
  by_cases hle : n - offset ≤ vectorSize
  · have hone : (n - offset + vectorSize - 1) / vectorSize = 1 :=
      Nat.div_eq_of_lt_le (by omega) (by omega)
    have hzero : (n - (offset + (n - offset)) + vectorSize - 1) / vectorSize = 0 :=
      Nat.div_eq_of_lt (by omega)
    rw [Nat.min_eq_right hle, hone, hzero]
  · obtain ⟨e, he⟩ : ∃ e, n - offset = e + vectorSize := ⟨n - offset - vectorSize, by omega⟩
    rw [Nat.min_eq_left (by omega), ← Nat.add_div_right _ hV, ← Nat.sub_sub, he,
      Nat.add_sub_cancel, Nat.sub_add_comm (by omega)]

/-- What the `i`-th call of a scan from `state` does and emits. -/
def cleanupCall (vectorSize : Nat) (data : CleanupBindData) (state : DuckLakeCleanupData)
    (i : Nat) : List CleanupEffect × List String :=
  (if i = 0 ∧ state.executed = false ∧ data.dryRun = false then removalEffects data else [],
    ((data.files.drop (state.offset + i * vectorSize)).take vectorSize).map (·.path))

/-- A scan with enough fuel makes one call per chunk of paths, then one call
that emits nothing. -/
theorem runCleanup_eq {vectorSize : Nat} (hV : 0 < vectorSize) (data : CleanupBindData)
    (fuel : Nat) (state : DuckLakeCleanupData)
    (hfuel : callsLeft vectorSize data.files.length state.offset < fuel) :
    runCleanup vectorSize data fuel state =
      (List.range (callsLeft vectorSize data.files.length state.offset)).map
        (cleanupCall vectorSize data state) ++ [([], [])] := by
  induction fuel generalizing state with
  | zero => omega
  | succ fuel ih =>
    by_cases h : state.offset < data.files.length
    · have hrows : ((data.files.drop state.offset).take vectorSize).map (·.path) ≠ [] := by
        simp only [ne_eq, List.map_eq_nil_iff, List.take_eq_nil_iff, List.drop_eq_nil_iff]
        omega
      have hcalls := callsLeft_of_lt hV h
      rw [runCleanup, duckLakeCleanupExecute_of_lt h, if_neg hrows, hcalls,
        ih _ (by simp only at hcalls ⊢; omega), List.range_succ_eq_map]
      simp only [List.map_cons, List.map_map, List.cons_append, cleanupCall, true_and,
        Nat.zero_mul, Nat.add_zero, List.cons.injEq]
      congr 1
      apply List.map_congr_left
      intro i hi
      have hfull : vectorSize ≤ data.files.length - state.offset := by
        by_contra hlt
        rw [List.mem_range, Nat.min_eq_right (by omega), callsLeft_of_ge hV (by omega)] at hi
        omega
      have hoff : state.offset + vectorSize + i * vectorSize = state.offset + i.succ * vectorSize := by
        rw [Nat.succ_mul]; omega
      simp only [cleanupCall, Nat.min_eq_left hfull, hoff]
      rw [if_neg fun ⟨_, hex, hd⟩ => by simp [hd] at hex]
      rfl
    · rw [runCleanup, duckLakeCleanupExecute_of_ge (Nat.le_of_not_lt h),
        callsLeft_of_ge hV (Nat.le_of_not_lt h)]
      rfl

/-! ### A whole scan from a fresh state -/

theorem callsLeft_eq_zero_iff {vectorSize n : Nat} (hV : 0 < vectorSize) :
    callsLeft vectorSize n 0 = 0 ↔ n = 0 := by
  rw [callsLeft, Nat.div_eq_zero_iff hV]
  omega

/-- `⌈n / vectorSize⌉` chunks hold every file. -/
theorem le_callsLeft_mul {vectorSize : Nat} (hV : 0 < vectorSize) (n : Nat) :
    n ≤ callsLeft vectorSize n 0 * vectorSize := by
  have := @Nat.lt_div_mul_add (n - 0 + vectorSize - 1) vectorSize hV
  unfold callsLeft
  omega

/-- Every chunk but the last is followed by at least one more file. -/
theorem mul_le_of_lt_callsLeft {vectorSize n i : Nat} (hV : 0 < vectorSize)
    (h : i + 1 < callsLeft vectorSize n 0) : (i + 1) * vectorSize ≤ n := by
  have := (Nat.le_div_iff_mul_le hV).mp h
  rw [Nat.succ_mul] at this
  omega

/-- The first `N` chunks of `vectorSize` of a list, joined, are its first
`N * vectorSize` elements. -/
theorem flatten_chunks {α : Type} (l : List α) (vectorSize N : Nat) :
    ((List.range N).map fun i => (l.drop (i * vectorSize)).take vectorSize).flatten =
      l.take (N * vectorSize) := by
  induction N with
  | zero => simp
  | succ N ih =>
    rw [List.range_succ, List.map_append, List.flatten_append, ih, Nat.succ_mul, List.take_add]
    simp

theorem cleanupCall_fst_succ (vectorSize : Nat) (data : CleanupBindData)
    (state : DuckLakeCleanupData) (i : Nat) : (cleanupCall vectorSize data state (i + 1)).1 = [] := by
  simp [cleanupCall]

theorem cleanupCall_fresh_snd (vectorSize : Nat) (data : CleanupBindData) (i : Nat) :
    (cleanupCall vectorSize data {} i).2 =
      ((data.files.drop (i * vectorSize)).take vectorSize).map (·.path) := by
  simp [cleanupCall]

/-- A whole scan from a fresh state: one call per chunk of `vectorSize` paths
and a last call that emits none; the chunks are the files' paths in order, all
full but the last; the first call removes every file, if there is one and the
bind read no `dry_run`, and no other call removes anything; the orphaned-files
scan never touches the catalog. -/
theorem runCleanup_contract {vectorSize : Nat} (hV : 0 < vectorSize) (data : CleanupBindData)
    (fuel : Nat) (hfuel : callsLeft vectorSize data.files.length 0 < fuel) :
    let calls := runCleanup vectorSize data fuel {}
    calls.length = callsLeft vectorSize data.files.length 0 + 1 ∧
      (calls.map Prod.snd).flatten = data.files.map (·.path) ∧
      (∀ c ∈ calls.take (callsLeft vectorSize data.files.length 0 - 1),
        c.2.length = vectorSize) ∧
      (calls.map Prod.fst).flatten =
        (if data.files ≠ [] ∧ data.dryRun = false then removalEffects data else []) ∧
      (∀ c ∈ calls.tail, c.1 = []) ∧
      (data.type = .orphanedFiles →
        ∀ c ∈ calls, ∀ files, CleanupEffect.removeFilesScheduledForCleanup files ∉ c.1) := by
  intro calls
  have hrun : calls = (List.range (callsLeft vectorSize data.files.length 0)).map
      (cleanupCall vectorSize data {}) ++ [([], [])] := runCleanup_eq hV data fuel {} hfuel
  have hempty := callsLeft_eq_zero_iff (n := data.files.length) hV
  rw [hrun]
  refine ⟨by simp, ?rows, ?full, ?effects, ?tail, ?orphaned⟩
  case rows =>
    simp only [List.map_append, List.flatten_append, List.map_cons, List.map_nil,
      List.flatten_cons, List.flatten_nil, List.append_nil]
    calc _ = (((List.range (callsLeft vectorSize data.files.length 0)).map fun i =>
            (data.files.drop (i * vectorSize)).take vectorSize).flatten).map (·.path) := by
          rw [List.map_flatten, List.map_map, List.map_map]
          exact congrArg _ (List.map_congr_left fun i _ => cleanupCall_fresh_snd vectorSize data i)
      _ = _ := by rw [flatten_chunks, List.take_of_length_le (le_callsLeft_mul hV _)]
  case full =>
    rw [List.take_append_of_le_length (by rw [List.length_map, List.length_range]; omega),
      ← List.map_take, List.take_range]
    simp only [List.mem_map, List.mem_range, forall_exists_index, and_imp]
    rintro c i hi rfl
    have := mul_le_of_lt_callsLeft hV (by omega : i + 1 < callsLeft vectorSize data.files.length 0)
    rw [cleanupCall_fresh_snd, List.length_map, List.length_take, List.length_drop]
    rw [Nat.succ_mul] at this
    omega
  case effects =>
    cases hN : callsLeft vectorSize data.files.length 0 with
    | zero => simp [List.length_eq_zero.mp (hempty.mp hN)]
    | succ N =>
      have hne : data.files ≠ [] := fun h => by
        rw [← List.length_eq_zero, ← hempty, hN] at h
        exact Nat.succ_ne_zero N h
      simp [List.range_succ_eq_map, cleanupCall_fst_succ, hne, cleanupCall]
  case tail =>
    cases callsLeft vectorSize data.files.length 0 with
    | zero => simp
    | succ N =>
      simp only [List.range_succ_eq_map, List.map_cons, List.map_map, List.cons_append,
        List.tail_cons, List.mem_append, List.mem_map, List.mem_singleton]
      rintro c (⟨i, -, rfl⟩ | rfl)
      · exact cleanupCall_fst_succ vectorSize data {} i
      · rfl
  case orphaned =>
    intro horph c hc files
    simp only [List.mem_append, List.mem_map, List.mem_singleton] at hc
    rcases hc with ⟨i, -, rfl⟩ | rfl
    · simp only [cleanupCall]
      split <;> simp only [removalEffects, horph, reduceCtorEq, if_false, List.append_nil, List.mem_map,
        and_false, exists_false, not_false_eq_true, List.not_mem_nil]
    · simp

section

-- DuckDB's `Timestamp::ToString`, the outcome of the catalog lookup, and the
-- metadata manager's `GetFilesForCleanup(filter, type, separator)`.
variable (timestampToString : Int → String) (getCatalog : Except Exception Unit)
  (getFilesForCleanup : String → CleanupType → Except Exception (List DuckLakeFileForCleanup))

/-- The cleanup functions end to end. After an accepted bind, which asks the
metadata manager for the files under its own filter, a scan from a fresh state
makes one call per chunk of those files and one empty call, emits their paths
in order in full chunks but the last, and removes them all in its first call
exactly when there are some and no `dry_run` is given, whatever its value. The
orphaned-files function never touches the catalog. -/
theorem cleanup_run {namedParameters : List (String × Value)} {type : CleanupType}
    {olderThanDefault : String} {data : CleanupBindData} {vectorSize fuel : Nat}
    (hbind : cleanupBind timestampToString getCatalog getFilesForCleanup namedParameters type
      olderThanDefault = .ok data)
    (hV : 0 < vectorSize) (hfuel : callsLeft vectorSize data.files.length 0 < fuel) :
    let calls := runCleanup vectorSize data fuel {}
    getFilesForCleanup data.getFilter type = .ok data.files ∧
      calls.length = callsLeft vectorSize data.files.length 0 + 1 ∧
      (calls.map Prod.snd).flatten = data.files.map (·.path) ∧
      (∀ c ∈ calls.take (callsLeft vectorSize data.files.length 0 - 1),
        c.2.length = vectorSize) ∧
      (calls.map Prod.fst).flatten =
        (if data.files ≠ [] ∧ hasParameter namedParameters "dry_run" = false then
          data.files.map (fun file => .tryRemoveFile file.path) ++
            if type = .oldFiles then [.removeFilesScheduledForCleanup data.files] else []
        else []) ∧
      (∀ c ∈ calls.tail, c.1 = []) ∧
      (type = .orphanedFiles →
        ∀ c ∈ calls, ∀ files, CleanupEffect.removeFilesScheduledForCleanup files ∉ c.1) := by
  intro calls
  obtain ⟨-, -, -, htype, hdry, hfiles⟩ :=
    cleanupBind_ok timestampToString getCatalog getFilesForCleanup hbind
  obtain ⟨hlen, hrows, hfull, heff, htail, horph⟩ := runCleanup_contract hV data fuel hfuel
  refine ⟨hfiles, hlen, hrows, hfull, ?_, htail, fun h => horph (htype.trans h)⟩
  rw [heff, ← hdry, removalEffects, htype]

theorem cleanup_run_three_files :
    (runCleanup 2 { type := .oldFiles, files := [⟨"a"⟩, ⟨"b"⟩, ⟨"c"⟩] } 3 {}).length = 3 ∧
      ((runCleanup 2 { type := .oldFiles, files := [⟨"a"⟩, ⟨"b"⟩, ⟨"c"⟩] } 3 {}).map
        Prod.snd).flatten = ["a", "b", "c"] :=
  let h := @cleanup_run (fun _ => "") (.ok ()) (fun _ _ => .ok [⟨"a"⟩, ⟨"b"⟩, ⟨"c"⟩])
    [("cleanup_all", .boolean true)] .oldFiles "" { type := .oldFiles, files := [⟨"a"⟩, ⟨"b"⟩, ⟨"c"⟩] }
    2 3 rfl (by decide) (by decide)
  ⟨h.2.1, h.2.2.1⟩

/-- `dry_run => false` reads as a dry run: the old file is reported and never
removed, as it is when no `dry_run` is given. -/
theorem cleanup_dry_run_false_keeps_files :
    (duckLakeCleanupOldFilesBind timestampToString (.ok ()) (fun _ _ => .ok [⟨"a.parquet"⟩])
        [("dry_run", .boolean false), ("cleanup_all", .boolean true)]).map
      (fun data => runCleanup 2048 data 2 {}) = .ok [([], ["a.parquet"]), ([], [])] ∧
    (duckLakeCleanupOldFilesBind timestampToString (.ok ()) (fun _ _ => .ok [⟨"a.parquet"⟩])
        [("cleanup_all", .boolean true)]).map (fun data => runCleanup 2048 data 2 {}) =
      .ok [([.tryRemoveFile "a.parquet", .removeFilesScheduledForCleanup [⟨"a.parquet"⟩]],
        ["a.parquet"]), ([], [])] :=
  ⟨rfl, rfl⟩

end

end DuckLake
