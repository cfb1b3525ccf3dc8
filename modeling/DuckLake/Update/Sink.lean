import DuckLake.Basic
import Mathlib.Algebra.BigOperators.Group.Finset
import Mathlib.Data.Fintype.Fin

/-! The sink side of `DuckLakeUpdate`, which runs an `UPDATE` as a delete of the
old rows and an insert of the new ones. A run is one interleaving of the worker
threads' `Sink` and `Combine` calls; a call touches only its thread's local
state, the children and one atomic add, so calls are interleaved whole. -/
namespace DuckLake

/-- `idx_t` addition, which wraps at `2^64`. -/
def idxAdd (a b : Nat) : Nat := (a + b) % UInt64.size

/-- `idx_t` subtraction, which wraps at `2^64`. -/
def idxSub (a b : Nat) : Nat := (a + UInt64.size - b) % UInt64.size

/-- `STANDARD_VECTOR_SIZE`: the most rows a `DataChunk` holds. -/
def standardVectorSize : Nat := 2048

/-- A `DataChunk` of `columnCount` columns, by rows. A column count is an `idx_t`. -/
structure DataChunk (α : Type) (columnCount : Nat) where
  rows : List (List α)
  rows_length : ∀ row ∈ rows, row.length = columnCount
  size_le : rows.length ≤ standardVectorSize
  columnCount_lt : columnCount < UInt64.size
  deriving DecidableEq

namespace DataChunk

variable {α : Type} {k : Nat}

/-- `DataChunk::size`. -/
def size (chunk : DataChunk α k) : Nat := chunk.rows.length

/-- `chunk.data[j]`, the `Vector` of column `j`, as the values of its rows.
`data` is DuckDB's bounds-checked `vector`, so a column past the last raises,
whatever the chunk's size. -/
def column (chunk : DataChunk α k) (j : Nat) : Except Exception (List α) :=
  if j < k then .ok (chunk.rows.filterMap (·[j]?)) else .error (indexOutOfRange j k)

end DataChunk

/-- The rows of a chunk of `size` rows built column by column: row `r` holds
the `r`-th value of every column. -/
def columnsToRows {α : Type} (size : Nat) : List (List α) → List (List α)
  | [] => List.replicate size []
  | column :: columns => List.zipWith List.cons column (columnsToRows size columns)

/-- `SinkCombineResultType`. -/
inductive SinkCombineResultType where
  | finished
  | blocked
  deriving DecidableEq, Repr

/-- `DuckLakeUpdateLocalState`: the rows a thread has sunk and not yet
combined. The children's local states and the two chunks are the children's. -/
structure DuckLakeUpdateLocalState where
  updatedCount : Nat := 0
  deriving DecidableEq, Repr

/-- A planned `DuckLakeUpdate`: the updated columns, and its update expressions
as the `ExpressionExecutor` evaluates them on one input row, raising what an
expression raises. -/
structure DuckLakeUpdate (α : Type) where
  columns : List Nat
  executeExpressions : List α → Except Exception (List α)

/-- The message of every check on a child's result. -/
def asyncCombineMessage : String :=
  "DuckLakeUpdate::Combine does not support async child operators"

/-- `INT64_MAX`. -/
def int64Max : Nat := 9223372036854775807

/-- `NumericCast<int64_t>` of an `idx_t`. DuckDB raises past `INT64_MAX`; its
message goes on with the value and the target range, left out here. -/
def numericCastInt64 (v : Nat) : Except Exception Int :=
  if v ≤ int64Max then .ok v else .error (.internal "Information loss on integer cast")

namespace DuckLakeUpdate

variable {α : Type} {k : Nat}

/-- `row_id_index = columns.size()`. -/
def rowIdIndex (op : DuckLakeUpdate α) : Nat := op.columns.length

/-- `DuckLakeUpdate::Sink`, given what the copy's and the delete's `Sink`
raise or return: the rows pushed into the copy and into the delete, and the
thread's new local state. The executor runs over the chunk row by row. -/
def sink (op : DuckLakeUpdate α) (chunk : DataChunk α k) (lstate : DuckLakeUpdateLocalState)
    (copySink deleteSink : Except Exception Unit) :
    Except Exception (List (List α) × List (List α) × DuckLakeUpdateLocalState) := do
  let values ← chunk.rows.mapM op.executeExpressions
  let rowIds ← chunk.column op.rowIdIndex
  let insertRows := List.zipWith (fun v r => v ++ [r]) values rowIds
  copySink
  let deleteIdxStart := idxSub k 3
  let deleteColumns ← [0, 1, 2].mapM fun i => chunk.column (idxAdd deleteIdxStart i)
  deleteSink
  return (insertRows, columnsToRows chunk.size deleteColumns,
    { updatedCount := idxAdd lstate.updatedCount chunk.size })

/-- `DuckLakeUpdate::Combine`: the global count once a thread has combined,
given what the copy's and the delete's `Combine` raise or return. -/
def combine (totalUpdatedCount : Nat) (lstate : DuckLakeUpdateLocalState)
    (copyCombine deleteCombine : Except Exception SinkCombineResultType) : Except Exception Nat := do
  let result ← copyCombine
  if result ≠ .finished then throw (.internal asyncCombineMessage)
  let result ← deleteCombine
  if result ≠ .finished then throw (.internal asyncCombineMessage)
  return idxAdd totalUpdatedCount lstate.updatedCount

/-- `DuckLakeUpdate::GetData`: the count, as the `BIGINT` of its one row. -/
def getData (totalUpdatedCount : Nat) : Except Exception Int :=
  numericCastInt64 totalUpdatedCount

/-- The row the copy should receive for an input row whose update
expressions evaluate to `values`: those values and the row id. -/
def copyRow (op : DuckLakeUpdate α) (values row : List α) : List α :=
  values ++ row[op.rowIdIndex]?.toList

end DuckLakeUpdate

/-- The row the delete should receive for an input row: its last three
columns, the row identifier. -/
def deleteRow {α : Type} (row : List α) : List α := row.drop (row.length - 3)

/-- A call a worker thread makes: a `Sink` of one chunk, with what the
children's `Sink` raise or return, or its `Combine`, with what the children's
`Combine` raise or return. -/
inductive UpdateCall (α : Type) (n k : Nat) where
  | sink (thread : Fin n) (chunk : DataChunk α k) (copySink deleteSink : Except Exception Unit)
  | combine (thread : Fin n) (copyCombine deleteCombine : Except Exception SinkCombineResultType)

namespace UpdateCall

variable {α : Type} {n k : Nat}

def thread : UpdateCall α n k → Fin n
  | .sink t _ _ _ => t
  | .combine t _ _ => t

def isCombine : UpdateCall α n k → Bool
  | .sink _ _ _ _ => false
  | .combine _ _ _ => true

/-- The input rows of a call. -/
def rows : UpdateCall α n k → List (List α)
  | .sink _ chunk _ _ => chunk.rows
  | .combine _ _ _ => []

/-- Whether the children's calls return, and their `Combine`s finish. -/
def childrenReturn : UpdateCall α n k → Bool
  | .sink _ _ copySink deleteSink => copySink == .ok () && deleteSink == .ok ()
  | .combine _ copyCombine deleteCombine =>
    copyCombine == .ok .finished && deleteCombine == .ok .finished

end UpdateCall

/-- The input rows of a run, in the order they are sunk. -/
def inputRows {α : Type} {n k : Nat} (calls : List (UpdateCall α n k)) : List (List α) :=
  (calls.map UpdateCall.rows).flatten

/-- The threads of a run's `Combine`s, in order. -/
def combinedThreads {α : Type} {n k : Nat} (calls : List (UpdateCall α n k)) : List (Fin n) :=
  (calls.filter UpdateCall.isCombine).map UpdateCall.thread

/-- The engine's schedule: a thread that has combined makes no more calls. -/
def ScheduleOk {α : Type} {n k : Nat} (calls : List (UpdateCall α n k)) : Prop :=
  calls.Pairwise fun c c' => c.isCombine = true → c'.thread ≠ c.thread

instance {α : Type} {n k : Nat} (calls : List (UpdateCall α n k)) : Decidable (ScheduleOk calls) :=
  inferInstanceAs (Decidable (List.Pairwise _ _))

/-- The update operator's global state and its threads' local states, with
the rows the copy and the delete received. `combined` is the engine's record of
the threads that have combined. -/
structure UpdateState (α : Type) (n : Nat) where
  totalUpdatedCount : Nat
  locals : Fin n → DuckLakeUpdateLocalState
  combined : Fin n → Bool
  copySunk : List (List α)
  deleteSunk : List (List α)

namespace UpdateState

variable {α : Type} {n k : Nat}

/-- The states `GetGlobalSinkState` and `GetLocalSinkState` build. -/
def init : UpdateState α n := ⟨0, fun _ => {}, fun _ => false, [], []⟩

/-- One call, on the state it finds. -/
def step (op : DuckLakeUpdate α) (s : UpdateState α n) :
    UpdateCall α n k → Except Exception (UpdateState α n)
  | .sink t chunk copySink deleteSink => do
    let (copyRows, deleteRows, lstate) ← op.sink chunk (s.locals t) copySink deleteSink
    return { s with locals := Function.update s.locals t lstate,
                    copySunk := s.copySunk ++ copyRows, deleteSunk := s.deleteSunk ++ deleteRows }
  | .combine t copyCombine deleteCombine => do
    let total ← DuckLakeUpdate.combine s.totalUpdatedCount (s.locals t) copyCombine deleteCombine
    return { s with totalUpdatedCount := total, combined := Function.update s.combined t true }

/-- A run of calls; the first exception ends it. -/
def run (op : DuckLakeUpdate α) : UpdateState α n → List (UpdateCall α n k) →
    Except Exception (UpdateState α n)
  | s, [] => .ok s
  | s, c :: cs => step op s c >>= fun s' => run op s' cs

/-- The rows held by the threads that have not combined. -/
def pendingCount (s : UpdateState α n) : Nat :=
  ∑ t, if s.combined t then 0 else (s.locals t).updatedCount

end UpdateState

end DuckLake
