import DuckLake.Update.Conservation

/-! What a run of the update operator's sink raises, on any chunk layout and in
any interleaving. Whether a call raises depends on the call alone, not on the
state it finds, so a run raises exactly at its first call that raises. -/
namespace DuckLake

open UpdateState

variable {α : Type} {n k : Nat}

/-- What `Sink` raises, or `none`, in the order it raises it: what the executor
raises on the first row it fails on; a row id column past the last; what the
copy's `Sink` raises; when the chunk has fewer than three columns, the first
row-identifier column, at `ColumnCount() - 3` wrapped in `idx_t`; what the
delete's `Sink` raises. The chunk's size plays no part. -/
def DuckLakeUpdate.sinkRaised (op : DuckLakeUpdate α) (chunk : DataChunk α k)
    (copySink deleteSink : Except Exception Unit) : Option Exception :=
  (raisedBy (chunk.rows.mapM op.executeExpressions)).or <|
    if op.rowIdIndex < k then
      (raisedBy copySink).or <|
        if 3 ≤ k then raisedBy deleteSink else some (indexOutOfRange (idxSub k 3) k)
    else some (indexOutOfRange op.rowIdIndex k)

/-- What `Combine` raises on one child's result, or `none`: what the child
raised, or the async message when it did not finish. -/
def combineRaised : Except Exception SinkCombineResultType → Option Exception
  | .error e => some e
  | .ok .finished => none
  | .ok .blocked => some (.internal asyncCombineMessage)

/-- What a call raises, read off the call alone, or `none`. -/
def UpdateCall.raised (op : DuckLakeUpdate α) : UpdateCall α n k → Option Exception
  | .sink _ chunk copySink deleteSink => op.sinkRaised chunk copySink deleteSink
  | .combine _ copyCombine deleteCombine =>
    (combineRaised copyCombine).or (combineRaised deleteCombine)

/-! ### One call -/

end DuckLake
