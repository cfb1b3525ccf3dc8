import DuckLake.Basic

/-! `DuckLakeDeleteMap`, the registry shared by the writers of one delete:
written delete files by path, and the delete data of each data file. Both maps
are `unordered_map`s filled with `emplace`, which keeps an entry already there.
Calls are taken in the order the registry's lock serialises them. -/
namespace DuckLake

/-- The `file` of a `DuckLakeFileListExtendedEntry`; the registry reads only
its path. -/
structure DuckLakeFileData where
  path : String
  deriving DecidableEq, Repr

/-- `DuckLakeFileListExtendedEntry`. The fields the registry never reads are
kept as one payload. -/
structure DuckLakeFileListExtendedEntry (Extra : Type) where
  file : DuckLakeFileData
  extra : Extra
  deriving DecidableEq, Repr

/-- `DuckLakeDeleteData`: the row ids deleted from one data file. -/
structure DuckLakeDeleteData where
  deletedRows : List Nat
  deriving DecidableEq, Repr

/-- `unordered_map::emplace`: inserts only when the key is absent. -/
def emplace {α : Type} (m : List (String × α)) (key : String) (value : α) : List (String × α) :=
  if (m.lookup key).isSome then m else (key, value) :: m

/-- `unordered_map::erase`. -/
def erase {α : Type} (m : List (String × α)) (key : String) : List (String × α) :=
  m.filter fun e => e.1 != key

@[simp] theorem lookup_cons_ite {α : Type} (m : List (String × α)) (key k : String) (v : α) :
    ((key, v) :: m).lookup k = if k = key then some v else m.lookup k := by
  by_cases h : k = key
  · simp [h]
  · simp [List.lookup_cons, h, beq_false_of_ne h]

@[simp] theorem lookup_emplace {α : Type} (m : List (String × α)) (key k : String) (v : α) :
    (emplace m key v).lookup k = if k = key then (m.lookup k).or (some v) else m.lookup k := by
  unfold emplace
  by_cases hk : k = key
  · subst hk
    cases h : m.lookup k <;> simp [h]
  · split <;> simp [hk]

@[simp] theorem lookup_erase {α : Type} (m : List (String × α)) (key k : String) :
    (erase m key).lookup k = if k = key then none else m.lookup k := by
  induction m with
  | nil => simp [erase]
  | cons e m ih =>
    obtain ⟨k', v⟩ := e
    unfold erase at ih ⊢
    by_cases h : k' = key
    · subst h
      rw [List.filter_cons_of_neg (by simp), ih, lookup_cons_ite]
      by_cases hk : k = k' <;> simp [hk]
    · rw [List.filter_cons_of_pos (by simpa using h), lookup_cons_ite, ih, lookup_cons_ite]
      by_cases hk : k = key
      · simp [hk, Ne.symm h]
      · simp [hk]

theorem nodup_emplace {α : Type} {m : List (String × α)} (h : (m.map Prod.fst).Nodup)
    (key : String) (v : α) : ((emplace m key v).map Prod.fst).Nodup := by
  unfold emplace
  split
  · exact h
  · rename_i hk
    have hnone := List.lookup_eq_none_iff.mp (Option.not_isSome_iff_eq_none.mp hk)
    refine List.nodup_cons.mpr ⟨fun hmem => ?_, h⟩
    obtain ⟨p, hp, rfl⟩ := List.mem_map.mp hmem
    exact absurd (hnone p hp) (by simp)

theorem nodup_erase {α : Type} {m : List (String × α)} (h : (m.map Prod.fst).Nodup)
    (key : String) : ((erase m key).map Prod.fst).Nodup :=
  h.sublist ((List.filter_sublist _).map _)

variable {Extra : Type}

/-- `DuckLakeDeleteMap`: `file_map` and `delete_data_map`. Each is an
`unordered_map`, so it holds at most one entry for a key. -/
structure DuckLakeDeleteMap (Extra : Type) where
  fileMap : List (String × DuckLakeFileListExtendedEntry Extra)
  deleteDataMap : List (String × DuckLakeDeleteData)
  fileMap_nodup : (fileMap.map Prod.fst).Nodup
  deleteDataMap_nodup : (deleteDataMap.map Prod.fst).Nodup

namespace DuckLakeDeleteMap

/-- `AddExtendedFileInfo`. -/
def addExtendedFileInfo (m : DuckLakeDeleteMap Extra) (fileEntry : DuckLakeFileListExtendedEntry Extra) :
    DuckLakeDeleteMap Extra :=
  { m with
    fileMap := emplace m.fileMap fileEntry.file.path fileEntry
    fileMap_nodup := nodup_emplace m.fileMap_nodup _ _ }

/-- `GetExtendedFileInfo`. -/
def getExtendedFileInfo (m : DuckLakeDeleteMap Extra) (filename : String) :
    Except Exception (DuckLakeFileListExtendedEntry Extra) :=
  match m.fileMap.lookup filename with
  | some entry => .ok entry
  | none => .error (.internal "Could not find matching file for written delete file")

/-- `GetDeleteData`: `nullptr` is `none`. -/
def getDeleteData (m : DuckLakeDeleteMap Extra) (filename : String) : Option DuckLakeDeleteData :=
  m.deleteDataMap.lookup filename

/-- `ClearDeletes`. -/
def clearDeletes (m : DuckLakeDeleteMap Extra) (filename : String) : DuckLakeDeleteMap Extra :=
  { m with
    deleteDataMap := erase m.deleteDataMap filename
    deleteDataMap_nodup := nodup_erase m.deleteDataMap_nodup _ }

/-- `AddDeleteData`. -/
def addDeleteData (m : DuckLakeDeleteMap Extra) (filename : String) (deleteData : DuckLakeDeleteData) :
    DuckLakeDeleteMap Extra :=
  { m with
    deleteDataMap := emplace m.deleteDataMap filename deleteData
    deleteDataMap_nodup := nodup_emplace m.deleteDataMap_nodup _ _ }

/-- A call that changes the registry; the two lookups change nothing. -/
inductive Call (Extra : Type) where
  | addExtendedFileInfo (fileEntry : DuckLakeFileListExtendedEntry Extra)
  | clearDeletes (filename : String)
  | addDeleteData (filename : String) (deleteData : DuckLakeDeleteData)
  deriving DecidableEq, Repr

/-- One call on the registry. -/
def apply (m : DuckLakeDeleteMap Extra) : Call Extra → DuckLakeDeleteMap Extra
  | .addExtendedFileInfo e => m.addExtendedFileInfo e
  | .clearDeletes f => m.clearDeletes f
  | .addDeleteData f d => m.addDeleteData f d

/-- The registry after a sequence of calls on a fresh one. -/
def run (calls : List (Call Extra)) : DuckLakeDeleteMap Extra :=
  calls.foldl apply ⟨[], [], List.nodup_nil, List.nodup_nil⟩

theorem run_append_singleton (calls : List (Call Extra)) (c : Call Extra) :
    run (calls ++ [c]) = (run calls).apply c := List.foldl_append _ _ _ _

/-! ### What the calls made so far determine -/

/-- Whether a call clears the deletes of `filename`. -/
def Call.clears (filename : String) : Call Extra → Bool
  | .clearDeletes f => f == filename
  | _ => false

/-- The delete data a call adds for `filename`. -/
def Call.deleteDataFor (filename : String) : Call Extra → Option DuckLakeDeleteData
  | .addDeleteData f d => if f = filename then some d else none
  | _ => none

/-- The entry a call records for the path `filename`. -/
def Call.entryFor (filename : String) : Call Extra → Option (DuckLakeFileListExtendedEntry Extra)
  | .addExtendedFileInfo e => if e.file.path = filename then some e else none
  | _ => none

/-- The calls made after the last `ClearDeletes(filename)`, in order. -/
def sinceLastClear (calls : List (Call Extra)) (filename : String) : List (Call Extra) :=
  (calls.reverse.takeWhile fun c => !c.clears filename).reverse

theorem sinceLastClear_append_singleton (calls : List (Call Extra)) (c : Call Extra)
    (filename : String) :
    sinceLastClear (calls ++ [c]) filename =
      if c.clears filename then [] else sinceLastClear calls filename ++ [c] := by
  unfold sinceLastClear
  cases h : c.clears filename <;> simp [h, List.takeWhile_cons]

theorem fileMap_lookup_run (calls : List (Call Extra)) (path : String) :
    (run calls).fileMap.lookup path = calls.findSome? (Call.entryFor path) := by
  induction calls using List.reverseRecOn with
  | nil => rfl
  | append_singleton calls c ih =>
    rw [run_append_singleton, List.findSome?_append, ← ih]
    cases c with
    | addExtendedFileInfo e =>
      by_cases hp : path = e.file.path
      · simp [apply, addExtendedFileInfo, Call.entryFor, hp]
      · simp [apply, addExtendedFileInfo, Call.entryFor, hp, Ne.symm hp]
    | clearDeletes f => simp [apply, clearDeletes, Call.entryFor]
    | addDeleteData f d => simp [apply, addDeleteData, Call.entryFor]

theorem deleteDataMap_lookup_run (calls : List (Call Extra)) (filename : String) :
    (run calls).deleteDataMap.lookup filename =
      (sinceLastClear calls filename).findSome? (Call.deleteDataFor filename) := by
  induction calls using List.reverseRecOn with
  | nil => rfl
  | append_singleton calls c ih =>
    rw [run_append_singleton, sinceLastClear_append_singleton]
    cases c with
    | addExtendedFileInfo e =>
      simp [apply, addExtendedFileInfo, Call.clears, Call.deleteDataFor, List.findSome?_append, ih]
    | clearDeletes f =>
      by_cases hf : filename = f
      · simp [apply, clearDeletes, Call.clears, hf]
      · simp [apply, clearDeletes, Call.clears, Call.deleteDataFor, List.findSome?_append, ih, hf,
          Ne.symm hf]
    | addDeleteData f d =>
      by_cases hf : filename = f
      · subst hf
        simp [apply, addDeleteData, Call.clears, Call.deleteDataFor, List.findSome?_append, ih]
      · simp [apply, addDeleteData, Call.clears, Call.deleteDataFor, List.findSome?_append, ih, hf,
          Ne.symm hf]

/-- After any sequence of calls, `GetDeleteData(f)` returns the data of the
first `AddDeleteData(f, ·)` since the last `ClearDeletes(f)`, and `nullptr`
when there is none: a later add for the same file is dropped, not merged.
`GetExtendedFileInfo(p)` returns the entry of the first `AddExtendedFileInfo`
for `p`, and raises when there is none. -/
theorem run_lookups (calls : List (Call Extra)) (filename path : String) :
    (run calls).getDeleteData filename =
        (sinceLastClear calls filename).findSome? (Call.deleteDataFor filename) ∧
      (run calls).getExtendedFileInfo path =
        match calls.findSome? (Call.entryFor path) with
        | some e => .ok e
        | none => .error (.internal "Could not find matching file for written delete file") :=
  ⟨deleteDataMap_lookup_run calls filename, by rw [getExtendedFileInfo, fileMap_lookup_run]⟩

/-- Two deletes for one file keep the first data; two entries for one path
keep the first entry. -/
theorem run_keeps_first :
    (run [.addDeleteData "f" ⟨[0]⟩, .addDeleteData "f" ⟨[1]⟩] : DuckLakeDeleteMap Nat).getDeleteData "f" =
        some ⟨[0]⟩ ∧
      (run [.addExtendedFileInfo ⟨⟨"p"⟩, 0⟩, .addExtendedFileInfo ⟨⟨"p"⟩, 1⟩] :
        DuckLakeDeleteMap Nat).getExtendedFileInfo "p" = .ok ⟨⟨"p"⟩, 0⟩ := by
  decide

end DuckLakeDeleteMap

end DuckLake
