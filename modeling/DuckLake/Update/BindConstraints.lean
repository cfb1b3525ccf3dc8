import DuckLake.Basic
import Mathlib.Data.List.Nodup

/-! `DuckLakeTableEntry::BindUpdateConstraints`. DuckLake runs an update as a
delete and an insert, so the insert needs a value for every column. For each
physical column the `SET` list does not assign, the binder adds a pass-through
`i = i`: a new slot of the projection below the update reads the column from the
table scan, projecting it first if the scan does not read it yet. -/
namespace DuckLake

/-- The bound expressions the planning of an update reads. -/
inductive Expression where
  /-- `BoundColumnRefExpression`: a column of a logical operator's output. -/
  | columnRef (tableIndex columnIndex : Nat)
  /-- `BoundReferenceExpression`: a column of the physical child's chunk. -/
  | reference (index : Nat)
  /-- `BoundDefaultExpression`, the value of `SET c = DEFAULT`. -/
  | valueDefault
  /-- A bound scalar function of one argument. -/
  | function (name : String) (child : Expression)
  /-- Any other expression. -/
  | other (id : Nat)
  deriving DecidableEq, Repr

/-- `LogicalGet`, as far as it is read here: its table index, and its column
ids by their primary index. -/
structure LogicalGet where
  tableIndex : Nat
  columnIds : List Nat
  deriving DecidableEq, Repr

/-- `LogicalGet::AddColumnId`. -/
def LogicalGet.addColumnId (get : LogicalGet) (columnId : Nat) : LogicalGet :=
  { get with columnIds := get.columnIds ++ [columnId] }

/-- `LogicalProjection`. -/
structure LogicalProjection where
  tableIndex : Nat
  expressions : List Expression
  deriving DecidableEq, Repr

/-- `LogicalUpdate`: the assigned physical columns and their expressions. -/
structure LogicalUpdate where
  columns : List Nat
  expressions : List Expression
  returnChunk : Bool := false
  updateIsDelAndInsert : Bool := false
  deriving DecidableEq, Repr

/-- The three operators `BindUpdateConstraints` edits. -/
structure UpdateBinding where
  get : LogicalGet
  proj : LogicalProjection
  update : LogicalUpdate
  deriving DecidableEq, Repr

/-- The scan column that reads `physicalIndex`, and the scan: the first column
id with that primary index, or a new one. -/
def LogicalGet.columnIdIndex (get : LogicalGet) (physicalIndex : Nat) : Nat × LogicalGet :=
  match get.columnIds.findIdx? (· == physicalIndex) with
  | some i => (i, get)
  | none => (get.columnIds.length, get.addColumnId physicalIndex)

/-- One pass of the loop of `BindUpdateConstraints`, for the physical column
`physicalIndex`. The column id is added to the scan once more at the end, also
when the scan already read it. -/
def bindColumn (b : UpdateBinding) (physicalIndex : Nat) : UpdateBinding :=
  if physicalIndex ∈ b.update.columns then b
  else
    let (columnIdIndex, get) := b.get.columnIdIndex physicalIndex
    { get := get.addColumnId physicalIndex
      proj := { b.proj with
        expressions := b.proj.expressions ++ [.columnRef get.tableIndex columnIdIndex] }
      update := { b.update with
        expressions := b.update.expressions ++ [.columnRef b.proj.tableIndex b.proj.expressions.length]
        columns := b.update.columns ++ [physicalIndex] } }

/-- `DuckLakeTableEntry::BindUpdateConstraints`, over the physical indexes of
the table's columns. -/
def bindUpdateConstraints (physicalColumns : List Nat) (get : LogicalGet)
    (proj : LogicalProjection) (update : LogicalUpdate) : UpdateBinding :=
  physicalColumns.foldl bindColumn ⟨get, proj, { update with updateIsDelAndInsert := true }⟩

/-- Entry `j` of the update passes its column through: its expression reads a
projection slot from `firstSlot` on, which reads a scan column whose id is the
entry's column. -/
def PassThrough (b : UpdateBinding) (firstSlot j : Nat) : Prop :=
  ∃ c p g, b.update.columns[j]? = some c ∧
    b.update.expressions[j]? = some (.columnRef b.proj.tableIndex p) ∧ firstSlot ≤ p ∧
    b.proj.expressions[p]? = some (.columnRef b.get.tableIndex g) ∧ b.get.columnIds[g]? = some c

theorem PassThrough.mono {b : UpdateBinding} {s s' j : Nat} (h : PassThrough b s j) (hs : s' ≤ s) :
    PassThrough b s' j :=
  let ⟨c, p, g, hc, he, hp, hproj, hg⟩ := h
  ⟨c, p, g, hc, he, le_trans hs hp, hproj, hg⟩

/-! ### One column -/

section

variable {b : UpdateBinding} {c : Nat}

theorem columnIdIndex_spec (get : LogicalGet) (c : Nat) :
    get.columnIds <+: (get.columnIdIndex c).2.columnIds ∧
      (get.columnIdIndex c).2.tableIndex = get.tableIndex ∧
      (get.columnIdIndex c).2.columnIds[(get.columnIdIndex c).1]? = some c := by
  unfold LogicalGet.columnIdIndex
  split
  · rename_i i hi
    obtain ⟨hlt, hc, -⟩ := List.findIdx?_eq_some_iff_getElem.mp hi
    exact ⟨List.prefix_refl _, rfl, by simpa [List.getElem?_eq_getElem hlt] using hc⟩
  · exact ⟨List.prefix_append _ _, rfl, by simp [LogicalGet.addColumnId]⟩

theorem bindColumn_of_mem (h : c ∈ b.update.columns) : bindColumn b c = b := if_pos h

/-- A pass only appends: to the scan's column ids, the projection's slots and
the update's entries. -/
theorem bindColumn_extends (b : UpdateBinding) (c : Nat) :
    b.get.columnIds <+: (bindColumn b c).get.columnIds ∧
      (bindColumn b c).get.tableIndex = b.get.tableIndex ∧
      b.proj.expressions <+: (bindColumn b c).proj.expressions ∧
      (bindColumn b c).proj.tableIndex = b.proj.tableIndex ∧
      b.update.expressions <+: (bindColumn b c).update.expressions ∧
      (bindColumn b c).update.columns =
        b.update.columns ++ if c ∈ b.update.columns then [] else [c] := by
  unfold bindColumn
  split
  · rename_i h
    simp [h]
  · rename_i h
    obtain ⟨hpre, htab, -⟩ := columnIdIndex_spec b.get c
    exact ⟨hpre.trans (List.prefix_append _ _), htab, List.prefix_append _ _, rfl,
      List.prefix_append _ _, by simp [h]⟩

theorem bindColumn_aligned (h : b.update.expressions.length = b.update.columns.length) (c : Nat) :
    (bindColumn b c).update.expressions.length = (bindColumn b c).update.columns.length := by
  unfold bindColumn
  split
  · exact h
  · simp [h]

/-- A pass adds the column's id to the scan twice if the scan did not read it
yet, and once if it did. -/
theorem bindColumn_columnIds (b : UpdateBinding) (c : Nat) :
    (bindColumn b c).get.columnIds = b.get.columnIds ++
      if c ∈ b.update.columns then [] else if c ∈ b.get.columnIds then [c] else [c, c] := by
  by_cases hu : c ∈ b.update.columns
  · simp [bindColumn_of_mem hu, hu]
  · simp only [bindColumn, LogicalGet.columnIdIndex, if_neg hu]
    split
    · rename_i i hi
      have hmem : c ∈ b.get.columnIds := by
        obtain ⟨hlt, hc, -⟩ := List.findIdx?_eq_some_iff_getElem.mp hi
        exact List.mem_iff_getElem.mpr ⟨i, hlt, by simpa using hc⟩
      simp [LogicalGet.addColumnId, hmem]
    · rename_i hi
      have hmem : c ∉ b.get.columnIds := fun hmem => by
        simpa using List.findIdx?_eq_none_iff.mp hi c hmem
      simp [LogicalGet.addColumnId, hmem]

theorem getElem?_of_prefix {α : Type} {l l' : List α} (h : l <+: l') {i : Nat} {a : α}
    (hi : l[i]? = some a) : l'[i]? = some a := by
  obtain ⟨t, rfl⟩ := h
  rw [List.getElem?_append_left (List.getElem?_eq_some_iff.mp hi).1, hi]

/-- A later pass keeps an entry's pass-through. -/
theorem passThrough_bindColumn {s j : Nat} (h : PassThrough b s j) (c : Nat) :
    PassThrough (bindColumn b c) s j := by
  obtain ⟨hget, hgt, hproj, hpt, hexpr, hcols⟩ := bindColumn_extends b c
  obtain ⟨c', p, g, hc, he, hs, hp, hg⟩ := h
  refine ⟨c', p, g, ?_, ?_, hs, ?_, getElem?_of_prefix hget hg⟩
  · rw [hcols]
    exact getElem?_of_prefix (List.prefix_append _ _) hc
  · rw [hpt]
    exact getElem?_of_prefix hexpr he
  · rw [hgt]
    exact getElem?_of_prefix hproj hp

/-- A pass for an unassigned column adds an entry that passes it through a new
projection slot. -/
theorem passThrough_bindColumn_new (h : b.update.expressions.length = b.update.columns.length)
    (hc : c ∉ b.update.columns) :
    PassThrough (bindColumn b c) b.proj.expressions.length b.update.columns.length := by
  obtain ⟨-, htab, hid⟩ := columnIdIndex_spec b.get c
  refine ⟨c, b.proj.expressions.length, (b.get.columnIdIndex c).1, ?_, ?_, le_rfl, ?_, ?_⟩ <;>
    simp only [bindColumn, if_neg hc, LogicalGet.addColumnId]
  · simp
  · simp [← h]
  · simp [htab]
  · exact getElem?_of_prefix (List.prefix_append _ _) hid

end

/-- A pass keeps the update's `RETURNING` flag, and adds only column references
to its expressions. -/
theorem bindColumn_shape {b : UpdateBinding}
    (h : ∀ e ∈ b.update.expressions, ∃ t c, e = .columnRef t c) (c : Nat) :
    (bindColumn b c).update.returnChunk = b.update.returnChunk ∧
      ∀ e ∈ (bindColumn b c).update.expressions, ∃ t c, e = .columnRef t c := by
  unfold bindColumn
  split
  · exact ⟨rfl, h⟩
  · exact ⟨rfl, fun e he =>
      (List.mem_append.mp he).elim (h e) fun he => ⟨_, _, List.mem_singleton.mp he⟩⟩

/-! ### The loop -/

theorem foldl_bindColumn_shape :
    ∀ (cs : List Nat) {b : UpdateBinding}, (∀ e ∈ b.update.expressions, ∃ t c, e = .columnRef t c) →
      (cs.foldl bindColumn b).update.returnChunk = b.update.returnChunk ∧
        ∀ e ∈ (cs.foldl bindColumn b).update.expressions, ∃ t c, e = .columnRef t c
  | [], _, h => ⟨rfl, h⟩
  | c :: cs, _, h =>
    let ⟨hret, hrefs⟩ := bindColumn_shape h c
    let ⟨hret', hrefs'⟩ := foldl_bindColumn_shape cs hrefs
    ⟨hret'.trans hret, hrefs'⟩

theorem filter_not_mem_append {cs l : List Nat} {c : Nat} (hc : c ∉ cs) :
    cs.filter (· ∉ l ++ [c]) = cs.filter (· ∉ l) :=
  List.filter_congr fun x hx => by simp [show x ≠ c from fun hxc => hc (hxc ▸ hx)]

theorem passThrough_foldl {b : UpdateBinding} {s j : Nat} (h : PassThrough b s j) :
    ∀ cs : List Nat, PassThrough (cs.foldl bindColumn b) s j
  | [] => h
  | c :: cs => passThrough_foldl (passThrough_bindColumn h c) cs

/-- The loop over a list of distinct columns: it appends, in order, the columns
the update does not assign, each with a pass-through, and keeps the update's
columns aligned with its expressions. -/
theorem foldl_bindColumn {cs : List Nat} (hcs : cs.Nodup) {b : UpdateBinding}
    (h : b.update.expressions.length = b.update.columns.length) :
    let b' := cs.foldl bindColumn b
    b'.update.columns = b.update.columns ++ cs.filter (· ∉ b.update.columns) ∧
      b.update.expressions <+: b'.update.expressions ∧
      b'.update.expressions.length = b'.update.columns.length ∧
      ∀ j, b.update.columns.length ≤ j → j < b'.update.columns.length →
        PassThrough b' b.proj.expressions.length j := by
  induction cs generalizing b with
  | nil => exact ⟨by simp, List.prefix_refl _, h, fun j hj hj' => absurd hj' (by simpa using hj)⟩
  | cons c cs ih =>
    obtain ⟨hc, hcs⟩ := List.nodup_cons.mp hcs
    obtain ⟨hcols, hexpr, haligned, hpass⟩ := ih hcs (bindColumn_aligned h c)
    have hext := bindColumn_extends b c
    simp only [List.foldl_cons]
    refine ⟨?_, hext.2.2.2.2.1.trans hexpr, haligned, ?_⟩
    · rw [hcols, hext.2.2.2.2.2]
      by_cases hm : c ∈ b.update.columns
      · simp [hm]
      · rw [if_neg hm, filter_not_mem_append hc, List.filter_cons_of_pos (by simpa using hm),
          List.append_assoc, List.singleton_append]
    · intro j hj hj'
      by_cases hm : c ∈ b.update.columns
      · rw [bindColumn_of_mem hm] at hpass hj' ⊢
        exact hpass j hj hj'
      · have hlen : (bindColumn b c).update.columns.length = b.update.columns.length + 1 := by
          simp [hext.2.2.2.2.2, hm]
        rcases Nat.lt_or_ge j (b.update.columns.length + 1) with hlt | hge
        · obtain rfl : j = b.update.columns.length := by omega
          exact passThrough_foldl (passThrough_bindColumn_new h hm) cs
        · exact (hpass j (by omega) hj').mono hext.2.2.1.length_le

/-- The scan's column ids after the loop over distinct columns: for each column
the update does not assign, in order, its id once if the scan read it and twice
otherwise. -/
theorem foldl_bindColumn_columnIds {cs : List Nat} (hcs : cs.Nodup) (b : UpdateBinding) :
    (cs.foldl bindColumn b).get.columnIds = b.get.columnIds ++
      (cs.filter (· ∉ b.update.columns)).flatMap
        fun c => if c ∈ b.get.columnIds then [c] else [c, c] := by
  induction cs generalizing b with
  | nil => simp
  | cons c cs ih =>
    obtain ⟨hc, hcs⟩ := List.nodup_cons.mp hcs
    rw [List.foldl_cons, ih hcs]
    by_cases hu : c ∈ b.update.columns
    · rw [bindColumn_of_mem hu, List.filter_cons_of_neg (by simpa using hu)]
    · rw [(bindColumn_extends b c).2.2.2.2.2, if_neg hu, filter_not_mem_append hc,
        List.filter_cons_of_pos (by simpa using hu), List.flatMap_cons, bindColumn_columnIds,
        if_neg hu, List.append_assoc]
      congr 2
      refine List.flatMap_congr fun x hx => ?_
      have hxc : x ≠ c := fun hxc => hc (hxc ▸ (List.mem_filter.mp hx).1)
      split <;> simp [hxc]

/-- `BindUpdateConstraints` over physical columns `0..k-1`, for a `SET` list of
distinct columns below `k` aligned with its expressions. The update's columns
become a permutation of `0..k-1` that extends the `SET` list, its expressions
extend the `SET` expressions and stay aligned with the columns, and every added
entry passes its column through a new projection slot. -/
theorem bindUpdateConstraints_spec (k : Nat) (get : LogicalGet) (proj : LogicalProjection)
    (update : LogicalUpdate) (hnodup : update.columns.Nodup) (hlt : ∀ c ∈ update.columns, c < k)
    (haligned : update.expressions.length = update.columns.length) :
    let b := bindUpdateConstraints (List.range k) get proj update
    b.update.columns.Perm (List.range k) ∧ update.columns <+: b.update.columns ∧
      update.expressions <+: b.update.expressions ∧
      b.update.expressions.length = b.update.columns.length ∧
      ∀ j, update.columns.length ≤ j → j < k → PassThrough b proj.expressions.length j := by
  obtain ⟨hcols, hexpr, hlen, hpass⟩ :=
    foldl_bindColumn (List.nodup_range k) (b := ⟨get, proj, { update with updateIsDelAndInsert := true }⟩)
      haligned
  have hperm : (update.columns ++ (List.range k).filter (· ∉ update.columns)).Perm (List.range k) := by
    refine (List.perm_ext_iff_of_nodup ?_ (List.nodup_range k)).mpr fun x => ?_
    · exact hnodup.append ((List.nodup_range k).filter _)
        fun x hx hx' => by simpa [hx] using (List.mem_filter.mp hx').2
    · by_cases hx : x ∈ update.columns
      · simp [hx, hlt x hx]
      · simp [hx]
  refine ⟨hcols ▸ hperm, hcols ▸ List.prefix_append _ _, hexpr, hlen, fun j hj hjk => hpass j hj ?_⟩
  rw [hcols, hperm.length_eq, List.length_range]
  exact hjk

/-- The scan after `BindUpdateConstraints` over physical columns `0..k-1`: for
each column the `SET` list does not assign, in order, the column's id is added
once if the scan read it already and twice otherwise, since `AddColumnId` runs
again after the check that projects it. -/
theorem bindUpdateConstraints_columnIds (k : Nat) (get : LogicalGet) (proj : LogicalProjection)
    (update : LogicalUpdate) :
    (bindUpdateConstraints (List.range k) get proj update).get.columnIds = get.columnIds ++
      ((List.range k).filter (· ∉ update.columns)).flatMap
        fun c => if c ∈ get.columnIds then [c] else [c, c] :=
  foldl_bindColumn_columnIds (List.nodup_range k) _

example : (bindUpdateConstraints (List.range 2) ⟨0, [1]⟩ ⟨1, []⟩ ⟨[], [], false, false⟩).get.columnIds =
    [1, 0, 0, 1] := by decide

end DuckLake
