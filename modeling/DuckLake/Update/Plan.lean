import DuckLake.Update.BindConstraints

/-! `DuckLakeCatalog::PlanUpdate`: the expressions of the physical
`DuckLakeUpdate`. The `i`-th is the update's expression for physical column `i`,
found through `expression_map`; after them come the partition values. Planning
the copy, the delete and the insert is the catalog's and is left out. -/
namespace DuckLake

/-- Modelled from the spec: `DuckLakeTransformType`, the kinds of partition
transform. -/
inductive DuckLakeTransformType where
  | identity
  | year
  | month
  | day
  | hour
  deriving DecidableEq, Repr

/-- Modelled from the spec: `DuckLakePartitionField`, the column it reads and
its transform. -/
structure DuckLakePartitionField where
  partitionKeyIndex : Nat
  transform : DuckLakeTransformType
  deriving DecidableEq, Repr

/-- `GetPartitionExpressionForUpdate`. The scalar functions are bound by name
on the partition column, whose type they take; a failure of that binding is
left out. -/
def getPartitionExpressionForUpdate (columnReference : Expression)
    (field : DuckLakePartitionField) : Expression :=
  match field.transform with
  | .identity => columnReference
  | .year => .function "year" columnReference
  | .month => .function "month" columnReference
  | .day => .function "day" columnReference
  | .hour => .function "hour" columnReference

/-- Modelled from the spec: the partition value a transform derives from a
column's value. `IDENTITY` passes the value through; `YEAR`, `MONTH`, `DAY` and
`HOUR` apply the calendar extraction of that name. -/
def partitionTransform : DuckLakeTransformType → Expression → Expression
  | .identity, value => value
  | .year, value => .function "year" value
  | .month, value => .function "month" value
  | .day, value => .function "day" value
  | .hour, value => .function "hour" value

/-- `Expression::Cast<BoundReferenceExpression>`: the reference's index. -/
def Expression.castBoundReference : Expression → Except Exception Nat
  | .reference index => .ok index
  | _ => .error (.internal "Failed to cast expression to type - expression type mismatch")

/-- The loop that fills `expression_map`: `expression_map[columns[i]] = i`, for
`i` from `start`. A later entry for one key overwrites an earlier one. -/
def fillExpressionMap : List Nat → Nat → (Nat → Nat) → Nat → Nat
  | [], _, m => m
  | c :: cs, i, m => fillExpressionMap cs (i + 1) (Function.update m c i)

/-- `expression_map` as `operator[]` reads it: a missing key reads `0`. -/
def expressionMap (columns : List Nat) : Nat → Nat := fillExpressionMap columns 0 fun _ => 0

/-- The partition loop of `PlanUpdate`: for each field, the expression at its
key is cast to a reference, and the transform of a copy of that reference is
appended. -/
def addPartitionExpressions (expressions : List Expression) :
    List DuckLakePartitionField → Except Exception (List Expression)
  | [] => .ok expressions
  | field :: fields => do
    let childExpression ← vectorAt expressions field.partitionKeyIndex
    let index ← childExpression.castBoundReference
    addPartitionExpressions
      (expressions ++ [getPartitionExpressionForUpdate (.reference index) field]) fields

/-- `DuckLakeCatalog::PlanUpdate`: the expressions of the planned operator,
given the table's partition spec. -/
def planUpdate (op : LogicalUpdate) (partitionData : Option (List DuckLakePartitionField)) :
    Except Exception (List Expression) := do
  if op.returnChunk then
    throw (.binder "RETURNING clause not yet supported for updates of a DuckLake table")
  if op.expressions.any (· == .valueDefault) then
    throw (.binder "SET DEFAULT is not yet supported for updates of a DuckLake table")
  let expressionMap := expressionMap op.columns
  let expressions ← (List.range op.columns.length).mapM fun i =>
    vectorAt op.expressions (expressionMap i)
  match partitionData with
  | some fields => addPartitionExpressions expressions fields
  | none => return expressions

/-- The update's expression for physical column `i`: the one aligned with it. -/
def LogicalUpdate.expressionOf (op : LogicalUpdate) (i : Nat) : Option Expression :=
  op.expressions[op.columns.indexOf i]?

/-! ### The expressions of physical columns -/

theorem fillExpressionMap_of_nodup {cs : List Nat} (h : cs.Nodup) (i : Nat) (m : Nat → Nat)
    (c : Nat) : fillExpressionMap cs i m c = if c ∈ cs then i + cs.indexOf c else m c := by
  induction cs generalizing i m with
  | nil => simp [fillExpressionMap]
  | cons c' cs ih =>
    obtain ⟨hc', hcs⟩ := List.nodup_cons.mp h
    rw [fillExpressionMap, ih hcs]
    by_cases hc : c = c'
    · subst hc
      simp [hc', List.indexOf_cons_self]
    · by_cases hm : c ∈ cs
      · simp only [hm, if_true, List.mem_cons, or_true, List.indexOf_cons_ne _ (Ne.symm hc)]
        omega
      · simp [hm, hc, Function.update_noteq hc]

/-- On distinct columns, `expression_map` inverts the column list. -/
theorem expressionMap_of_mem {columns : List Nat} (h : columns.Nodup) {i : Nat}
    (hi : i ∈ columns) : expressionMap columns i = columns.indexOf i := by
  rw [expressionMap, fillExpressionMap_of_nodup h, if_pos hi, Nat.zero_add]

theorem LogicalUpdate.expressionOf_of_lt {op : LogicalUpdate} {i : Nat}
    (h : op.columns.indexOf i < op.expressions.length) :
    op.expressionOf i = some op.expressions[op.columns.indexOf i] :=
  List.getElem?_eq_getElem h

section

variable {k : Nat} {op : LogicalUpdate}

/-- Every column `i < k` of columns that permute `0..k-1`, aligned with the
expressions, has an expression. -/
theorem indexOf_lt_of_perm (hperm : op.columns.Perm (List.range k))
    (haligned : op.expressions.length = op.columns.length) {i : Nat} (hi : i < k) :
    op.columns.indexOf i < op.expressions.length :=
  haligned ▸ List.indexOf_lt_length.mpr (hperm.mem_iff.mpr (List.mem_range.mpr hi))

/-- The first loop of `PlanUpdate`, when the update's columns are a
permutation of `0..k-1` aligned with its expressions: entry `i` is the
expression of column `i`. -/
theorem mapM_expressionMap (hperm : op.columns.Perm (List.range k))
    (haligned : op.expressions.length = op.columns.length) :
    (List.range op.columns.length).mapM (fun i => vectorAt op.expressions (expressionMap op.columns i)) =
      .ok ((List.range k).map fun i => (op.expressionOf i).getD .valueDefault) := by
  rw [hperm.length_eq, List.length_range]
  refine mapM_except_ok fun i hi => ?_
  have hlt := indexOf_lt_of_perm hperm haligned (List.mem_range.mp hi)
  rw [expressionMap_of_mem (hperm.nodup_iff.mpr (List.nodup_range k)) (hperm.mem_iff.mpr hi),
    vectorAt_of_lt hlt, LogicalUpdate.expressionOf_of_lt hlt]
  rfl

/-- The partition loop, on expressions that start with `base`: each field whose
key is a reference of `base` appends its transform of that reference. -/
theorem addPartitionExpressions_eq {base : List Expression}
    {fields : List DuckLakePartitionField}
    (hkeys : ∀ f ∈ fields, ∃ index, base[f.partitionKeyIndex]? = some (.reference index))
    (extra : List Expression) :
    addPartitionExpressions (base ++ extra) fields =
      .ok (base ++ extra ++ fields.map fun f =>
        getPartitionExpressionForUpdate ((base[f.partitionKeyIndex]?).getD .valueDefault) f) := by
  induction fields generalizing extra with
  | nil => simp [addPartitionExpressions]
  | cons f fields ih =>
    obtain ⟨index, hindex⟩ := hkeys f (List.mem_cons_self f fields)
    have hlt := (List.getElem?_eq_some_iff.mp hindex).1
    have hat : vectorAt (base ++ extra) f.partitionKeyIndex = .ok (.reference index) := by
      rw [vectorAt_of_lt (by simp; omega), List.getElem_append_left hlt]
      exact congrArg Except.ok (List.getElem?_eq_some_iff.mp hindex).2
    simp only [addPartitionExpressions, hat, bind, Except.bind, Expression.castBoundReference]
    rw [List.append_assoc, ih (fun f hf => hkeys f (List.mem_cons_of_mem _ hf))]
    simp [hindex]

/-- `PlanUpdate` on an update whose columns are a permutation of `0..k-1`
aligned with its expressions, with no `RETURNING` and no `DEFAULT`, and whose
partition keys are columns the update reads through references. Entry `i < k`
is the update's expression for column `i`; after those `k` entries comes, for
each partition field in order, its transform of the entry of its key. -/
theorem planUpdate_spec (k : Nat) (op : LogicalUpdate)
    (partitionData : Option (List DuckLakePartitionField))
    (hperm : op.columns.Perm (List.range k)) (haligned : op.expressions.length = op.columns.length)
    (hreturn : op.returnChunk = false) (hdefault : Expression.valueDefault ∉ op.expressions)
    (hkeys : ∀ f ∈ partitionData.getD [], f.partitionKeyIndex < k ∧
      ∃ index, op.expressionOf f.partitionKeyIndex = some (.reference index)) :
    ∃ es, planUpdate op partitionData = .ok es ∧ es.length = k + (partitionData.getD []).length ∧
      (∀ i < k, es[i]? = op.expressionOf i) ∧
      ∀ j f, (partitionData.getD [])[j]? = some f →
        es[k + j]? = es[f.partitionKeyIndex]?.map (getPartitionExpressionForUpdate · f) := by
  set base := (List.range k).map fun i => (op.expressionOf i).getD .valueDefault with hbase_def
  have hlen : base.length = k := by simp [base]
  have hbase : ∀ i < k, base[i]? = op.expressionOf i := fun i hi => by
    simp [base, List.getElem?_range hi,
      LogicalUpdate.expressionOf_of_lt (indexOf_lt_of_perm hperm haligned hi)]
  set fields := partitionData.getD []
  have hkeys' : ∀ f ∈ fields, ∃ index, base[f.partitionKeyIndex]? = some (.reference index) :=
    fun f hf => by
      obtain ⟨hk, index, hi⟩ := hkeys f hf
      exact ⟨index, (hbase _ hk).trans hi⟩
  have hpart := addPartitionExpressions_eq hkeys' []
  simp only [List.append_nil] at hpart
  have hany : ¬ (op.expressions.any (· == .valueDefault) = true) := by
    simpa [List.any_eq_true] using hdefault
  refine ⟨base ++ fields.map fun f =>
      getPartitionExpressionForUpdate ((base[f.partitionKeyIndex]?).getD .valueDefault) f,
    ?_, by simp [hlen], fun i hi => ?_, fun j f hf => ?_⟩
  · simp only [planUpdate, hreturn, Bool.false_eq_true, if_false, hany,
      mapM_expressionMap hperm haligned, bind, Except.bind, pure, Except.pure]
    cases partitionData with
    | none => simp [fields]
    | some fs => exact hpart
  · rw [List.getElem?_append_left (by omega), hbase i hi]
  · obtain ⟨hk, index, hi⟩ := hkeys f (List.mem_iff_getElem?.mpr ⟨j, hf⟩)
    rw [List.getElem?_append_right (by omega), hlen, Nat.add_sub_cancel_left, List.getElem?_map, hf,
      List.getElem?_append_left (by omega)]
    simp [hbase _ hk, hi]

end

theorem getPartitionExpressionForUpdate_eq (value : Expression) (field : DuckLakePartitionField) :
    getPartitionExpressionForUpdate value field = partitionTransform field.transform value := by
  unfold getPartitionExpressionForUpdate
  cases field.transform <;> rfl

/-- An assigned column keeps its `SET` expression through `BindUpdateConstraints`. -/
theorem expressionOf_of_prefix {update update' : LogicalUpdate}
    (hcols : update.columns <+: update'.columns) (hexprs : update.expressions <+: update'.expressions)
    (haligned : update.expressions.length = update.columns.length) {i : Nat}
    (hi : i ∈ update.columns) : update'.expressionOf i = update.expressionOf i := by
  obtain ⟨rest, hrest⟩ := hcols
  have hlt := haligned ▸ List.indexOf_lt_length.mpr hi
  rw [LogicalUpdate.expressionOf_of_lt hlt, LogicalUpdate.expressionOf, ← hrest,
    List.indexOf_append_of_mem hi, getElem?_of_prefix hexprs (List.getElem?_eq_getElem hlt)]

/-- The update's expressions are aligned with the physical columns, from the
binder to the physical plan. Take a `SET` list of distinct columns below `k`,
aligned with its expressions, each a column of the projection below the update,
and no `RETURNING`. After `BindUpdateConstraints`, the columns are a permutation
of `0..k-1` that extends the `SET` list, with their expressions aligned, an
assigned column keeps its `SET` expression and every other column is passed
through a new projection slot. Once the column bindings are resolved to
references of the child's chunk, `PlanUpdate` puts at entry `i < k` the resolved
expression of column `i`, and after them, for each partition field in order,
its transform, as the spec names it, of the reference the entry of its key
reads. -/
theorem update_expressions_aligned (k : Nat) (get : LogicalGet) (proj : LogicalProjection)
    (update : LogicalUpdate) (resolve : Expression → Expression)
    (partitionData : Option (List DuckLakePartitionField))
    (hnodup : update.columns.Nodup) (hlt : ∀ c ∈ update.columns, c < k)
    (haligned : update.expressions.length = update.columns.length)
    (hrefs : ∀ e ∈ update.expressions, ∃ t c, e = .columnRef t c) (hreturn : update.returnChunk = false)
    (hresolve : ∀ t c, ∃ index, resolve (.columnRef t c) = .reference index)
    (hkeys : ∀ f ∈ partitionData.getD [], f.partitionKeyIndex < k) :
    let b := bindUpdateConstraints (List.range k) get proj update
    b.update.columns.Perm (List.range k) ∧ update.columns <+: b.update.columns ∧
      b.update.expressions.length = b.update.columns.length ∧
      (∀ i ∈ update.columns, b.update.expressionOf i = update.expressionOf i) ∧
      (∀ i < k, i ∉ update.columns →
        PassThrough b proj.expressions.length (b.update.columns.indexOf i)) ∧
      ∃ es, planUpdate { b.update with expressions := b.update.expressions.map resolve }
          partitionData = .ok es ∧ es.length = k + (partitionData.getD []).length ∧
        (∀ i < k, es[i]? = (b.update.expressionOf i).map resolve) ∧
        ∀ j f, (partitionData.getD [])[j]? = some f → ∃ index,
          es[f.partitionKeyIndex]? = some (.reference index) ∧
            es[k + j]? = some (partitionTransform f.transform (.reference index)) := by
  intro b
  obtain ⟨hperm, hcols, hexprs, hlen, hpass⟩ :=
    bindUpdateConstraints_spec k get proj update hnodup hlt haligned
  obtain ⟨hret, hrefs'⟩ := foldl_bindColumn_shape (List.range k)
    (b := ⟨get, proj, { update with updateIsDelAndInsert := true }⟩) hrefs
  set planned : LogicalUpdate := { b.update with expressions := b.update.expressions.map resolve }
  have hexpr : ∀ i < k, planned.expressionOf i = (b.update.expressionOf i).map resolve :=
    fun i _ => List.getElem?_map _ _ _
  have href : ∀ i < k, ∃ index, planned.expressionOf i = some (.reference index) := fun i hi => by
    have hlt' := indexOf_lt_of_perm hperm hlen hi
    obtain ⟨t, c, he⟩ := hrefs' _ (List.getElem_mem hlt')
    obtain ⟨index, hindex⟩ := hresolve t c
    exact ⟨index, by rw [hexpr i hi, LogicalUpdate.expressionOf_of_lt hlt', he, Option.map_some', hindex]⟩
  have hdefault : Expression.valueDefault ∉ planned.expressions := fun hmem => by
    obtain ⟨e, he, hde⟩ := List.mem_map.mp hmem
    obtain ⟨t, c, rfl⟩ := hrefs' e he
    obtain ⟨index, hindex⟩ := hresolve t c
    exact nomatch hindex.symm.trans hde
  obtain ⟨es, hes, hlen', hentries, hparts⟩ := planUpdate_spec k planned partitionData hperm
    (by simp [planned, hlen]) (hret.trans hreturn) hdefault
    fun f hf => ⟨hkeys f hf, href _ (hkeys f hf)⟩
  refine ⟨hperm, hcols, hlen, fun i hi => expressionOf_of_prefix hcols hexprs haligned hi,
    fun i hi hni => ?_, es, hes, hlen', fun i hi => (hentries i hi).trans (hexpr i hi),
    fun j f hf => ?_⟩
  · have hidx : b.update.columns.indexOf i < k :=
      (indexOf_lt_of_perm hperm hlen hi).trans_eq (by rw [hlen, hperm.length_eq, List.length_range])
    refine hpass _ ?_ hidx
    obtain ⟨rest, hrest⟩ := hcols
    have hsplit : b.update.columns = update.columns ++ rest := hrest.symm
    rw [hsplit, List.indexOf_append_of_not_mem hni]
    exact Nat.le_add_right _ _
  · have hk := hkeys f (List.mem_iff_getElem?.mpr ⟨j, hf⟩)
    obtain ⟨index, hindex⟩ := href _ hk
    have hkey : es[f.partitionKeyIndex]? = some (.reference index) := (hentries _ hk).trans hindex
    refine ⟨index, hkey, ?_⟩
    rw [hparts j f hf, hkey, Option.map_some', getPartitionExpressionForUpdate_eq]

theorem update_expressions_aligned_three_columns :
    ([1] : List Nat).Nodup ∧ (∀ c ∈ ([1] : List Nat), c < 3) ∧
    [Expression.columnRef 1 0].length = ([1] : List Nat).length ∧
    (∀ e ∈ [Expression.columnRef 1 0], ∃ t c, e = .columnRef t c) ∧
    (⟨[1], [.columnRef 1 0], false, false⟩ : LogicalUpdate).returnChunk = false ∧
    (∀ t c : Nat, ∃ index, (fun _ => Expression.reference 0) (Expression.columnRef t c) =
      .reference index) ∧
    (∀ f ∈ (some [(⟨2, .year⟩ : DuckLakePartitionField)]).getD [], f.partitionKeyIndex < 3) ∧
    ∃ es, planUpdate { (bindUpdateConstraints (List.range 3) ⟨0, [2]⟩ ⟨1, [.columnRef 0 0]⟩
        ⟨[1], [.columnRef 1 0], false, false⟩).update with
          expressions := (bindUpdateConstraints (List.range 3) ⟨0, [2]⟩ ⟨1, [.columnRef 0 0]⟩
            ⟨[1], [.columnRef 1 0], false, false⟩).update.expressions.map
              fun _ => Expression.reference 0 }
        (some [⟨2, .year⟩]) = .ok es ∧ es.length = 4 :=
  have hkeys : ∀ f ∈ (some [(⟨2, .year⟩ : DuckLakePartitionField)]).getD [],
      f.partitionKeyIndex < 3 := by decide
  have hrefs : ∀ e ∈ [Expression.columnRef 1 0], ∃ t c, e = .columnRef t c :=
    fun _ he => ⟨1, 0, List.mem_singleton.mp he⟩
  have h := update_expressions_aligned 3 ⟨0, [2]⟩ ⟨1, [.columnRef 0 0]⟩
    ⟨[1], [.columnRef 1 0], false, false⟩ (fun _ => Expression.reference 0) (some [⟨2, .year⟩])
    (by decide) (by decide) rfl hrefs rfl (fun _ _ => ⟨0, rfl⟩) hkeys
  let ⟨es, hes, hlen, _⟩ := h.2.2.2.2.2
  ⟨by decide, by decide, rfl, hrefs, rfl, fun _ _ => ⟨0, rfl⟩, hkeys, es, hes, hlen⟩

end DuckLake
