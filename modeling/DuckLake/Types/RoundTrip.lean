import DuckLake.Types.Codec

/-! Round trips of the type codec. `ToString` followed by `FromString` gives
back every type it writes, up to DuckDB's type equality; and every type
`FromString` reads is written back unchanged, except the bare `DECIMAL` that the
table entry `decimal` reads. -/
namespace DuckLake.DuckLakeTypes

open LogicalType

/-! ### Decimals -/

theorem toUInt8_ofNat_toNat (w : UInt8) : (UInt64.ofNat w.toNat).toUInt8 = w := by
  have hw : w.toNat < UInt64.size := Nat.lt_trans w.toBitVec.isLt (by decide)
  simp only [UInt64.toUInt8, UInt64.toNat_ofNat_of_lt hw]
  exact UInt8.eq_of_toBitVec_eq (BitVec.eq_of_toNat_eq (Nat.mod_eq_of_lt w.toBitVec.isLt))

theorem uint8ToString_plain (w : UInt8) : ∀ c ∈ (uint8ToString w).data, IsPlain c := by
  intro c hc
  have h := (isDigit_iff c).mp ((toDigits_spec _).1 c hc)
  refine ⟨?_, ?_, ?_⟩ <;> rintro rfl <;> exact absurd h (by decide)

theorem uint8ToString_ne_nil (w : UInt8) : (uint8ToString w).data ≠ [] := toDigits_ne_nil _

theorem stoull_uint8ToString (w : UInt8) :
    stoull (uint8ToString w).data = .ok (UInt64.ofNat w.toNat) :=
  stoull_toDigits (Nat.lt_trans w.toBitVec.isLt (by decide))

/-- The name `ToString` writes for `DECIMAL(w, s)` reads back as what
`LogicalType::DECIMAL(w, s)` builds. -/
theorem fromString_decimalName (w s : UInt8) :
    fromString (decimalName w s) = LogicalType.decimal w s := by
  have hdata : (decimalName w s).data =
      "decimal(".data ++ ((uint8ToString w).data ++ ',' :: (uint8ToString s).data) ++ [')'] := by
    simp [decimalName]
  have hname : isDecimalName (decimalName w s) = true := by
    simp only [isDecimalName, StringUtil.startsWith, StringUtil.endsWith, hdata,
      List.isPrefixOf_iff_prefix, List.isSuffixOf_iff_suffix, Bool.and_eq_true]
    exact ⟨List.prefix_append _ _, List.suffix_append _ _⟩
  have hmembers : decimalMembers (decimalName w s) =
      (uint8ToString w).data ++ ',' :: (uint8ToString s).data := by
    have hlen : (decimalName w s).length = (decimalName w s).data.length := rfl
    rw [decimalMembers, hlen, hdata, List.append_assoc, @List.drop_left' _ "decimal(".data _ 8 rfl,
      List.take_left']
    simp
  rw [fromString, if_pos hname, hmembers, parseDecimalMembers]
  simp only [splitWithParentheses_pair (uint8ToString_plain w) (uint8ToString_plain s)
    (uint8ToString_ne_nil s), bind, Except.bind, stoull_uint8ToString, toUInt8_ofNat_toNat]

/-- `ToString` of a decimal that `LogicalType::DECIMAL(w, s)` built is its name. -/
theorem toString_decimal {w sc : UInt8} {t : LogicalType} (h : LogicalType.decimal w sc = .ok t) :
    toString t = .ok (decimalName w sc) := by
  obtain ⟨-, hid, hal, hi, -⟩ := decimal_eq_ok_iff.mp h
  have ha : t.hasAlias = false := by simp [hasAlias, hid, hal]
  rw [toString, if_neg (by simp [ha])]
  simp only [hid, getWidth, getScale, hi]
  rfl

/-! ### Base types, `json` and `geometry` -/

theorem decimalInfo_of_ne {t : LogicalType} (h : t.id ≠ .decimal) : t.decimalInfo = none :=
  t.decimalInfo_ok.resolve_right h

theorem not_hasAlias {t : LogicalType} (h : t.hasAlias = false) :
    t.id ≠ .user ∧ t.typeAlias = "" := by
  simpa [hasAlias] using h

/-- The table read in both directions: for every entry but `decimal`, the name
`ToString` writes for its id reads back as that id. -/
theorem toString_table : ∀ e ∈ ducklakeTypes, e.2 ≠ .decimal →
    ((toString (ofId e.2)).toOption.bind fun s => (fromString s).toOption) = some (ofId e.2) := by
  decide

theorem toString_table_roundTrip {e : String × LogicalTypeId} (he : e ∈ ducklakeTypes)
    (hd : e.2 ≠ .decimal) : ∃ s, toString (ofId e.2) = .ok s ∧ fromString s = .ok (ofId e.2) := by
  have hrt := toString_table e he hd
  cases hs : toString (ofId e.2) with
  | error _ => simp [hs, Except.toOption] at hrt
  | ok s =>
    rw [hs] at hrt
    cases hf : fromString s <;> simp_all [Except.toOption]

/-- No table id is aliased or nested. -/
theorem table_ids : ∀ e ∈ ducklakeTypes,
    e.2 ≠ .user ∧ e.2 ≠ .struct ∧ e.2 ≠ .list ∧ e.2 ≠ .map := by
  decide

/-- `ToString` of a plain id that is neither nested nor `DECIMAL` is the table's name for it. -/
theorem toString_ofId {X : LogicalTypeId} (h : X ≠ .user ∧ X ≠ .struct ∧ X ≠ .list ∧ X ≠ .map)
    (hd : X ≠ .decimal) : toString (ofId X) = toStringBaseType (ofId X) := by
  obtain ⟨hu, hs, hl, hm⟩ := h
  have ha : (ofId X).hasAlias = false := by simp [hasAlias, hu]
  rw [toString, if_neg (by simp [ha])]
  split <;> first | rfl | contradiction | simp [getCollation]

theorem fromString_of_toStringBaseType {t : LogicalType} {s : String} (hd : t.id ≠ .decimal)
    (h : toStringBaseType t = .ok s) : fromString s = .ok (ofId t.id) := by
  unfold toStringBaseType at h
  split at h
  · rename_i e he
    cases h
    have hid : e.2 = t.id := by simpa using List.find?_some he
    have hmem := List.mem_of_find?_eq_some he
    obtain ⟨s, hs, hf⟩ := toString_table_roundTrip hmem (hid ▸ hd)
    rw [hid, toString_ofId (hid ▸ table_ids e hmem) hd, toStringBaseType, ofId_id, he] at hs
    cases hs
    exact hid ▸ hf
  · cases h

/-- A type `ToString` writes without an alias reads back as its id alone. -/
theorem fromString_toString_plain {t : LogicalType} {s : String} (ha : t.hasAlias = false)
    (hn : t.id ≠ .struct ∧ t.id ≠ .list ∧ t.id ≠ .map) (h : toString t = .ok s) :
    ∃ u, fromString s = .ok u ∧ u.Equals t ∧ u.collation = "" := by
  obtain ⟨-, hal⟩ := not_hasAlias ha
  simp only [toString, ha, Bool.false_eq_true, if_false] at h
  split at h
  · exact absurd ‹_› hn.1
  · exact absurd ‹_› hn.2.1
  · exact absurd ‹_› hn.2.2
  · rename_i hid
    unfold getWidth getScale at h
    match hi : t.decimalInfo, h with
    | some ⟨w, sc⟩, h =>
      simp only [hi, bind, Except.bind, pure, Except.pure, Except.ok.injEq] at h
      subst h
      obtain ⟨u, hu⟩ := decimal_of_le sc (t.width_ok _ hi)
      obtain ⟨-, hid', hal', hi', hc'⟩ := decimal_eq_ok_iff.mp hu
      exact ⟨u, (fromString_decimalName w sc).trans hu,
        ⟨hid'.trans hid.symm, hal'.trans hal.symm, hi'.trans hi.symm⟩, hc'⟩
  · rename_i hid
    split at h
    · cases h
    · refine ⟨_, fromString_of_toStringBaseType (by simp [hid]) h, ⟨rfl, hal.symm, ?_⟩, rfl⟩
      exact (decimalInfo_of_ne (by simp [hid])).symm
  · rename_i hd _
    exact ⟨_, fromString_of_toStringBaseType hd h, ⟨rfl, hal.symm, (decimalInfo_of_ne hd).symm⟩, rfl⟩

/-- An aliased type that `ToString` writes is `json` or `geometry`, and reads back. -/
theorem fromString_toString_alias {t : LogicalType} {s : String} (ha : t.hasAlias = true)
    (h : toString t = .ok s) :
    ∃ u, fromString s = .ok u ∧ u.Equals t ∧ u.collation = "" := by
  simp only [toString, ha, if_true] at h
  split at h
  · rename_i hj
    simp only [isJSONType, getAlias, Bool.and_eq_true, beq_iff_eq] at hj
    obtain ⟨⟨hid, -⟩, hal⟩ := hj
    cases h
    refine ⟨json, by decide, ⟨hid.symm, hal.symm, ?_⟩, rfl⟩
    exact (decimalInfo_of_ne (by simp [hid])).symm
  · split at h
    · rename_i hg
      simp only [getAlias, Bool.and_eq_true, beq_iff_eq] at hg
      obtain ⟨hal, hid⟩ := hg
      cases h
      refine ⟨geometry, by decide, ⟨hid.symm, hal.symm, ?_⟩, rfl⟩
      exact (decimalInfo_of_ne (by simp [hid])).symm
    · cases h

/-! ### Writing, then reading -/

theorem fromString_toString_any {t : LogicalType} {s : String}
    (hn : t.id ≠ .struct ∧ t.id ≠ .list ∧ t.id ≠ .map) (h : toString t = .ok s) :
    ∃ u, fromString s = .ok u ∧ u.Equals t ∧ u.collation = "" := by
  cases ha : t.hasAlias
  · exact fromString_toString_plain ha hn h
  · exact fromString_toString_alias ha h

/-- Two types `ToString` writes to one name, neither of them nested, agree up
to DuckDB's type equality, and the name reads back as both. -/
theorem fromString_toString_left_inverse {t : LogicalType}
    (hn : t.id ≠ .struct ∧ t.id ≠ .list ∧ t.id ≠ .map) {s : String} (h : toString t = .ok s) :
    (∃ u, fromString s = .ok u ∧ u.Equals t ∧ (t.collation = "" → u = t)) ∧
      ∀ t', t'.id ≠ .struct ∧ t'.id ≠ .list ∧ t'.id ≠ .map → toString t' = .ok s → t'.Equals t := by
  obtain ⟨u, hu, he, hc⟩ := fromString_toString_any hn h
  refine ⟨⟨u, hu, he, eq_of_equals he hc⟩, fun t' hn' h' => ?_⟩
  obtain ⟨u', hu', he', -⟩ := fromString_toString_any hn' h'
  rw [hu] at hu'
  cases hu'
  exact he'.symm.trans he

/-- `FromString` is a left inverse of `ToString` on every type it writes other
than the nested ones, up to DuckDB's type equality. The type read back carries
no collation, so it is the same value when the original carried none, and two
such types written to the same name are equal. `ToString` writes every type of
the table but the bare `DECIMAL`, every `DECIMAL(w, s)` that can be built,
`json` and `geometry`, and each of these reads back as itself. -/
theorem fromString_toString :
    (∀ t : LogicalType, t.id ≠ .struct ∧ t.id ≠ .list ∧ t.id ≠ .map → ∀ s, toString t = .ok s →
      (∃ u, fromString s = .ok u ∧ u.Equals t ∧ (t.collation = "" → u = t)) ∧
        ∀ t', t'.id ≠ .struct ∧ t'.id ≠ .list ∧ t'.id ≠ .map → toString t' = .ok s →
          t'.Equals t) ∧
    (∀ e ∈ ducklakeTypes, e.2 ≠ .decimal →
      ∃ s, toString (ofId e.2) = .ok s ∧ fromString s = .ok (ofId e.2)) ∧
    (∀ w sc t, LogicalType.decimal w sc = .ok t →
      toString t = .ok (decimalName w sc) ∧ fromString (decimalName w sc) = .ok t) ∧
    (toString json = .ok "json" ∧ fromString "json" = .ok json) ∧
    (toString geometry = .ok "geometry" ∧ fromString "geometry" = .ok geometry) :=
  ⟨fun _ hn _ h => fromString_toString_left_inverse hn h,
    fun _ he hd => toString_table_roundTrip he hd,
    fun w sc _ h => ⟨toString_decimal h, (fromString_decimalName w sc).trans h⟩,
    by decide, by decide⟩

/-! ### Reading, then writing -/

theorem parseBaseType_cases {str : String} {t : LogicalType} (h : parseBaseType str = .ok t) :
    (∃ e ∈ ducklakeTypes, t = ofId e.2) ∨ t = json ∨ t = geometry := by
  unfold parseBaseType at h
  split at h
  · rename_i e he
    cases h
    exact .inl ⟨e, List.mem_of_find?_eq_some he, rfl⟩
  · split at h
    · cases h
      exact .inr (.inl rfl)
    · split at h
      · cases h
        exact .inr (.inr rfl)
      · cases h

/-- What `FromString` can return: a decimal that `LogicalType::DECIMAL` built,
the type of a table entry, `json` or `geometry`. -/
theorem fromString_cases {str : String} {t : LogicalType} (h : fromString str = .ok t) :
    (∃ w sc, LogicalType.decimal w sc = .ok t) ∨ (∃ e ∈ ducklakeTypes, t = ofId e.2) ∨ t = json ∨
      t = geometry := by
  unfold fromString at h
  split at h
  · obtain ⟨members, -, h⟩ := bind_eq_ok.mp h
    split at h
    · obtain ⟨_, -, h⟩ := bind_eq_ok.mp h
      obtain ⟨_, -, h⟩ := bind_eq_ok.mp h
      exact .inl ⟨_, _, h⟩
    · cases h
  · exact .inr (parseBaseType_cases h)

/-- Every type `FromString` reads, except the bare `DECIMAL` of the name
`decimal`, is written by `ToString` to a name that reads back as the same type. -/
theorem toString_fromString {str : String} {t : LogicalType} (h : fromString str = .ok t)
    (hbare : t ≠ ofId .decimal) :
    ∃ s, toString t = .ok s ∧ fromString s = .ok t := by
  rcases fromString_cases h with ⟨w, sc, hd⟩ | ⟨e, he, rfl⟩ | rfl | rfl
  · exact ⟨_, toString_decimal hd, (fromString_decimalName w sc).trans hd⟩
  · exact toString_table_roundTrip he fun hd => hbare (by rw [hd])
  · exact ⟨"json", by decide, by decide⟩
  · exact ⟨"geometry", by decide, by decide⟩

theorem toString_fromString_timestamp_us :
    ∃ s, toString (ofId .timestamp) = .ok s ∧ fromString s = .ok (ofId .timestamp) :=
  @toString_fromString "TIMESTAMP_US" (ofId .timestamp) (by decide) (by decide)

/-- The table entry `decimal` reads as a `DECIMAL` without width or scale, and
`ToString` then reads the missing `DecimalTypeInfo`. -/
theorem fromString_decimal_bare :
    fromString "decimal" = .ok (ofId .decimal) ∧
      toString (ofId .decimal) = .error .missingTypeInfo := by
  decide

end DuckLake.DuckLakeTypes
