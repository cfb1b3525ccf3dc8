import DuckLake.Basic

/-! DuckDB's `LogicalType`, as far as the DuckLake type codec reads it: the
type id, the alias, the `DecimalTypeInfo` of a decimal and the collation of a
string type. Equality is DuckDB's `LogicalType::operator==`, which compares the
id and the type info but, for a string type, not its collation. -/
namespace DuckLake

/-- DuckDB's `LogicalTypeId`. -/
inductive LogicalTypeId where
  | invalid | sqlnull | unknown | any | user
  | boolean | tinyint | smallint | integer | bigint | date | time
  | timestampSec | timestampMs | timestamp | timestampNs | decimal
  | float | double | char | varchar | blob | interval
  | utinyint | usmallint | uinteger | ubigint | timestampTz | timeTz
  | bit | stringLiteral | integerLiteral | varint | uhugeint | hugeint
  | pointer | validity | uuid
  | struct | list | map | table | enum | aggregateState | lambda | union | array
  deriving DecidableEq, Repr

/-- DuckDB's `DecimalTypeInfo`: the `uint8_t` width and scale of a `DECIMAL`. -/
structure DecimalTypeInfo where
  width : UInt8
  scale : UInt8
  deriving DecidableEq, Repr

/-- `DecimalType::MaxWidth()`: the width of the widest decimal, stored in an `INT128`. -/
def DecimalType.maxWidth : UInt8 := 38

/-- A DuckDB `LogicalType`. `typeAlias` is empty when the type has no alias.
Only a `DECIMAL` carries a `DecimalTypeInfo`, and `LogicalType(DECIMAL)` builds
one without it; only a `VARCHAR` carries a collation. The constructor computes
the physical type, which raises for a decimal wider than `DecimalType::MaxWidth()`,
so no type that was built carries such a width. -/
structure LogicalType where
  id : LogicalTypeId
  typeAlias : String := ""
  decimalInfo : Option DecimalTypeInfo := none
  collation : String := ""
  decimalInfo_ok : decimalInfo = none ∨ id = .decimal := by decide
  collation_ok : collation = "" ∨ id = .varchar := by decide
  width_ok : ∀ info ∈ decimalInfo, info.width ≤ DecimalType.maxWidth := by decide
  deriving DecidableEq

namespace LogicalType

/-- `LogicalType(LogicalTypeId id)`: a type with no type info. -/
def ofId (id : LogicalTypeId) : LogicalType :=
  ⟨id, "", none, "", .inl rfl, .inl rfl, nofun⟩

/-- `LogicalType::DECIMAL(width, scale)`. Its constructor's `GetInternalType`
raises for a width past `DecimalType::MaxWidth()`. The `D_ASSERT(width >= scale)`
of DuckDB's debug builds is not part of release builds and is left out. -/
def decimal (width scale : UInt8) : Except Exception LogicalType :=
  if h : width ≤ DecimalType.maxWidth then
    .ok ⟨.decimal, "", some ⟨width, scale⟩, "", .inr rfl, .inl rfl, fun _ hi => by cases hi; exact h⟩
  else
    .error (.internal ("Decimal has a width of " ++ toString width ++
      " which is bigger than the maximum supported width of " ++ toString DecimalType.maxWidth))

/-- `LogicalType::SetAlias`: the type info is copied and its alias replaced. -/
def setAlias (t : LogicalType) (name : String) : LogicalType :=
  { t with typeAlias := name }

/-- `LogicalType::JSON()`: a `VARCHAR` aliased `JSON`. -/
def json : LogicalType := (ofId .varchar).setAlias "JSON"

/-- `LogicalType::HasAlias`: a `USER` type always counts as aliased. -/
def hasAlias (t : LogicalType) : Bool :=
  t.id == .user || t.typeAlias != ""

/-- `LogicalType::GetAlias`. For a `USER` type DuckDB returns the user type
name instead; the codec only compares the alias together with `id = BLOB`. -/
def getAlias (t : LogicalType) : String := t.typeAlias

/-- `LogicalType::IsJSONType`. -/
def isJSONType (t : LogicalType) : Bool :=
  t.id == .varchar && t.hasAlias && t.getAlias == "JSON"

/-- `DecimalType::GetWidth`. -/
def getWidth (t : LogicalType) : Except Exception UInt8 :=
  match t.decimalInfo with
  | some info => .ok info.width
  | none => .error .missingTypeInfo

/-- `DecimalType::GetScale`. -/
def getScale (t : LogicalType) : Except Exception UInt8 :=
  match t.decimalInfo with
  | some info => .ok info.scale
  | none => .error .missingTypeInfo

/-- `StringType::GetCollation`: empty for every type but `VARCHAR`. -/
def getCollation (t : LogicalType) : String :=
  if t.id = .varchar then t.collation else ""

/-- `LogicalType::operator==`: the ids and the type infos agree. A string type
info compares only its alias: its collation has no impact on equality. -/
def Equals (a b : LogicalType) : Prop :=
  a.id = b.id ∧ a.typeAlias = b.typeAlias ∧ a.decimalInfo = b.decimalInfo

instance (a b : LogicalType) : Decidable (Equals a b) :=
  inferInstanceAs (Decidable (_ ∧ _ ∧ _))

theorem Equals.refl (t : LogicalType) : Equals t t := ⟨rfl, rfl, rfl⟩

theorem Equals.symm {a b : LogicalType} (h : Equals a b) : Equals b a :=
  ⟨h.1.symm, h.2.1.symm, h.2.2.symm⟩

theorem Equals.trans {a b c : LogicalType} (h : Equals a b) (h' : Equals b c) : Equals a c :=
  ⟨h.1.trans h'.1, h.2.1.trans h'.2.1, h.2.2.trans h'.2.2⟩

/-- Two types that agree up to DuckDB's equality and carry no collation are
the same value. -/
theorem eq_of_equals {a b : LogicalType} (h : Equals a b)
    (ha : a.collation = "") (hb : b.collation = "") : a = b := by
  obtain ⟨id, al, di, co⟩ := a
  obtain ⟨id', al', di', co'⟩ := b
  obtain ⟨rfl, rfl, rfl⟩ := h
  cases ha
  cases hb
  rfl

@[simp] theorem ofId_id (id : LogicalTypeId) : (ofId id).id = id := rfl
@[simp] theorem ofId_typeAlias (id : LogicalTypeId) : (ofId id).typeAlias = "" := rfl
@[simp] theorem ofId_decimalInfo (id : LogicalTypeId) : (ofId id).decimalInfo = none := rfl
@[simp] theorem ofId_collation (id : LogicalTypeId) : (ofId id).collation = "" := rfl

/-- `LogicalType::DECIMAL(w, s)` returns exactly when `w` is at most 38, and
then it returns the unaliased `DECIMAL` whose type info is `(w, s)`. -/
theorem decimal_eq_ok_iff {w s : UInt8} {t : LogicalType} :
    decimal w s = .ok t ↔ w ≤ DecimalType.maxWidth ∧ t.id = .decimal ∧ t.typeAlias = "" ∧
      t.decimalInfo = some ⟨w, s⟩ ∧ t.collation = "" := by
  unfold decimal
  split
  · constructor
    · rintro ⟨⟩
      exact ⟨‹_›, rfl, rfl, rfl, rfl⟩
    · rintro ⟨-, h₁, h₂, h₃, h₄⟩
      obtain ⟨id, al, di, co⟩ := t
      cases h₁; cases h₂; cases h₃; cases h₄
      rfl
  · exact iff_of_false nofun fun h => ‹¬_› h.1

theorem decimal_of_le {w : UInt8} (s : UInt8) (h : w ≤ DecimalType.maxWidth) :
    ∃ t, decimal w s = .ok t :=
  ⟨_, dif_pos h⟩

@[simp] theorem setAlias_id (t : LogicalType) (n : String) : (t.setAlias n).id = t.id := rfl
@[simp] theorem setAlias_typeAlias (t : LogicalType) (n : String) :
    (t.setAlias n).typeAlias = n := rfl
@[simp] theorem setAlias_decimalInfo (t : LogicalType) (n : String) :
    (t.setAlias n).decimalInfo = t.decimalInfo := rfl
@[simp] theorem setAlias_collation (t : LogicalType) (n : String) :
    (t.setAlias n).collation = t.collation := rfl

end LogicalType

end DuckLake
