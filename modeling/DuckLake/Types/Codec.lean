import DuckLake.Types.LogicalType
import DuckLake.StringUtil

/-! The DuckLake type codec, `DuckLakeTypes`: the table `DUCKLAKE_TYPES` of
base type names, `FromString`, which reads a type name from the catalog, and
`ToString`, which writes one. Both search the table from its first entry. -/
namespace DuckLake.DuckLakeTypes

open LogicalType

/-- `DUCKLAKE_TYPES`. Two names read as `TIMESTAMP`; `decimal` has an entry of
its own, which `ToString` never reaches. -/
def ducklakeTypes : List (String × LogicalTypeId) :=
  [("boolean", .boolean), ("int8", .tinyint), ("int16", .smallint), ("int32", .integer),
   ("int64", .bigint), ("int128", .hugeint), ("uint8", .utinyint), ("uint16", .usmallint),
   ("uint32", .uinteger), ("uint64", .ubigint), ("uint128", .uhugeint), ("float32", .float),
   ("float64", .double), ("decimal", .decimal), ("time", .time), ("date", .date),
   ("timestamp", .timestamp), ("timestamp_us", .timestamp), ("timestamp_ms", .timestampMs),
   ("timestamp_ns", .timestampNs), ("timestamp_s", .timestampSec),
   ("timestamptz", .timestampTz), ("timetz", .timeTz), ("interval", .interval),
   ("varchar", .varchar), ("blob", .blob), ("uuid", .uuid)]

/-- The type `ParseBaseType` builds for `geometry`: a `BLOB` aliased `GEOMETRY`. -/
def geometry : LogicalType := (ofId .blob).setAlias "GEOMETRY"

/-- `ParseBaseType`: the first table entry whose name matches without regard
to case, then `json` and `geometry`. -/
def parseBaseType (str : String) : Except Exception LogicalType :=
  match ducklakeTypes.find? (fun e => StringUtil.ciEquals str e.1) with
  | some e => .ok (ofId e.2)
  | none =>
    if StringUtil.ciEquals str "json" then .ok json
    else if StringUtil.ciEquals str "geometry" then .ok geometry
    else .error (.invalidInput ("Failed to parse DuckLake type - unsupported type '" ++ str ++ "'"))

/-- `ToStringBaseType`: the name of the first table entry with the type's id.
DuckDB's printed form of the type, which ends the message, is left out. -/
def toStringBaseType (type : LogicalType) : Except Exception String :=
  match ducklakeTypes.find? (fun e => e.2 == type.id) with
  | some e => .ok e.1
  | none => .error (.invalidInput "Failed to convert DuckDB type to DuckLake - unsupported type")

/-- The test that sends a name down the decimal branch of `FromString`. -/
def isDecimalName (type : String) : Bool :=
  StringUtil.startsWith type "decimal(" && StringUtil.endsWith type ")"

/-- `decimal_members_str`: `type.substr(8, type.size() - 9)`. -/
def decimalMembers (type : String) : List Char := (type.data.drop 8).take (type.length - 9)

/-- The decimal branch of `FromString` after `substr`: the members are split,
each read by `std::stoull` and narrowed to `uint8_t`, and `LogicalType::DECIMAL`
checks the width. -/
def parseDecimalMembers (decimalMembersStr : List Char) : Except Exception LogicalType := do
  let decimalMembersVect ← StringUtil.splitWithParentheses decimalMembersStr
  match decimalMembersVect with
  | [widthStr, scaleStr] =>
    let width ← stoull widthStr
    let scale ← stoull scaleStr
    LogicalType.decimal width.toUInt8 scale.toUInt8
  | _ => throw (.notImplemented "Invalid DECIMAL type - expected width and scale")

/-- `DuckLakeTypes::FromString`. -/
def fromString (type : String) : Except Exception LogicalType :=
  if isDecimalName type then parseDecimalMembers (decimalMembers type)
  else parseBaseType type

/-- The name `ToString` writes for a `DECIMAL(width, scale)`. -/
def decimalName (width scale : UInt8) : String :=
  "decimal(" ++ uint8ToString width ++ "," ++ uint8ToString scale ++ ")"

/-- `DuckLakeTypes::ToString`. -/
def toString (type : LogicalType) : Except Exception String :=
  if type.hasAlias then
    if type.isJSONType then .ok "json"
    else if type.getAlias == "GEOMETRY" && type.id == .blob then .ok "geometry"
    else .error (.invalidInput "Unsupported user-defined type")
  else
    match type.id with
    | .struct => .ok "struct"
    | .list => .ok "list"
    | .map => .ok "map"
    | .decimal => do
      let width ← type.getWidth
      let scale ← type.getScale
      return decimalName width scale
    | .varchar =>
      if type.getCollation ≠ "" then
        .error (.invalidInput "Collations are not supported in DuckLake storage")
      else toStringBaseType type
    | _ => toStringBaseType type

end DuckLake.DuckLakeTypes
