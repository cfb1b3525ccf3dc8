import DuckLake.StringUtil
import Mathlib.Data.String.Basic

/-! Binding `ducklake_cleanup_old_files` and `ducklake_delete_orphaned_files`:
`CleanupBind` finds the catalog, reads the named parameters, checks that one
cutoff is chosen, builds the SQL filter with `GetFilter` and asks the metadata
manager for the files it selects. The catalog lookup, the formatting of a
timestamp and the metadata query are DuckDB's and are taken as parameters. -/
namespace DuckLake

/-- `CleanupType`. -/
inductive CleanupType where
  | oldFiles
  | orphanedFiles
  deriving DecidableEq, Repr

/-- A named parameter's value, after DuckDB's binder has cast it to the type
the function declares for it: `BOOLEAN` or `TIMESTAMP WITH TIME ZONE`. -/
inductive Value where
  | null
  | boolean (value : Bool)
  | timestampTz (micros : Int)
  deriving DecidableEq, Repr

/-- `Value::GetValue<timestamp_tz_t>`. After the binder's cast only `NULL`
fails here. -/
def Value.getTimestampTz : Value → Except Exception Int
  | .timestampTz micros => .ok micros
  | _ => .error (.internal "Calling GetValue on a value that is NULL")

/-- `DuckLakeFileForCleanup`; only its path is read here. -/
structure DuckLakeFileForCleanup where
  path : String
  deriving DecidableEq, Repr

/-- `CleanupBindData`. -/
structure CleanupBindData where
  type : CleanupType
  files : List DuckLakeFileForCleanup := []
  dryRun : Bool := false
  defaultInterval : Bool := false
  timestampFilter : String := ""
  deriving DecidableEq, Repr

namespace CleanupBindData

/-- `CleanupBindData::GetFunctionName`. -/
def getFunctionName : CleanupType → String
  | .oldFiles => "ducklake_cleanup_old_files"
  | .orphanedFiles => "ducklake_delete_orphaned_files"

/-- `CleanupBindData::GetFilter`. A filter from a default interval is written
without the quotes, since it carries its own. -/
def getFilter (data : CleanupBindData) : String :=
  if data.timestampFilter = "" then ""
  else
    let quote := if !data.defaultInterval then "'" else ""
    match data.type with
    | .oldFiles => "WHERE schedule_start < '" ++ data.timestampFilter ++ "'"
    | .orphanedFiles => " AND last_modified < " ++ quote ++ data.timestampFilter ++ quote

end CleanupBindData

/-- What the loop over the named parameters of `CleanupBind` collects:
`dry_run` and `cleanup_all` are set by the parameter's presence alone;
`older_than` keeps its value. -/
structure NamedParameterFlags where
  dryRun : Bool := false
  cleanupAll : Bool := false
  fromTimestamp : Option Int := none
  deriving DecidableEq, Repr

/-- The loop over `input.named_parameters` in `CleanupBind`. -/
def readNamedParameters (type : CleanupType) :
    List (String × Value) → NamedParameterFlags → Except Exception NamedParameterFlags
  | [], flags => .ok flags
  | (name, value) :: rest, flags =>
    if StringUtil.ciEquals name "dry_run" then
      readNamedParameters type rest { flags with dryRun := true }
    else if StringUtil.ciEquals name "cleanup_all" then
      readNamedParameters type rest { flags with cleanupAll := true }
    else if StringUtil.ciEquals name "older_than" then do
      let micros ← value.getTimestampTz
      readNamedParameters type rest { flags with fromTimestamp := some micros }
    else .error (.internal ("Unsupported named parameter for " ++
      CleanupBindData.getFunctionName type))

/-- Whether a named parameter of this name, in any case, is given. -/
def hasParameter (namedParameters : List (String × Value)) (name : String) : Bool :=
  namedParameters.any fun e => StringUtil.ciEquals e.1 name

theorem ciEquals_congr_left {n a : String} (b : String) (h : StringUtil.ciEquals n a = true) :
    StringUtil.ciEquals n b = StringUtil.ciEquals a b := by
  simp only [StringUtil.ciEquals, beq_iff_eq] at h ⊢
  rw [h]

theorem ciEquals_parameterNames :
    StringUtil.ciEquals "dry_run" "dry_run" = true ∧
      StringUtil.ciEquals "dry_run" "cleanup_all" = false ∧
      StringUtil.ciEquals "dry_run" "older_than" = false ∧
      StringUtil.ciEquals "cleanup_all" "dry_run" = false ∧
      StringUtil.ciEquals "cleanup_all" "cleanup_all" = true ∧
      StringUtil.ciEquals "cleanup_all" "older_than" = false ∧
      StringUtil.ciEquals "older_than" "dry_run" = false ∧
      StringUtil.ciEquals "older_than" "cleanup_all" = false ∧
      StringUtil.ciEquals "older_than" "older_than" = true := by
  decide

/-- What the loop collects: each flag is set once a parameter of its name is
given, whatever its value. -/
theorem readNamedParameters_flags {type : CleanupType} {namedParameters : List (String × Value)}
    {flags flags' : NamedParameterFlags}
    (h : readNamedParameters type namedParameters flags = .ok flags') :
    flags'.dryRun = (flags.dryRun || hasParameter namedParameters "dry_run") ∧
      flags'.cleanupAll = (flags.cleanupAll || hasParameter namedParameters "cleanup_all") ∧
      flags'.fromTimestamp.isSome =
        (flags.fromTimestamp.isSome || hasParameter namedParameters "older_than") := by
  induction namedParameters generalizing flags with
  | nil =>
    cases h
    simp [hasParameter]
  | cons e rest ih =>
    obtain ⟨name, value⟩ := e
    simp only [readNamedParameters] at h
    simp only [hasParameter, List.any_cons] at ih ⊢
    by_cases hd : StringUtil.ciEquals name "dry_run"
    · rw [if_pos hd] at h
      simp only [ciEquals_congr_left _ hd, hd, ciEquals_parameterNames] at ih ⊢
      simpa using ih h
    rw [if_neg hd] at h
    by_cases hc : StringUtil.ciEquals name "cleanup_all"
    · rw [if_pos hc] at h
      simp only [ciEquals_congr_left _ hc, hc, Bool.not_eq_true, ciEquals_parameterNames] at ih hd ⊢
      simpa [hd] using ih h
    rw [if_neg hc] at h
    by_cases ho : StringUtil.ciEquals name "older_than"
    · rw [if_pos ho] at h
      simp only [Bool.not_eq_true] at hd hc
      cases hv : value.getTimestampTz with
      | error _ => simp [hv, bind, Except.bind] at h
      | ok micros =>
        simp only [hv, bind, Except.bind] at h
        simp only [ciEquals_congr_left _ ho, hd, hc, ho, ciEquals_parameterNames] at ih ⊢
        simpa using ih h
    · rw [if_neg ho] at h
      cases h

/-- What the loop of `CleanupBind` raises at one named parameter, or `none`:
it raises at an `older_than` whose value is `NULL` and at a name that is none
of the three. -/
def parameterRaised (type : CleanupType) (entry : String × Value) : Option Exception :=
  if StringUtil.ciEquals entry.1 "dry_run" then none
  else if StringUtil.ciEquals entry.1 "cleanup_all" then none
  else if StringUtil.ciEquals entry.1 "older_than" then
    match entry.2.getTimestampTz with
    | .ok _ => none
    | .error e => some e
  else some (.internal ("Unsupported named parameter for " ++ CleanupBindData.getFunctionName type))

theorem readNamedParameters_of_raised {type : CleanupType} {entry : String × Value}
    {e : Exception} (h : parameterRaised type entry = some e) (rest : List (String × Value))
    (flags : NamedParameterFlags) :
    readNamedParameters type (entry :: rest) flags = .error e := by
  obtain ⟨name, value⟩ := entry
  unfold parameterRaised at h
  rw [readNamedParameters]
  by_cases hd : StringUtil.ciEquals name "dry_run"
  · rw [if_pos hd] at h
    cases h
  rw [if_neg hd] at h ⊢
  by_cases hc : StringUtil.ciEquals name "cleanup_all"
  · rw [if_pos hc] at h
    cases h
  rw [if_neg hc] at h ⊢
  by_cases ho : StringUtil.ciEquals name "older_than"
  · rw [if_pos ho] at h ⊢
    cases hv : value.getTimestampTz with
    | ok _ => rw [hv] at h; cases h
    | error e' =>
      rw [hv] at h
      cases h
      rfl
  · rw [if_neg ho] at h ⊢
    cases h
    rfl

theorem readNamedParameters_of_not_raised {type : CleanupType} {entry : String × Value}
    (h : parameterRaised type entry = none) (rest : List (String × Value))
    (flags : NamedParameterFlags) :
    ∃ flags', readNamedParameters type (entry :: rest) flags = readNamedParameters type rest flags' := by
  obtain ⟨name, value⟩ := entry
  unfold parameterRaised at h
  rw [readNamedParameters]
  by_cases hd : StringUtil.ciEquals name "dry_run"
  · rw [if_pos hd]
    exact ⟨_, rfl⟩
  rw [if_neg hd] at h ⊢
  by_cases hc : StringUtil.ciEquals name "cleanup_all"
  · rw [if_pos hc]
    exact ⟨_, rfl⟩
  rw [if_neg hc] at h ⊢
  by_cases ho : StringUtil.ciEquals name "older_than"
  · rw [if_pos ho] at h ⊢
    cases hv : value.getTimestampTz with
    | ok micros => exact ⟨_, rfl⟩
    | error e => rw [hv] at h; cases h
  · rw [if_neg ho] at h
    cases h

/-- The loop over the named parameters raises exactly at its first parameter
that raises, with what that parameter raises: a later parameter is never read
once one fails. -/
theorem readNamedParameters_eq_error_iff (type : CleanupType)
    (namedParameters : List (String × Value)) (flags : NamedParameterFlags) (e : Exception) :
    readNamedParameters type namedParameters flags = .error e ↔
      ∃ pre entry post, namedParameters = pre ++ entry :: post ∧
        (∀ entry' ∈ pre, parameterRaised type entry' = none) ∧ parameterRaised type entry = some e :=
  raises_iff_first (parameterRaised type) (readNamedParameters type) (fun _ _ h => by cases h)
    (fun _ rest flags _ h => readNamedParameters_of_raised h rest flags)
    (fun _ rest flags h => readNamedParameters_of_not_raised h rest flags) namedParameters flags e

/-- The cutoff check of `CleanupBind`, read as a condition on the two flags. -/
theorem cutoffCheck_iff (cleanupAll hasTimestamp : Bool) (olderThanDefault : String) :
    ((cleanupAll == hasTimestamp && cleanupAll == true) ||
        (cleanupAll == hasTimestamp && cleanupAll == false && olderThanDefault.isEmpty)) = true ↔
      cleanupAll = hasTimestamp ∧ (cleanupAll = true ∨ olderThanDefault = "") := by
  cases cleanupAll <;> cases hasTimestamp <;> simp [String.isEmpty_iff]

section

-- DuckDB's `Timestamp::ToString`; the outcome of `BaseMetadataFunction::GetCatalog`,
-- which raises when the argument names no DuckLake catalog; and the metadata
-- manager's `GetFilesForCleanup(filter, type, separator)`, a query of the
-- catalog database that raises when the database rejects it.
variable (timestampToString : Int → String) (getCatalog : Except Exception Unit)
  (getFilesForCleanup : String → CleanupType → Except Exception (List DuckLakeFileForCleanup))

/-- `CleanupBind` up to its metadata query: the catalog, the loop over the
named parameters, the cutoff check and the cutoff. -/
def cleanupBindData (namedParameters : List (String × Value)) (type : CleanupType)
    (olderThanDefault : String := "") : Except Exception CleanupBindData := do
  getCatalog
  let flags ← readNamedParameters type namedParameters {}
  let hasTimestamp := flags.fromTimestamp.isSome
  if (flags.cleanupAll == hasTimestamp && flags.cleanupAll == true) ||
      (flags.cleanupAll == hasTimestamp && flags.cleanupAll == false && olderThanDefault.isEmpty) then
    throw (.invalidInput (CleanupBindData.getFunctionName type ++
      ": either cleanup_all OR older_than must be specified"))
  return match flags.fromTimestamp with
    | some micros => { type, dryRun := flags.dryRun, timestampFilter := timestampToString micros }
    | none =>
      if !flags.cleanupAll && !olderThanDefault.isEmpty then
        { type, dryRun := flags.dryRun, defaultInterval := true,
          timestampFilter := "NOW() - INTERVAL '" ++ olderThanDefault ++ "'" }
      else { type, dryRun := flags.dryRun }

/-- `CleanupBind`: the bind data, holding the files its filter selects. -/
def cleanupBind (namedParameters : List (String × Value)) (type : CleanupType)
    (olderThanDefault : String := "") : Except Exception CleanupBindData := do
  let result ← cleanupBindData timestampToString getCatalog namedParameters type olderThanDefault
  let files ← getFilesForCleanup result.getFilter type
  return { result with files }

/-- `DuckLakeCleanupOldFilesBind`. -/
def duckLakeCleanupOldFilesBind (namedParameters : List (String × Value)) :
    Except Exception CleanupBindData :=
  cleanupBind timestampToString getCatalog getFilesForCleanup namedParameters .oldFiles

/-- `DuckLakeCleanupOrphanedFilesBind`, given the catalog's
`orphan_file_delete_older_than` option (empty when unset). It looks the catalog
up once more before `CleanupBind` does. -/
def duckLakeCleanupOrphanedFilesBind (orphanFileDeleteOlderThan : String)
    (namedParameters : List (String × Value)) : Except Exception CleanupBindData := do
  getCatalog
  cleanupBind timestampToString getCatalog getFilesForCleanup namedParameters .orphanedFiles
    orphanFileDeleteOlderThan

/-- Once its bind data is built, `CleanupBind` returns it with the files the
metadata manager selects under its filter, or raises what the query raises. -/
theorem cleanupBind_of_data {namedParameters : List (String × Value)} {type : CleanupType}
    {olderThanDefault : String} {data : CleanupBindData}
    (h : cleanupBindData timestampToString getCatalog namedParameters type olderThanDefault =
      .ok data) :
    cleanupBind timestampToString getCatalog getFilesForCleanup namedParameters type
        olderThanDefault = (getFilesForCleanup data.getFilter type).map fun files => { data with files } := by
  rw [cleanupBind, h]
  show (getFilesForCleanup data.getFilter type >>= _) = _
  cases getFilesForCleanup data.getFilter type <;> rfl

/-- The bind data is built exactly when the catalog is found, the loop reads
every parameter and the cutoff check passes; the loop's flags then decide it. -/
theorem cleanupBindData_eq_ok {namedParameters : List (String × Value)} {type : CleanupType}
    {olderThanDefault : String} {data : CleanupBindData}
    (h : cleanupBindData timestampToString getCatalog namedParameters type olderThanDefault =
      .ok data) :
    ∃ flags, readNamedParameters type namedParameters {} = .ok flags ∧
      ¬(flags.cleanupAll = flags.fromTimestamp.isSome ∧
        (flags.cleanupAll = true ∨ olderThanDefault = "")) ∧
      data = match flags.fromTimestamp with
        | some micros => { type, dryRun := flags.dryRun, timestampFilter := timestampToString micros }
        | none =>
          if !flags.cleanupAll && !olderThanDefault.isEmpty then
            { type, dryRun := flags.dryRun, defaultInterval := true,
              timestampFilter := "NOW() - INTERVAL '" ++ olderThanDefault ++ "'" }
          else { type, dryRun := flags.dryRun } := by
  obtain ⟨⟨⟩, -, h⟩ := bind_eq_ok.mp h
  obtain ⟨flags, hflags, h⟩ := bind_eq_ok.mp h
  refine ⟨flags, hflags, ?_⟩
  rw [← cutoffCheck_iff]
  by_cases hcheck : ((flags.cleanupAll == flags.fromTimestamp.isSome && flags.cleanupAll == true) ||
      (flags.cleanupAll == flags.fromTimestamp.isSome && flags.cleanupAll == false &&
        olderThanDefault.isEmpty)) = true
  · rw [if_pos hcheck] at h
    cases h
  · rw [if_neg hcheck] at h
    cases h
    exact ⟨hcheck, rfl⟩

/-- The bind data keeps its kind, reads `dry_run` by its presence, and holds
no file yet. -/
theorem cleanupBindData_ok {namedParameters : List (String × Value)} {type : CleanupType}
    {olderThanDefault : String} {data : CleanupBindData}
    (h : cleanupBindData timestampToString getCatalog namedParameters type olderThanDefault =
      .ok data) :
    data.type = type ∧ data.dryRun = hasParameter namedParameters "dry_run" ∧ data.files = [] := by
  obtain ⟨flags, hflags, -, rfl⟩ := cleanupBindData_eq_ok timestampToString getCatalog h
  have hdry := (readNamedParameters_flags hflags).1
  simp only [Bool.false_or] at hdry
  refine ⟨?_, ?_, ?_⟩ <;> split <;> (try split) <;> simp [hdry]

/-- Building the bind data raises in three ways: the catalog is not found; a
named parameter raises (an `older_than` that is `NULL`, or an unsupported
name), and the first such one is what is raised; or every parameter is read,
and the cutoff check fails. -/
theorem cleanupBindData_eq_error_iff (namedParameters : List (String × Value))
    (type : CleanupType) (olderThanDefault : String) (e : Exception) :
    cleanupBindData timestampToString getCatalog namedParameters type olderThanDefault =
        .error e ↔
      getCatalog = .error e ∨ (getCatalog = .ok () ∧
        ((∃ pre entry post, namedParameters = pre ++ entry :: post ∧
            (∀ entry' ∈ pre, parameterRaised type entry' = none) ∧
            parameterRaised type entry = some e) ∨
          ((∀ entry ∈ namedParameters, parameterRaised type entry = none) ∧
            e = .invalidInput (CleanupBindData.getFunctionName type ++
              ": either cleanup_all OR older_than must be specified") ∧
            hasParameter namedParameters "cleanup_all" = hasParameter namedParameters "older_than" ∧
            (hasParameter namedParameters "cleanup_all" = true ∨ olderThanDefault = "")))) := by
  rw [cleanupBindData, bind_eq_error, Unique.exists_iff]
  refine or_congr_right (and_congr_right fun _ => ?_)
  rw [bind_eq_error, ← readNamedParameters_eq_error_iff type namedParameters {} e]
  cases hr : readNamedParameters type namedParameters {} with
  | error e' =>
    have hnot : ¬∀ entry ∈ namedParameters, parameterRaised type entry = none := fun hall => by
      obtain ⟨pre, x, post, rfl, -, hx⟩ := (readNamedParameters_eq_error_iff _ _ _ _).mp hr
      rw [hall x (List.mem_append_right pre (List.mem_cons_self x post))] at hx
      cases hx
    simp only [reduceCtorEq, false_and, exists_false, or_false, hnot]
  | ok flags =>
    have hall := not_raised_of_ok (parameterRaised type) (readNamedParameters type)
      (fun _ rest flags _ h => readNamedParameters_of_raised h rest flags)
      (fun _ rest flags h => readNamedParameters_of_not_raised h rest flags) hr
    obtain ⟨-, hca, hts⟩ := readNamedParameters_flags hr
    simp only [Bool.false_or, Option.isSome_none] at hca hts
    rw [← hca, ← hts, ← cutoffCheck_iff]
    simp only [reduceCtorEq, false_or, Except.ok.injEq, exists_eq_left']
    by_cases hcheck : ((flags.cleanupAll == flags.fromTimestamp.isSome && flags.cleanupAll == true) ||
        (flags.cleanupAll == flags.fromTimestamp.isSome && flags.cleanupAll == false &&
          olderThanDefault.isEmpty)) = true
    · rw [if_pos hcheck]
      exact ⟨fun h => ⟨hall, by cases h; rfl, hcheck⟩, fun ⟨_, he, _⟩ => he ▸ rfl⟩
    · rw [if_neg hcheck]
      exact iff_of_false nofun fun ⟨_, _, hc⟩ => hcheck hc

/-- `CleanupBind` raises in four ways. Building its bind data raises in three:
the catalog is not found; the first named parameter that raises (an
`older_than` that is `NULL`, or an unsupported name) raises, and later ones are
never read; or every parameter is read and the cutoff check fails. The fourth
is the metadata query, under the filter of bind data that was built. -/
theorem cleanupBind_eq_error_iff (namedParameters : List (String × Value)) (type : CleanupType)
    (olderThanDefault : String) (e : Exception) :
    (cleanupBind timestampToString getCatalog getFilesForCleanup namedParameters type
        olderThanDefault = .error e ↔
      cleanupBindData timestampToString getCatalog namedParameters type olderThanDefault =
          .error e ∨
        ∃ data, cleanupBindData timestampToString getCatalog namedParameters type
            olderThanDefault = .ok data ∧ getFilesForCleanup data.getFilter type = .error e) ∧
    (cleanupBindData timestampToString getCatalog namedParameters type olderThanDefault =
        .error e ↔
      getCatalog = .error e ∨ (getCatalog = .ok () ∧
        ((∃ pre entry post, namedParameters = pre ++ entry :: post ∧
            (∀ entry' ∈ pre, parameterRaised type entry' = none) ∧
            parameterRaised type entry = some e) ∨
          ((∀ entry ∈ namedParameters, parameterRaised type entry = none) ∧
            e = .invalidInput (CleanupBindData.getFunctionName type ++
              ": either cleanup_all OR older_than must be specified") ∧
            hasParameter namedParameters "cleanup_all" = hasParameter namedParameters "older_than" ∧
            (hasParameter namedParameters "cleanup_all" = true ∨ olderThanDefault = ""))))) := by
  refine ⟨?_, cleanupBindData_eq_error_iff timestampToString getCatalog _ _ _ _⟩
  rw [cleanupBind, bind_eq_error]
  refine or_congr_right (exists_congr fun data => and_congr_right fun _ => ?_)
  rw [bind_eq_error]
  exact or_iff_left fun ⟨_, _, h⟩ => nomatch h

/-- An accepted bind keeps its kind, reads `dry_run` by its presence, and
holds the files the metadata manager returns for its own filter. -/
theorem cleanupBind_ok {namedParameters : List (String × Value)} {type : CleanupType}
    {olderThanDefault : String} {data : CleanupBindData}
    (h : cleanupBind timestampToString getCatalog getFilesForCleanup namedParameters type
      olderThanDefault = .ok data) :
    ∃ result, cleanupBindData timestampToString getCatalog namedParameters type
        olderThanDefault = .ok result ∧ data = { result with files := data.files } ∧
      data.type = type ∧ data.dryRun = hasParameter namedParameters "dry_run" ∧
      getFilesForCleanup data.getFilter type = .ok data.files := by
  obtain ⟨result, hres, h⟩ := bind_eq_ok.mp h
  obtain ⟨files, hfiles, h⟩ := bind_eq_ok.mp h
  cases h
  obtain ⟨htype, hdry, -⟩ := cleanupBindData_ok timestampToString getCatalog hres
  exact ⟨result, hres, rfl, htype, hdry, hfiles⟩

/-- `dry_run => false` and `cleanup_all => false` act as if they were `true`:
only the presence of those parameters is read, and the metadata manager is
asked for every file. The interval from the catalog is put between quotes
unescaped, so a quote in it ends the SQL literal of the query. -/
theorem cleanupBind_reads_presence_only :
    cleanupBind timestampToString (.ok ()) getFilesForCleanup [("cleanup_all", .boolean false)]
        .oldFiles = (getFilesForCleanup "" .oldFiles).map (fun files => { type := .oldFiles, files := files }) ∧
      cleanupBind timestampToString (.ok ()) getFilesForCleanup [("dry_run", .boolean false),
        ("cleanup_all", .boolean true)] .oldFiles =
        (getFilesForCleanup "" .oldFiles).map (fun files => { type := .oldFiles, files := files, dryRun := true }) ∧
      cleanupBind timestampToString (.ok ()) getFilesForCleanup [] .orphanedFiles
        "1 day' OR '1'='1" =
        (getFilesForCleanup " AND last_modified < NOW() - INTERVAL '1 day' OR '1'='1'"
          .orphanedFiles).map (fun files =>
            { type := .orphanedFiles, files := files, defaultInterval := true,
              timestampFilter := "NOW() - INTERVAL '1 day' OR '1'='1'" }) :=
  ⟨cleanupBind_of_data timestampToString _ getFilesForCleanup (by rfl),
    cleanupBind_of_data timestampToString _ getFilesForCleanup (by rfl),
    cleanupBind_of_data timestampToString _ getFilesForCleanup (by rfl)⟩

end

end DuckLake
