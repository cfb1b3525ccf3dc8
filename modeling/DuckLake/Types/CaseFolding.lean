import DuckLake.Types.Codec

/-! How `FromString` treats the case of a name. Base names are compared without
regard to case, but the decimal branch is chosen by the case-sensitive
`StartsWith(type, "decimal(")`. -/
namespace DuckLake.DuckLakeTypes

open LogicalType StringUtil

/-! ### Folding the case of a name -/

theorem lower_data (s : String) : (lower s).data = s.data.map Char.toLower := rfl

theorem ciEquals_lower (s t : String) : ciEquals (lower s) t = ciEquals s t := by
  simp [ciEquals, lower_data, List.map_map, Function.comp_def]

theorem endsWith_paren_lower (s : String) : endsWith (lower s) ")" = endsWith s ")" := by
  simp only [endsWith, List.isSuffixOf, lower_data, ← List.map_reverse]
  cases s.data.reverse with
  | nil => rfl
  | cons c r =>
    simp only [List.map_cons, List.reverse_cons, List.reverse_nil, List.nil_append,
      List.isPrefixOf, Bool.and_true]
    exact decide_eq_decide.mpr (eq_comm.trans ((toLower_eq_iff (by decide)).trans eq_comm))

theorem startsWith_decimal_lower {s : String} (h : startsWith s "decimal(" = true) :
    startsWith (lower s) "decimal(" = true := by
  simp only [startsWith, List.isPrefixOf_iff_prefix, lower_data] at h ⊢
  simpa using h.map Char.toLower

theorem decimalMembers_lower (s : String) :
    decimalMembers (lower s) = (decimalMembers s).map Char.toLower := by
  have hlen : (lower s).length = s.length := List.length_map _ _
  rw [decimalMembers, decimalMembers, hlen, lower_data, List.map_take, List.map_drop]

theorem toOption_bind {ε α β : Type} (x : Except ε α) (f : α → Except ε β) :
    (x >>= f).toOption = x.toOption.bind fun a => (f a).toOption := by
  cases x <;> rfl

/-- The decimal members read alike in either case: splitting commutes with
folding case, and `std::stoull` reads no letter. -/
theorem parseDecimalMembers_lower (m : List Char) :
    (parseDecimalMembers (m.map Char.toLower)).toOption = (parseDecimalMembers m).toOption := by
  have hsplit := splitLoop_map_toLower m (m.map Char.toLower) m [] [] 0
  simp only [List.map_nil] at hsplit
  rw [parseDecimalMembers, parseDecimalMembers, toOption_bind, toOption_bind,
    splitWithParentheses, splitWithParentheses, hsplit]
  cases (splitLoop m m [] [] 0).toOption with
  | none => rfl
  | some v =>
    simp only [Option.map_some', Option.some_bind]
    match v with
    | [] | [_] | _ :: _ :: _ :: _ => rfl
    | [a, b] => simp only [List.map_cons, List.map_nil, stoull_map_toLower]

/-- A name ending in `)` is none of the base names. -/
theorem parseBaseType_of_endsWith {s : String} (h : endsWith s ")" = true) :
    (parseBaseType s).toOption = none := by
  have hnames : ∀ n ∈ "json" :: "geometry" :: ducklakeTypes.map Prod.fst, ')' ∉ n.data := by
    decide
  have hne : ∀ n ∈ "json" :: "geometry" :: ducklakeTypes.map Prod.fst, ciEquals s n = false := by
    intro n hn
    simp only [endsWith, List.isSuffixOf_iff_suffix] at h
    obtain ⟨q, hq⟩ := h
    rw [Bool.eq_false_iff, ne_eq, ciEquals, beq_iff_eq, ← hq]
    intro heq
    have hmem : ')' ∈ n.data.map Char.toLower := by
      rw [← heq]
      exact List.mem_map.mpr ⟨')', by simp, rfl⟩
    obtain ⟨c, hc, hcl⟩ := List.mem_map.mp hmem
    exact hnames n hn (((toLower_eq_iff (by decide)).mp hcl) ▸ hc)
  have hfind : ducklakeTypes.find? (fun e => ciEquals s e.1) = none :=
    List.find?_eq_none.mpr fun e he => by
      simpa using hne e.1 (List.mem_cons_of_mem _ (List.mem_cons_of_mem _ (List.mem_map_of_mem _ he)))
  simp only [parseBaseType, hfind, hne "json" (List.mem_cons_self _ _),
    hne "geometry" (List.mem_cons_of_mem _ (List.mem_cons_self _ _)),
    Bool.false_eq_true, if_false]
  rfl

/-- Base names read alike in either case. -/
theorem parseBaseType_lower (s : String) :
    (parseBaseType (lower s)).toOption = (parseBaseType s).toOption := by
  simp only [parseBaseType, ciEquals_lower]
  split
  · rfl
  · split
    · rfl
    · split <;> rfl

/-- A name that ends in `)` and reads `decimal(` once folded to lower case, but
not as written: a letter of its `decimal(` is a capital. -/
def IsCapitalizedDecimal (s : String) : Prop :=
  startsWith (lower s) "decimal(" = true ∧ endsWith s ")" = true ∧ startsWith s "decimal(" = false

instance : DecidablePred IsCapitalizedDecimal := fun _ => inferInstanceAs (Decidable (_ ∧ _ ∧ _))

/-- Outside the capitalized decimal names, `FromString` reads a name and its
lower case alike. -/
theorem fromString_lower_of_not_capitalized {s : String} (hcap : ¬ IsCapitalizedDecimal s) :
    (fromString (lower s)).toOption = (fromString s).toOption := by
  have hend := endsWith_paren_lower s
  by_cases hd : isDecimalName s = true
  · have hd' : isDecimalName (lower s) = true := by
      simp only [isDecimalName, Bool.and_eq_true] at hd ⊢
      exact ⟨startsWith_decimal_lower hd.1, hend.trans hd.2⟩
    rw [fromString, fromString, if_pos hd, if_pos hd', decimalMembers_lower,
      parseDecimalMembers_lower]
  · have hd' : isDecimalName (lower s) = false := by
      rw [Bool.eq_false_iff]
      intro hl
      simp only [isDecimalName, Bool.and_eq_true] at hd hl
      have he := hend.symm.trans hl.2
      exact hcap ⟨hl.1, he, Bool.eq_false_iff.mpr fun h1 => hd ⟨h1, he⟩⟩
    rw [fromString, fromString, if_neg hd, if_neg (by simp [hd']), parseBaseType_lower]

/-- A capitalized decimal name raises: it is not taken down the decimal branch,
and it is no base name. -/
theorem fromString_of_capitalized {s : String} (hcap : IsCapitalizedDecimal s) :
    (fromString s).toOption = none := by
  obtain ⟨-, he, hs⟩ := hcap
  rw [fromString, if_neg (by simp [isDecimalName, hs])]
  exact parseBaseType_of_endsWith he

/-- `FromString` reads a name and its lower case alike, both raising or both
returning the same type, except exactly when the name's `decimal(` carries a
capital and its lower case reads as a type. Such a name always raises. -/
theorem fromString_lower (s : String) :
    ((fromString (lower s)).toOption = (fromString s).toOption ↔
      ¬ (IsCapitalizedDecimal s ∧ (fromString (lower s)).toOption.isSome)) ∧
    (IsCapitalizedDecimal s → (fromString s).toOption = none) := by
  refine ⟨?_, fromString_of_capitalized⟩
  by_cases hcap : IsCapitalizedDecimal s
  · rw [fromString_of_capitalized hcap, ← Option.not_isSome_iff_eq_none]
    exact ⟨fun h h' => h h'.2, fun h h' => h ⟨hcap, h'⟩⟩
  · exact iff_of_true (fromString_lower_of_not_capitalized hcap) fun h => hcap h.1

/-- The decimal branch is case-sensitive: `DECIMAL(10,2)` raises, while its
lower case reads as `DECIMAL(10,2)`. -/
theorem fromString_capital_decimal :
    fromString "DECIMAL(10,2)" =
      .error (.invalidInput "Failed to parse DuckLake type - unsupported type 'DECIMAL(10,2)'") ∧
    fromString (lower "DECIMAL(10,2)") = .ok { id := .decimal, decimalInfo := some ⟨10, 2⟩ } := by
  decide

end DuckLake.DuckLakeTypes
