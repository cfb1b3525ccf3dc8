import DuckLake.Types.Codec
import Mathlib.Data.List.Infix

/-! The members of a decimal type name, as `FromString` reads them: the grammar
of `StringUtil::SplitWithParentheses`, stated by counting parentheses over the
prefixes of its input, and what the decimal branch accepts. -/
namespace DuckLake.StringUtil

/-! ### The grammar -/

/-- Read from depth `d`, no prefix of `s` closes more parentheses than are open. -/
def NeverBelow (d : Nat) (s : List Char) : Prop :=
  ∀ p ∈ s.inits, p.count ')' ≤ d + p.count '('

/-- Read from depth `d`, every comma of `s` lies inside parentheses. -/
def CommasInside (d : Nat) (s : List Char) : Prop :=
  ∀ p ∈ s.inits, p ++ [','] <+: s → p.count ')' < d + p.count '('

/-- Read from depth `d`, `s` never closes more parentheses than are open and
closes all of them. -/
def Closes (d : Nat) (s : List Char) : Prop :=
  NeverBelow d s ∧ d + s.count '(' = s.count ')'

/-- Every parenthesis of `s` is matched. -/
def Balanced (s : List Char) : Prop := Closes 0 s

/-- A piece the splitter returns: balanced, with no comma outside parentheses. -/
def Segment (s : List Char) : Prop := Balanced s ∧ CommasInside 0 s

/-- The pieces, each followed by its comma. -/
def withCommas (pieces : List (List Char)) : List Char := (pieces.map (· ++ [','])).flatten

instance (d : Nat) : DecidablePred (NeverBelow d) :=
  fun _ => inferInstanceAs (Decidable (∀ _ ∈ _, _))

instance (d : Nat) : DecidablePred (CommasInside d) :=
  fun _ => inferInstanceAs (Decidable (∀ _ ∈ _, _))

instance (d : Nat) : DecidablePred (Closes d) := fun _ => inferInstanceAs (Decidable (_ ∧ _))

instance : DecidablePred Balanced := fun _ => inferInstanceAs (Decidable (Closes 0 _))

instance : DecidablePred Segment := fun _ => inferInstanceAs (Decidable (_ ∧ _))

example : Segment "(1,2)3".data ∧ ¬Segment "1,2".data ∧ ¬Balanced "(1))(".data := by decide

/-- The depth of the splitter's stack after it reads `c` at depth `d`. -/
def depthStep (d : Nat) (c : Char) : Nat :=
  if c = '(' then d + 1 else if c = ')' then d - 1 else d

theorem depthStep_comma (d : Nat) : depthStep d ',' = d := rfl

theorem count_concat (a c : Char) (s : List Char) :
    (s ++ [c]).count a = s.count a + if c = a then 1 else 0 := by
  simp [List.count_append, List.count_singleton]

theorem count_cons' (a c : Char) (s : List Char) :
    (c :: s).count a = s.count a + if c = a then 1 else 0 := by
  simp [List.count_cons]

theorem inits_concat (s : List Char) (c : Char) : (s ++ [c]).inits = s.inits ++ [s ++ [c]] := by
  simp only [List.inits_append, List.inits, List.tail, List.map]

/-! ### Reading one character -/

/-- What the splitter does with its next character: raise on a `)` with no
open parenthesis, end the current piece at a comma outside parentheses, and
otherwise add the character to the current piece. -/
theorem splitLoop_cons (str : List Char) (c : Char) (cs : List Char)
    (result : List (List Char)) (current : List Char) (d : Nat) :
    splitLoop str (c :: cs) result current d =
      if c = ')' ∧ d = 0 then .error (.invalidInput (incongruentMessage str))
      else if c = ',' ∧ d = 0 then splitLoop str cs (result ++ [current]) [] d
      else splitLoop str cs result (current ++ [c]) (depthStep d c) := by
  rw [splitLoop, depthStep]
  by_cases hopen : c = '('
  · subst hopen
    rfl
  by_cases hclose : c = ')'
  · subst hclose
    by_cases hd : d = 0
    · simp [hd]
    · simp [hd]
  · simp [hopen, hclose]

/-- The depth arithmetic of one character, when it does not raise. -/
theorem depthStep_add {d : Nat} {c : Char} (hpos : c = ')' → 0 < d) :
    depthStep d c + (if c = ')' then 1 else 0) = d + (if c = '(' then 1 else 0) := by
  unfold depthStep
  by_cases hopen : c = '('
  · subst hopen
    rfl
  by_cases hclose : c = ')'
  · have := hpos hclose
    simp only [if_neg hopen, if_pos hclose]
    omega
  · simp only [if_neg hopen, if_neg hclose]

theorem neverBelow_cons {d : Nat} {c : Char} {cs : List Char} :
    NeverBelow d (c :: cs) ↔ (c = ')' → 0 < d) ∧ NeverBelow (depthStep d c) cs := by
  simp only [NeverBelow, List.inits_cons, List.forall_mem_cons, List.forall_mem_map, count_cons',
    List.count_nil, Nat.zero_le, true_and]
  constructor
  · intro h
    have hpos : c = ')' → 0 < d := fun hc => by
      have := h [] ((List.mem_inits _ _).mpr List.nil_prefix)
      simp only [hc, List.count_nil, if_pos, if_neg (by decide : ')' ≠ '(')] at this
      omega
    exact ⟨hpos, fun p hp => by have := h p hp; have := depthStep_add hpos; omega⟩
  · rintro ⟨hpos, h⟩ p hp
    have := h p hp
    have := depthStep_add hpos
    omega

theorem closes_nil (d : Nat) : Closes d [] ↔ d = 0 := by
  simp [Closes, NeverBelow, List.inits]

theorem closes_cons (d : Nat) (c : Char) (cs : List Char) :
    Closes d (c :: cs) ↔ (c = ')' → 0 < d) ∧ Closes (depthStep d c) cs := by
  rw [Closes, Closes, neverBelow_cons, count_cons', count_cons', and_assoc]
  exact and_congr_right fun hpos => and_congr_right fun _ => by
    have := depthStep_add hpos
    omega

/-! ### When the splitter raises -/

theorem splitLoop_eq_error_iff (str cs : List Char) (result : List (List Char))
    (current : List Char) (d : Nat) (e : Exception) :
    splitLoop str cs result current d = .error e ↔
      e = .invalidInput (incongruentMessage str) ∧ ¬Closes d cs := by
  induction cs generalizing result current d with
  | nil =>
    rw [closes_nil, splitLoop]
    by_cases hd : d = 0
    · rw [if_pos hd]
      exact iff_of_false nofun fun h => h.2 hd
    · rw [if_neg hd]
      exact error_eq_error_iff hd _ e
  | cons c cs ih =>
    rw [splitLoop_cons, closes_cons]
    by_cases hclose : c = ')' ∧ d = 0
    · rw [if_pos hclose]
      exact error_eq_error_iff (fun h => absurd (h.1 hclose.1) (by omega)) _ e
    have hpos : c = ')' → 0 < d := fun h => Nat.pos_of_ne_zero fun hd => hclose ⟨h, hd⟩
    rw [if_neg hclose, and_iff_right hpos]
    by_cases hcomma : c = ',' ∧ d = 0
    · rw [if_pos hcomma, ih, hcomma.1, depthStep_comma]
    · rw [if_neg hcomma, ih]

/-- `SplitWithParentheses` raises only its incongruence message, which names
the input, and it raises exactly when the input's parentheses do not match. -/
theorem splitWithParentheses_eq_error_iff (str : List Char) (e : Exception) :
    splitWithParentheses str = .error e ↔
      e = .invalidInput (incongruentMessage str) ∧ ¬Balanced str :=
  splitLoop_eq_error_iff str str [] [] 0 e

/-! ### What the splitter returns -/

/-- The current piece as the splitter holds it at depth `d`: the start of a
segment, with `d` parentheses left open. -/
def OpenSegment (d : Nat) (s : List Char) : Prop :=
  NeverBelow 0 s ∧ s.count '(' = d + s.count ')' ∧ CommasInside 0 s

theorem segment_iff_openSegment {s : List Char} : Segment s ↔ OpenSegment 0 s :=
  ⟨fun ⟨⟨h1, h2⟩, h3⟩ => ⟨h1, by omega, h3⟩, fun ⟨h1, h2, h3⟩ => ⟨⟨h1, by omega⟩, h3⟩⟩

theorem openSegment_nil : OpenSegment 0 [] := by
  refine ⟨?_, rfl, ?_⟩ <;> simp [NeverBelow, CommasInside, List.inits]

theorem neverBelow_concat {d : Nat} {s : List Char} {c : Char} :
    NeverBelow d (s ++ [c]) ↔ NeverBelow d s ∧ (s ++ [c]).count ')' ≤ d + (s ++ [c]).count '(' := by
  simp only [NeverBelow, inits_concat, List.forall_mem_append, List.forall_mem_singleton]

theorem commasInside_concat {d : Nat} {s : List Char} {c : Char} :
    CommasInside d (s ++ [c]) ↔
      CommasInside d s ∧ (c = ',' → s.count ')' < d + s.count '(') := by
  simp only [CommasInside, inits_concat, List.forall_mem_append, List.forall_mem_singleton]
  have hlong : ¬s ++ [c] ++ [','] <+: s ++ [c] := fun h => by
    have := h.length_le
    simp only [List.length_append, List.length_singleton] at this
    omega
  refine ⟨fun ⟨h, _⟩ => ⟨fun p hp hpre => h p hp (hpre.trans (List.prefix_append s [c])),
    fun hc => h s ((List.mem_inits _ _).mpr (List.prefix_refl s)) (hc ▸ List.prefix_refl _)⟩,
    fun ⟨h, hc⟩ => ⟨fun p hp hpre => ?_, fun hpre => absurd hpre hlong⟩⟩
  rcases List.prefix_concat_iff.mp hpre with heq | hpre
  · obtain ⟨rfl, hcomma⟩ := List.append_inj' heq rfl
    exact hc (List.singleton_inj.mp hcomma).symm
  · exact h p hp hpre

/-- Reading a character that neither raises nor ends the piece keeps the
current piece the start of a segment. -/
theorem openSegment_concat {d : Nat} {s : List Char} {c : Char} (hs : OpenSegment d s)
    (hclose : ¬(c = ')' ∧ d = 0)) (hcomma : ¬(c = ',' ∧ d = 0)) :
    OpenSegment (depthStep d c) (s ++ [c]) := by
  obtain ⟨h1, h2, h3⟩ := hs
  have hstep := depthStep_add fun h => Nat.pos_of_ne_zero fun hd => hclose ⟨h, hd⟩
  refine ⟨neverBelow_concat.mpr ⟨h1, ?_⟩, ?_, commasInside_concat.mpr ⟨h3, fun hc => ?_⟩⟩
  · rw [count_concat, count_concat]
    omega
  · rw [count_concat, count_concat]
    omega
  · have : d ≠ 0 := fun hd => hcomma ⟨hc, hd⟩
    omega

theorem withCommas_concat (result : List (List Char)) (current : List Char) :
    withCommas (result ++ [current]) = withCommas result ++ current ++ [','] := by
  simp [withCommas]

/-- The run of the splitter: from a state whose finished pieces are segments
and whose current piece starts one, every piece it returns is a segment, and
the pieces give back what it was given, less a trailing comma it drops. -/
theorem splitLoop_eq_ok {str cs : List Char} {result : List (List Char)} {current : List Char}
    {d : Nat} {pieces : List (List Char)} (hresult : ∀ r ∈ result, Segment r)
    (hcurrent : OpenSegment d current) (h : splitLoop str cs result current d = .ok pieces) :
    (∀ p ∈ pieces, Segment p) ∧
      (withCommas result ++ current ++ cs = withCommas pieces ∨
        (withCommas result ++ current ++ cs ++ [','] = withCommas pieces ∧
          pieces.getLast? ≠ some [])) := by
  induction cs generalizing result current d with
  | nil =>
    rw [splitLoop] at h
    by_cases hd : d = 0
    · rw [if_pos hd] at h
      cases h
      subst hd
      by_cases hc : current = []
      · subst hc
        rw [if_pos rfl]
        exact ⟨hresult, .inl (by simp)⟩
      · rw [if_neg hc, withCommas_concat, List.getLast?_concat, List.append_nil]
        exact ⟨List.forall_mem_append.mpr ⟨hresult, List.forall_mem_singleton.mpr
          (segment_iff_openSegment.mpr hcurrent)⟩, .inr ⟨rfl, fun h => hc (Option.some_inj.mp h)⟩⟩
    · rw [if_neg hd] at h
      cases h
  | cons c cs ih =>
    rw [splitLoop_cons] at h
    by_cases hclose : c = ')' ∧ d = 0
    · rw [if_pos hclose] at h
      cases h
    rw [if_neg hclose] at h
    by_cases hcomma : c = ',' ∧ d = 0
    · rw [if_pos hcomma] at h
      obtain ⟨rfl, rfl⟩ := hcomma
      have := ih (List.forall_mem_append.mpr ⟨hresult, List.forall_mem_singleton.mpr
        (segment_iff_openSegment.mpr hcurrent)⟩) openSegment_nil h
      simp only [withCommas_concat, List.append_nil, List.append_assoc, List.singleton_append]
        at this ⊢
      exact this
    · rw [if_neg hcomma] at h
      have := ih hresult (openSegment_concat hcurrent hclose hcomma) h
      simp only [List.append_assoc, List.singleton_append] at this ⊢
      exact this

/-- A prefix read from depth `d` that never closes below depth zero and holds
no comma outside parentheses is added whole to the current piece. -/
theorem splitLoop_append {d : Nat} {a : List Char} (hnever : NeverBelow d a)
    (hcommas : CommasInside d a) (str rest : List Char) (result : List (List Char))
    (current : List Char) :
    splitLoop str (a ++ rest) result current d =
      splitLoop str rest result (current ++ a) (d + a.count '(' - a.count ')') := by
  induction a using List.reverseRecOn generalizing rest with
  | nil => simp
  | append_singleton a c ih =>
    obtain ⟨hnever, hlast⟩ := neverBelow_concat.mp hnever
    obtain ⟨hcommas, hc⟩ := commasInside_concat.mp hcommas
    have hle := hnever a ((List.mem_inits _ _).mpr (List.prefix_refl a))
    rw [count_concat, count_concat] at hlast
    have hpos : c = ')' → 0 < d + a.count '(' - a.count ')' := fun h => by
      subst h
      rw [if_pos rfl, if_neg (by decide)] at hlast
      omega
    have hstep := depthStep_add hpos
    rw [List.append_assoc, List.singleton_append, ih hnever hcommas, splitLoop_cons,
      if_neg fun ⟨h, hd⟩ => (hpos h).ne' hd, if_neg fun ⟨h, hd⟩ => by have := hc h; omega,
      List.append_assoc, count_concat, count_concat]
    congr 1
    omega

/-- Segments, each followed by its comma, are split into exactly those segments. -/
theorem splitLoop_withCommas {ps : List (List Char)} (hps : ∀ p ∈ ps, Segment p)
    (str rest : List Char) (result : List (List Char)) :
    splitLoop str (withCommas ps ++ rest) result [] 0 = splitLoop str rest (result ++ ps) [] 0 := by
  induction ps generalizing result with
  | nil => simp [withCommas]
  | cons p ps ih =>
    obtain ⟨⟨hnever, hcount⟩, hcommas⟩ := hps p (List.mem_cons_self p ps)
    have hrest : withCommas (p :: ps) ++ rest = p ++ ',' :: (withCommas ps ++ rest) := by
      simp [withCommas]
    have hdepth : 0 + p.count '(' - p.count ')' = 0 := by omega
    rw [hrest, splitLoop_append hnever hcommas, hdepth, splitLoop_cons,
      if_neg fun h => absurd h.1 (by decide), if_pos ⟨rfl, rfl⟩,
      ih fun q hq => hps q (List.mem_cons_of_mem p hq)]
    simp

/-- `SplitWithParentheses` returns exactly the segments of its input: it
returns `pieces` when and only when they are segments and, each followed by a
comma, give back the input, with a comma after it unless the last piece is
empty. -/
theorem splitWithParentheses_eq_ok_iff (str : List Char) (pieces : List (List Char)) :
    splitWithParentheses str = .ok pieces ↔
      (∀ p ∈ pieces, Segment p) ∧
        (str = withCommas pieces ∨ (str ++ [','] = withCommas pieces ∧ pieces.getLast? ≠ some [])) := by
  constructor
  · intro h
    simpa [withCommas] using
      splitLoop_eq_ok (fun _ h => absurd h (List.not_mem_nil _)) openSegment_nil h
  rintro ⟨hseg, hstr | ⟨hstr, hlast⟩⟩
  · have hsplit := splitLoop_withCommas hseg str [] []
    rw [List.append_nil, ← hstr, List.nil_append] at hsplit
    rw [splitWithParentheses, hsplit, splitLoop, if_pos rfl, if_pos rfl]
  · obtain ⟨init, last, rfl⟩ : ∃ init last, pieces = init ++ [last] := by
      rcases List.eq_nil_or_concat' pieces with rfl | h
      · exact absurd hstr (by simp [withCommas])
      · exact h
    rw [List.getLast?_concat, ne_eq, Option.some_inj] at hlast
    rw [withCommas_concat, List.append_left_inj] at hstr
    obtain ⟨⟨hnever, hcount⟩, hcommas⟩ := hseg last (by simp)
    have hinit : ∀ p ∈ init, Segment p := fun p hp => hseg p (by simp [hp])
    have hsplit := splitLoop_withCommas hinit str last []
    rw [← hstr, List.nil_append] at hsplit
    rw [splitWithParentheses, hsplit, ← List.append_nil last, splitLoop_append hnever hcommas,
      List.nil_append, splitLoop, if_pos (by omega), List.append_nil, if_neg hlast]

example : splitWithParentheses "18,3,".data = .ok ["18".data, "3".data] := by decide

/-- Two members: the split returns `[a, b]` exactly when both are segments and
the input is `a,b` with `b` not empty, or `a,b,`. -/
theorem splitWithParentheses_eq_pair_iff (m a b : List Char) :
    splitWithParentheses m = .ok [a, b] ↔
      Segment a ∧ Segment b ∧ (m = a ++ ',' :: b ∧ b ≠ [] ∨ m = a ++ ',' :: b ++ [',']) := by
  have hjoin : withCommas [a, b] = a ++ ',' :: b ++ [','] := by simp [withCommas]
  rw [splitWithParentheses_eq_ok_iff, hjoin, List.append_left_inj]
  simp only [List.forall_mem_cons, List.not_mem_nil, false_implies, implies_true, and_true,
    List.getLast?_cons_cons,
    List.getLast?_singleton, ne_eq, Option.some_inj, and_assoc, or_comm]

end DuckLake.StringUtil

namespace DuckLake.DuckLakeTypes

open StringUtil

/-- The decimal branch is only taken on names of at least nine characters, so
`type.size() - 9` in its `substr` never wraps. -/
theorem length_of_isDecimalName {type : String} (h : isDecimalName type = true) :
    9 ≤ type.length := by
  simp only [isDecimalName, startsWith, endsWith, Bool.and_eq_true, List.isPrefixOf_iff_prefix,
    List.isSuffixOf_iff_suffix] at h
  obtain ⟨⟨r, hr⟩, ⟨q, hq⟩⟩ := h
  have hlen : type.length = type.data.length := rfl
  rcases r with _ | ⟨c, r⟩
  · have hlast := congrArg List.getLast? (hq.trans hr.symm)
    simp at hlast
  · rw [hlen, ← hr]
    simp

/-- The decimal branch of `FromString` returns `t` exactly when the members
are two segments, the second one not empty unless a comma follows it, that
`std::stoull` reads, the width narrowed to `uint8_t` is at most 38, and `t` is
the decimal of the two narrowed values. Nothing else is checked: a member may
hold parentheses, and text after its digits is ignored. -/
theorem parseDecimalMembers_eq_ok_iff (m : List Char) (t : LogicalType) :
    parseDecimalMembers m = .ok t ↔
      ∃ widthStr scaleStr width scale,
        Segment widthStr ∧ Segment scaleStr ∧
          (m = widthStr ++ ',' :: scaleStr ∧ scaleStr ≠ [] ∨
            m = widthStr ++ ',' :: scaleStr ++ [',']) ∧
          stoull widthStr = .ok width ∧ stoull scaleStr = .ok scale ∧
          width.toUInt8 ≤ DecimalType.maxWidth ∧
          LogicalType.decimal width.toUInt8 scale.toUInt8 = .ok t := by
  constructor
  · intro h
    obtain ⟨members, hsplit, h⟩ := bind_eq_ok.mp h
    rcases members with _ | ⟨a, _ | ⟨b, _ | ⟨_, _⟩⟩⟩
    · cases h
    · cases h
    · obtain ⟨width, hwidth, h⟩ := bind_eq_ok.mp h
      obtain ⟨scale, hscale, h⟩ := bind_eq_ok.mp h
      obtain ⟨ha, hb, hm⟩ := (splitWithParentheses_eq_pair_iff m a b).mp hsplit
      exact ⟨a, b, width, scale, ha, hb, hm, hwidth, hscale, (LogicalType.decimal_eq_ok_iff.mp h).1, h⟩
    · cases h
  · rintro ⟨a, b, width, scale, ha, hb, hm, hwidth, hscale, -, h⟩
    exact bind_eq_ok.mpr ⟨[a, b], (splitWithParentheses_eq_pair_iff m a b).mpr ⟨ha, hb, hm⟩,
      bind_eq_ok.mpr ⟨width, hwidth, bind_eq_ok.mpr ⟨scale, hscale, h⟩⟩⟩

example : fromString "decimal(18,3,)" = .ok { id := .decimal, decimalInfo := some ⟨18, 3⟩ } := by
  decide

/-- The members are read by `std::stoull` and narrowed to `uint8_t` with no
check: text after the digits is ignored, a value past 255 is cut to 8 bits and
a minus wraps. Only the narrowed width is checked, by `LogicalType::DECIMAL`,
whose message names the narrowed value. A member with no digit or past
`ULLONG_MAX` escapes as a C++ library exception rather than a DuckDB one. -/
theorem fromString_decimal_unchecked :
    fromString "decimal(260,2)" = .ok { id := .decimal, decimalInfo := some ⟨4, 2⟩ } ∧
    fromString "decimal(10x,2)" = .ok { id := .decimal, decimalInfo := some ⟨10, 2⟩ } ∧
    fromString "decimal(300,2)" = .error (.internal
      "Decimal has a width of 44 which is bigger than the maximum supported width of 38") ∧
    fromString "decimal(-1,2)" = .error (.internal
      "Decimal has a width of 255 which is bigger than the maximum supported width of 38") ∧
    fromString "decimal(a,b)" = .error .stdInvalidArgument ∧
    fromString "decimal(99999999999999999999,2)" = .error .stdOutOfRange := by
  decide

end DuckLake.DuckLakeTypes
