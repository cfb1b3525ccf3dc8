import DuckLake.Basic
import Mathlib.Data.Nat.Digits

/-! The string functions of DuckDB's `StringUtil` and of the C++ library that
the DuckLake code calls, on strings as lists of characters. Case folding is
DuckDB's `ASCII_TO_LOWER_MAP`, which only maps `A`..`Z`, as `Char.toLower` does.
`std::stoull` is `strtoull` in base 10 and the "C" locale. -/
namespace DuckLake

namespace StringUtil

/-- `StringUtil::CIEquals`: equal once both sides are folded to lower case. -/
def ciEquals (l1 l2 : String) : Bool :=
  l1.data.map Char.toLower == l2.data.map Char.toLower

/-- `StringUtil::Lower`. -/
def lower (s : String) : String := ⟨s.data.map Char.toLower⟩

/-- `StringUtil::StartsWith`: a case-sensitive prefix test. -/
def startsWith (str pre : String) : Bool := pre.data.isPrefixOf str.data

/-- `StringUtil::EndsWith`: a case-sensitive suffix test. -/
def endsWith (str suf : String) : Bool := suf.data.isSuffixOf str.data

/-- The message of both exceptions of `StringUtil::SplitWithParentheses`. -/
def incongruentMessage (str : List Char) : String :=
  "Incongruent parentheses in string: '" ++ ⟨str⟩ ++ "'"

/-- The loop of `StringUtil::SplitWithParentheses` with its default delimiter
`,` and parentheses `(` `)`. The parenthesis stack is kept as its depth; the
last segment is kept only when it is not empty. -/
def splitLoop (str : List Char) :
    List Char → List (List Char) → List Char → Nat → Except Exception (List (List Char))
  | [], result, current, depth =>
    if depth = 0 then .ok (if current = [] then result else result ++ [current])
    else .error (.invalidInput (incongruentMessage str))
  | ch :: rest, result, current, depth =>
    if ch = '(' then splitLoop str rest result (current ++ [ch]) (depth + 1)
    else if ch = ')' then
      if depth = 0 then .error (.invalidInput (incongruentMessage str))
      else splitLoop str rest result (current ++ [ch]) (depth - 1)
    else if ch = ',' ∧ depth = 0 then splitLoop str rest (result ++ [current]) [] depth
    else splitLoop str rest result (current ++ [ch]) depth

/-- `StringUtil::SplitWithParentheses(str)`. -/
def splitWithParentheses (str : List Char) : Except Exception (List (List Char)) :=
  splitLoop str str [] [] 0

end StringUtil

/-- `isspace` in the "C" locale. -/
def isspace (c : Char) : Bool :=
  c = ' ' || c = '\t' || c = '\n' || c = '\x0b' || c = '\x0c' || c = '\r'

/-- The value of a run of decimal digits, read from the left. -/
def digitsValue (acc : Nat) : List Char → Nat
  | [] => acc
  | c :: cs => digitsValue (10 * acc + (c.toNat - '0'.toNat)) cs

/-- The optional sign `strtoull` reads: whether it was a minus, and the rest. -/
def readSign : List Char → Bool × List Char
  | '-' :: r => (true, r)
  | '+' :: r => (false, r)
  | r => (false, r)

/-- `std::stoull(str)`: `strtoull` skips white space, reads an optional sign and
the longest run of digits after it, and negates in `unsigned long long` after a
minus. No digit throws `std::invalid_argument`; a magnitude past `ULLONG_MAX`
throws `std::out_of_range`. Characters after the digits are ignored. -/
def stoull (str : List Char) : Except Exception UInt64 :=
  let signed := readSign (str.dropWhile isspace)
  let digits := signed.2.takeWhile Char.isDigit
  if digits = [] then .error .stdInvalidArgument
  else
    let v := digitsValue 0 digits
    if UInt64.size ≤ v then .error .stdOutOfRange
    else .ok (if signed.1 then 0 - UInt64.ofNat v else UInt64.ofNat v)

/-- `std::to_string` of a `uint8_t`, which prints its value in decimal. -/
def uint8ToString (v : UInt8) : String := ⟨Nat.toDigits 10 v.toNat⟩

/-! ### Case folding

`Char.toLower` moves `A`..`Z` up by 32 and fixes every other character, so
any test that fails on letters reads a character and its lower case alike. -/

/-- The characters `Char.toLower` moves. -/
def IsUpperCode (c : Char) : Prop := c.toNat ≥ 65 ∧ c.toNat ≤ 90

/-- The characters that are neither upper nor lower case letters. -/
def IsNotLetter (c : Char) : Prop := c.toNat < 65 ∨ (90 < c.toNat ∧ c.toNat < 97) ∨ 122 < c.toNat

instance : DecidablePred IsUpperCode := fun _ => inferInstanceAs (Decidable (_ ∧ _))
instance : DecidablePred IsNotLetter := fun _ => inferInstanceAs (Decidable (_ ∨ _))

theorem toLower_of_not_upper {c : Char} (h : ¬ IsUpperCode c) : c.toLower = c :=
  if_neg h

theorem toLower_toNat_of_upper {c : Char} (h : IsUpperCode c) :
    c.toLower.toNat = c.toNat + 32 := by
  have hc : (c.toNat + 32).isValidChar := Or.inl (by unfold IsUpperCode at h; omega)
  show (if IsUpperCode c then Char.ofNat (c.toNat + 32) else c).toNat = _
  simp only [if_pos h, Char.ofNat, Char.ofNatAux, dif_pos hc]
  simp only [Char.toNat, UInt32.toNat, UInt32.val, BitVec.toNat_ofNatLt]

@[simp] theorem toLower_toLower (c : Char) : c.toLower.toLower = c.toLower := by
  by_cases h : IsUpperCode c
  · apply toLower_of_not_upper
    have := toLower_toNat_of_upper h
    unfold IsUpperCode at h ⊢
    omega
  · rw [toLower_of_not_upper h, toLower_of_not_upper h]

/-- Folding case fixes a character that is not a letter and never produces one. -/
theorem toLower_eq_iff {c d : Char} (hd : IsNotLetter d) : c.toLower = d ↔ c = d := by
  by_cases h : IsUpperCode c
  · have hl := toLower_toNat_of_upper h
    unfold IsUpperCode IsNotLetter at *
    constructor <;> rintro rfl <;> omega
  · rw [toLower_of_not_upper h]

theorem isDigit_iff (c : Char) : c.isDigit = true ↔ 48 ≤ c.toNat ∧ c.toNat ≤ 57 := by
  simp [Char.isDigit, UInt32.le_def, BitVec.le_def, Char.toNat, UInt32.toNat]

@[simp] theorem isDigit_toLower (c : Char) : c.toLower.isDigit = c.isDigit := by
  by_cases h : IsUpperCode c
  · have hl := toLower_toNat_of_upper h
    unfold IsUpperCode at h
    rw [Bool.eq_iff_iff, isDigit_iff, isDigit_iff]
    omega
  · rw [toLower_of_not_upper h]

@[simp] theorem isspace_toLower (c : Char) : isspace c.toLower = isspace c := by
  simp only [isspace, toLower_eq_iff (show IsNotLetter ' ' by decide),
    toLower_eq_iff (show IsNotLetter '\t' by decide), toLower_eq_iff (show IsNotLetter '\n' by decide),
    toLower_eq_iff (show IsNotLetter '\x0b' by decide),
    toLower_eq_iff (show IsNotLetter '\x0c' by decide), toLower_eq_iff (show IsNotLetter '\r' by decide)]

/-! ### Printing and reading decimals -/

theorem toDigitsCore_append (b fuel n : Nat) (ds : List Char) :
    Nat.toDigitsCore b fuel n ds = Nat.toDigitsCore b fuel n [] ++ ds := by
  induction fuel generalizing n ds with
  | zero => rfl
  | succ fuel ih =>
    simp only [Nat.toDigitsCore]
    split
    · rfl
    · rw [ih, ih _ [_], List.append_assoc, List.singleton_append]

/-- Enough fuel prints the same digits. -/
theorem toDigitsCore_fuel (n : Nat) :
    ∀ f g, n < f → n < g → Nat.toDigitsCore 10 f n [] = Nat.toDigitsCore 10 g n [] := by
  induction n using Nat.strongRecOn with
  | _ n ih =>
    intro f g hf hg
    obtain ⟨f, rfl⟩ : ∃ f', f = f' + 1 := ⟨f - 1, by omega⟩
    obtain ⟨g, rfl⟩ : ∃ g', g = g' + 1 := ⟨g - 1, by omega⟩
    simp only [Nat.toDigitsCore]
    split
    · rfl
    · rw [toDigitsCore_append, toDigitsCore_append 10 g,
        ih (n / 10) (by omega) f g (by omega) (by omega)]

theorem toDigits_of_lt {n : Nat} (h : n < 10) : Nat.toDigits 10 n = [Nat.digitChar n] := by
  simp [Nat.toDigits, Nat.toDigitsCore, Nat.div_eq_of_lt h, Nat.mod_eq_of_lt h]

theorem toDigits_of_ge {n : Nat} (h : 10 ≤ n) :
    Nat.toDigits 10 n = Nat.toDigits 10 (n / 10) ++ [Nat.digitChar (n % 10)] := by
  have hne : n / 10 ≠ 0 := by omega
  have hcore : Nat.toDigitsCore 10 (n + 1) n [] =
      Nat.toDigitsCore 10 n (n / 10) [Nat.digitChar (n % 10)] := by
    simp [Nat.toDigitsCore, hne]
  rw [Nat.toDigits, Nat.toDigits, hcore, toDigitsCore_append,
    toDigitsCore_fuel (n / 10) n (n / 10 + 1) (by omega) (by omega)]

theorem digitChar_spec : ∀ d < 10,
    (Nat.digitChar d).isDigit = true ∧ (Nat.digitChar d).toNat - '0'.toNat = d := by
  decide

theorem digitsValue_singleton (acc : Nat) (c : Char) :
    digitsValue acc [c] = 10 * acc + (c.toNat - '0'.toNat) := rfl

theorem digitsValue_append (acc : Nat) (xs ys : List Char) :
    digitsValue acc (xs ++ ys) = digitsValue (digitsValue acc xs) ys := by
  induction xs generalizing acc with
  | nil => rfl
  | cons x xs ih => exact ih _

/-- Reading back the printed digits of `n`: they are digits, and their value is `n`. -/
theorem toDigits_spec (n : Nat) :
    (∀ c ∈ Nat.toDigits 10 n, c.isDigit = true) ∧ digitsValue 0 (Nat.toDigits 10 n) = n := by
  induction n using Nat.strongRecOn with
  | _ n ih =>
    by_cases h : n < 10
    · have hd := digitChar_spec n h
      rw [toDigits_of_lt h]
      refine ⟨by simpa using hd.1, ?_⟩
      rw [digitsValue_singleton, hd.2]
      omega
    · have hd := digitChar_spec (n % 10) (Nat.mod_lt _ (by decide))
      rw [toDigits_of_ge (by omega)]
      obtain ⟨hall, hval⟩ := ih (n / 10) (by omega)
      refine ⟨fun c hc => ?_, ?_⟩
      · rcases List.mem_append.mp hc with hc | hc
        · exact hall c hc
        · simpa [List.mem_singleton.mp hc] using hd.1
      · rw [digitsValue_append, hval, digitsValue_singleton, hd.2]
        omega

theorem toDigits_ne_nil (n : Nat) : Nat.toDigits 10 n ≠ [] := by
  by_cases h : n < 10
  · simp [toDigits_of_lt h]
  · simp [toDigits_of_ge (Nat.le_of_not_lt h)]

theorem readSign_of_unsigned {c : Char} {r : List Char} (hm : c ≠ '-') (hp : c ≠ '+') :
    readSign (c :: r) = (false, c :: r) := by
  unfold readSign
  split <;> simp_all

/-- `std::stoull` reads a run of digits in range as its value. -/
theorem stoull_of_digits {cs : List Char} (hne : cs ≠ [])
    (hd : ∀ c ∈ cs, c.isDigit = true) (hv : digitsValue 0 cs < UInt64.size) :
    stoull cs = .ok (UInt64.ofNat (digitsValue 0 cs)) := by
  obtain ⟨c, cs', rfl⟩ := List.exists_cons_of_ne_nil hne
  have hc := (isDigit_iff c).mp (hd c (List.mem_cons_self _ _))
  have hsp : isspace c = false := by
    simp only [isspace, Bool.or_eq_false_iff, decide_eq_false_iff_not]
    refine ⟨⟨⟨⟨⟨?_, ?_⟩, ?_⟩, ?_⟩, ?_⟩, ?_⟩ <;> rintro rfl <;> exact absurd hc (by decide)
  have hminus : c ≠ '-' := by rintro rfl; exact absurd hc (by decide)
  have hplus : c ≠ '+' := by rintro rfl; exact absurd hc (by decide)
  have htake : (c :: cs').takeWhile Char.isDigit = c :: cs' := List.takeWhile_eq_self_iff.mpr hd
  simp only [stoull, List.dropWhile_cons, hsp, Bool.false_eq_true, if_false,
    readSign_of_unsigned hminus hplus, htake,
    List.cons_ne_nil, if_neg (Nat.not_le.mpr hv)]

theorem map_toLower_of_digits {ds : List Char} (h : ∀ c ∈ ds, c.isDigit = true) :
    ds.map Char.toLower = ds := by
  refine (List.map_congr_left fun c hc => toLower_of_not_upper ?_).trans (List.map_id ds)
  have := (isDigit_iff c).mp (h c hc)
  unfold IsUpperCode
  omega

theorem readSign_map_toLower (s : List Char) :
    readSign (s.map Char.toLower) = ((readSign s).1, (readSign s).2.map Char.toLower) := by
  match s with
  | [] => rfl
  | c :: r =>
    by_cases hm : c = '-'
    · subst hm; rfl
    by_cases hp : c = '+'
    · subst hp; rfl
    have hm' : c.toLower ≠ '-' := by rw [ne_eq, toLower_eq_iff (by decide)]; exact hm
    have hp' : c.toLower ≠ '+' := by rw [ne_eq, toLower_eq_iff (by decide)]; exact hp
    rw [List.map_cons, readSign_of_unsigned hm hp, readSign_of_unsigned hm' hp', List.map_cons]

/-- `std::stoull` reads a string and its lower case alike: folding case moves
no white space, sign or digit. -/
theorem stoull_map_toLower (cs : List Char) : stoull (cs.map Char.toLower) = stoull cs := by
  have hsp : (isspace ∘ Char.toLower) = isspace := funext isspace_toLower
  have hdig : (Char.isDigit ∘ Char.toLower) = Char.isDigit := funext isDigit_toLower
  have hdigits := fun s : List Char =>
    @map_toLower_of_digits (s.takeWhile Char.isDigit) (fun _ hc => List.mem_takeWhile_imp hc)
  simp only [stoull, List.dropWhile_map, hsp, readSign_map_toLower, List.takeWhile_map, hdig,
    hdigits]

theorem stoull_toDigits {n : Nat} (h : n < UInt64.size) :
    stoull (Nat.toDigits 10 n) = .ok (UInt64.ofNat n) := by
  obtain ⟨hd, hv⟩ := toDigits_spec n
  rw [stoull_of_digits (toDigits_ne_nil n) hd (by rwa [hv]), hv]

/-! ### Splitting the members of a decimal -/

/-- The characters `SplitWithParentheses` copies into the current segment. -/
def IsPlain (c : Char) : Prop := c ≠ '(' ∧ c ≠ ')' ∧ c ≠ ','

theorem splitLoop_plain (str : List Char) {cs : List Char} (h : ∀ c ∈ cs, IsPlain c)
    (rest : List Char) (result : List (List Char)) (current : List Char) (depth : Nat) :
    StringUtil.splitLoop str (cs ++ rest) result current depth =
      StringUtil.splitLoop str rest result (current ++ cs) depth := by
  induction cs generalizing current with
  | nil => simp
  | cons c cs ih =>
    obtain ⟨h1, h2, h3⟩ := h c (List.mem_cons_self _ _)
    rw [List.cons_append, StringUtil.splitLoop, if_neg h1, if_neg h2, if_neg (fun h => h3 h.1),
      ih (fun c hc => h c (List.mem_cons_of_mem _ hc)), List.append_assoc, List.singleton_append]

/-- Two plain members around one comma split into exactly those two. -/
theorem splitWithParentheses_pair {a b : List Char} (ha : ∀ c ∈ a, IsPlain c)
    (hb : ∀ c ∈ b, IsPlain c) (hne : b ≠ []) :
    StringUtil.splitWithParentheses (a ++ ',' :: b) = .ok [a, b] := by
  have hb' := splitLoop_plain (a ++ ',' :: b) hb [] [a] [] 0
  rw [List.append_nil, List.nil_append] at hb'
  rw [StringUtil.splitWithParentheses, splitLoop_plain _ ha, List.nil_append, StringUtil.splitLoop,
    if_neg (by decide), if_neg (by decide), if_pos ⟨rfl, rfl⟩, List.nil_append, hb',
    StringUtil.splitLoop, if_pos rfl, if_neg hne]
  rfl

/-- Folding case commutes with splitting: no parenthesis or comma is moved. -/
theorem splitLoop_map_toLower (str str' cs : List Char) (result : List (List Char))
    (current : List Char) (depth : Nat) :
    (StringUtil.splitLoop str' (cs.map Char.toLower) (result.map (·.map Char.toLower))
        (current.map Char.toLower) depth).toOption =
      (StringUtil.splitLoop str cs result current depth).toOption.map
        (·.map (·.map Char.toLower)) := by
  induction cs generalizing result current depth with
  | nil =>
    by_cases hd : depth = 0
    · by_cases hc : current = []
      · simp [StringUtil.splitLoop, hd, hc, Except.toOption]
      · simp [StringUtil.splitLoop, hd, hc, Except.toOption]
    · simp [StringUtil.splitLoop, hd, Except.toOption]
  | cons c cs ih =>
    have ho := @toLower_eq_iff c '(' (by decide)
    have hc := @toLower_eq_iff c ')' (by decide)
    have hm := @toLower_eq_iff c ',' (by decide)
    simp only [List.map_cons, StringUtil.splitLoop, ho, hc, hm]
    by_cases h1 : c = '('
    · rw [if_pos h1, if_pos h1]
      simpa using ih result (current ++ [c]) (depth + 1)
    rw [if_neg h1, if_neg h1]
    by_cases h2 : c = ')'
    · rw [if_pos h2, if_pos h2]
      by_cases hd : depth = 0
      · rw [if_pos hd, if_pos hd]
        rfl
      · rw [if_neg hd, if_neg hd]
        simpa using ih result (current ++ [c]) (depth - 1)
    rw [if_neg h2, if_neg h2]
    by_cases h3 : c = ',' ∧ depth = 0
    · rw [if_pos h3, if_pos h3]
      simpa using ih (result ++ [current]) [] depth
    · rw [if_neg h3, if_neg h3]
      simpa using ih result (current ++ [c]) depth

end DuckLake
