import Mathlib.Data.List.Basic

/-! The exceptions raised by the modelled DuckLake code. DuckDB's exception
classes keep their messages; the exceptions of the C++ library and the one
undefined behaviour the code could reach are named by what causes them. -/
namespace DuckLake

/-- An exception raised by a modelled function, or an undefined behaviour it
would reach. Every modelled function returns `Except Exception _`. -/
inductive Exception where
  | invalidInput (message : String)
  | notImplemented (message : String)
  | internal (message : String)
  | binder (message : String)
  /-- `std::invalid_argument`, thrown by `std::stoull` when it reads no digit. -/
  | stdInvalidArgument
  /-- `std::out_of_range`, thrown by `std::stoull` past `ULLONG_MAX`. -/
  | stdOutOfRange
  /-- Reading the `DecimalTypeInfo` of a `DECIMAL` built without one: a failed
  assertion in debug builds and a null dereference in release builds. -/
  | missingTypeInfo
  deriving DecidableEq, Repr

/-- The `InternalException` that DuckDB's bounds-checked `vector::operator[]`
raises for a subscript past the end. -/
def indexOutOfRange (index size : Nat) : Exception :=
  .internal ("Attempted to access index " ++ toString index ++ " within vector of size " ++
    toString size)

instance instDecidableEqExcept {ε α : Type} [DecidableEq ε] [DecidableEq α] :
    DecidableEq (Except ε α)
  | .ok a, .ok b => decidable_of_iff (a = b) ⟨congrArg _, fun h => by cases h; rfl⟩
  | .error a, .error b => decidable_of_iff (a = b) ⟨congrArg _, fun h => by cases h; rfl⟩
  | .ok _, .error _ => isFalse nofun
  | .error _, .ok _ => isFalse nofun

/-- `vector::operator[]` of DuckDB's `vector`, which checks its bound. -/
def vectorAt {α : Type} (v : List α) (i : Nat) : Except Exception α :=
  match v[i]? with
  | some a => .ok a
  | none => .error (indexOutOfRange i v.length)

@[simp] theorem vectorAt_of_lt {α : Type} {v : List α} {i : Nat} (h : i < v.length) :
    vectorAt v i = .ok v[i] := by
  simp [vectorAt, List.getElem?_eq_getElem h]

@[simp] theorem vectorAt_of_le {α : Type} {v : List α} {i : Nat} (h : v.length ≤ i) :
    vectorAt v i = .error (indexOutOfRange i v.length) := by
  simp [vectorAt, List.getElem?_eq_none_iff.mpr h]

/-- The exception an outcome carries, or `none` when it returns. -/
def raisedBy {β : Type} : Except Exception β → Option Exception
  | .error e => some e
  | .ok _ => none

/-- A `mapM` in `Except` whose every call returns. -/
theorem mapM_except_ok {β γ : Type} {f : β → Except Exception γ} {g : β → γ} :
    ∀ {l : List β}, (∀ x ∈ l, f x = .ok (g x)) → l.mapM f = .ok (l.map g)
  | [], _ => rfl
  | x :: l, h => by
    rw [List.mapM_cons, h x (List.mem_cons_self x l),
      mapM_except_ok fun y hy => h y (List.mem_cons_of_mem x hy)]
    rfl

/-- Raising `e₀` is raising `e`, when a reason `P` for it holds. -/
theorem error_eq_error_iff {β : Type} {P : Prop} (hP : P) (e₀ e : Exception) :
    (.error e₀ : Except Exception β) = .error e ↔ e = e₀ ∧ P :=
  ⟨fun h => by cases h; exact ⟨rfl, hP⟩, fun ⟨he, _⟩ => he ▸ rfl⟩

theorem bind_eq_ok {β γ : Type} {x : Except Exception β} {f : β → Except Exception γ} {c : γ} :
    x >>= f = .ok c ↔ ∃ b, x = .ok b ∧ f b = .ok c := by
  cases x with
  | error e => exact iff_of_false nofun fun ⟨_, h, _⟩ => nomatch h
  | ok b => exact ⟨fun h => ⟨b, rfl, h⟩, fun ⟨_, h, hf⟩ => by cases h; exact hf⟩

theorem bind_eq_error {β γ : Type} {x : Except Exception β} {f : β → Except Exception γ}
    {e : Exception} : x >>= f = .error e ↔ x = .error e ∨ ∃ b, x = .ok b ∧ f b = .error e := by
  cases x with
  | error e' =>
    exact ⟨fun h => .inl (by cases h; rfl), fun h => h.elim (by rintro ⟨⟩; rfl) fun ⟨_, h, _⟩ => nomatch h⟩
  | ok b =>
    exact ⟨fun h => .inr ⟨b, rfl, h⟩, fun h => h.elim nofun fun ⟨_, h, hf⟩ => by cases h; exact hf⟩

/-- The first element of a list that satisfies `q` after a run of elements
that satisfy `p`: the head, or, after a head that satisfies `p`, such an
element of the tail. -/
theorem exists_prefix_cons_iff {β : Type} (p q : β → Prop) (x : β) (xs : List β) :
    (∃ pre y post, x :: xs = pre ++ y :: post ∧ (∀ z ∈ pre, p z) ∧ q y) ↔
      q x ∨ (p x ∧ ∃ pre y post, xs = pre ++ y :: post ∧ (∀ z ∈ pre, p z) ∧ q y) := by
  constructor
  · rintro ⟨pre, y, post, h, hpre, hy⟩
    cases pre with
    | nil =>
      obtain ⟨rfl, -⟩ := List.cons.inj h
      exact .inl hy
    | cons z pre =>
      obtain ⟨rfl, rfl⟩ := List.cons.inj h
      exact .inr ⟨hpre _ (List.mem_cons_self _ _), pre, y, post, rfl,
        fun w hw => hpre w (List.mem_cons_of_mem _ hw), hy⟩
  · rintro (hx | ⟨hx, pre, y, post, rfl, hpre, hy⟩)
    · exact ⟨[], x, xs, rfl, nofun, hx⟩
    · refine ⟨x :: pre, y, post, rfl, fun w hw => ?_, hy⟩
      rcases List.mem_cons.mp hw with rfl | hw
      exacts [hx, hpre w hw]

theorem not_exists_prefix_nil {β : Type} (p q : β → Prop) :
    ¬∃ pre y post, ([] : List β) = pre ++ y :: post ∧ (∀ z ∈ pre, p z) ∧ q y :=
  fun ⟨_, _, _, h, _⟩ => List.cons_ne_nil _ _ (List.append_eq_nil.mp h.symm).2

/-- A loop that raises exactly at its first element that raises: on the empty
list it returns, and on `x :: xs` it raises what `x` raises, or goes on with
`xs` from some state. -/
theorem raises_iff_first {β σ γ : Type} (raised : β → Option Exception)
    (f : List β → σ → Except Exception γ) (hnil : ∀ s e, f [] s ≠ .error e)
    (hraise : ∀ x xs s e, raised x = some e → f (x :: xs) s = .error e)
    (hgo : ∀ x xs s, raised x = none → ∃ s', f (x :: xs) s = f xs s')
    (xs : List β) (s : σ) (e : Exception) :
    f xs s = .error e ↔
      ∃ pre x post, xs = pre ++ x :: post ∧ (∀ y ∈ pre, raised y = none) ∧ raised x = some e := by
  induction xs generalizing s with
  | nil => exact iff_of_false (hnil s e) (not_exists_prefix_nil _ _)
  | cons x xs ih =>
    rw [exists_prefix_cons_iff]
    cases hx : raised x with
    | some e' =>
      rw [hraise x xs s e' hx]
      exact ⟨fun h => .inl (by cases h; rfl), fun h => h.elim (by rintro ⟨⟩; rfl) (nomatch ·.1)⟩
    | none =>
      obtain ⟨s', hs'⟩ := hgo x xs s hx
      rw [hs', ih]
      exact ⟨fun h => .inr ⟨rfl, h⟩, fun h => h.elim nofun (·.2)⟩

/-- Such a loop returns only when no element raises. -/
theorem not_raised_of_ok {β σ γ : Type} (raised : β → Option Exception)
    (f : List β → σ → Except Exception γ)
    (hraise : ∀ x xs s e, raised x = some e → f (x :: xs) s = .error e)
    (hgo : ∀ x xs s, raised x = none → ∃ s', f (x :: xs) s = f xs s') :
    ∀ {xs : List β} {s : σ} {c : γ}, f xs s = .ok c → ∀ x ∈ xs, raised x = none
  | [], _, _, _ => fun _ h => absurd h (List.not_mem_nil _)
  | x :: xs, s, c, h => by
    cases hx : raised x with
    | some e => rw [hraise x xs s e hx] at h; cases h
    | none =>
      obtain ⟨s', hs'⟩ := hgo x xs s hx
      rw [hs'] at h
      exact List.forall_mem_cons.mpr ⟨hx, not_raised_of_ok raised f hraise hgo h⟩

end DuckLake
