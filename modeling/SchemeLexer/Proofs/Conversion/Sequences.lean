import Mathlib.Data.List.Forall2
import SchemeLexer.Conversion
/-!
# Sequences of values

A sequence of values is converted as a whole or not at all. It is converted if every element is, in
the representation of the first one; otherwise the fault is that of the first element that fails,
and the elements after it do not matter.
-/

namespace SchemeLexer

/-! ## Computations one after the other -/

section

variable {α β ε : Type}

theorem bind_eq_ok_iff {first : Except ε α} {next : α → Except ε β} {b : β} :
    (first >>= next) = .ok b ↔ ∃ a, first = .ok a ∧ next a = .ok b := by
  cases first <;> simp [bind, Except.bind]

theorem bind_eq_error_iff {first : Except ε α} {next : α → Except ε β} {e : ε} :
    (first >>= next) = .error e ↔
      first = .error e ∨ ∃ a, first = .ok a ∧ next a = .error e := by
  cases first <;> simp [bind, Except.bind]

theorem map_eq_error_iff {found : Except ε α} {f : α → β} {e : ε} :
    found.map f = .error e ↔ found = .error e := by
  cases found <;> simp [Except.map]

variable {f : α → Except ε β} {xs : List α}

theorem mapM_eq_ok_iff {ys : List β} :
    xs.mapM f = .ok ys ↔ List.Forall₂ (fun x y => f x = .ok y) xs ys := by
  induction xs generalizing ys with
  | nil => simp [pure, Except.pure, eq_comm]
  | cons x xs ih =>
      simp only [List.mapM_cons, bind_eq_ok_iff, List.forall₂_cons_left_iff, ih]
      constructor
      · rintro ⟨y, hx, rest, hxs, ⟨⟩⟩
        exact ⟨y, rest, hx, hxs, rfl⟩
      · rintro ⟨y, rest, hx, hxs, rfl⟩
        exact ⟨y, hx, rest, hxs, rfl⟩

theorem mapM_cons_eq_error_iff {x : α} {e : ε} :
    (x :: xs).mapM f = .error e ↔
      f x = .error e ∨ (∃ y, f x = .ok y) ∧ xs.mapM f = .error e := by
  simp only [List.mapM_cons, bind_eq_error_iff]
  constructor
  · rintro (hx | ⟨y, hx, hxs | ⟨rest, hxs, ⟨⟩⟩⟩)
    · exact Or.inl hx
    · exact Or.inr ⟨⟨y, hx⟩, hxs⟩
  · rintro (hx | ⟨⟨y, hx⟩, hxs⟩)
    · exact Or.inl hx
    · exact Or.inr ⟨y, hx, Or.inl hxs⟩

/-- The first computation that fails decides: those before it succeed, and those after it are not
looked at. -/
theorem mapM_eq_error_iff {e : ε} :
    xs.mapM f = .error e ↔
      ∃ (i : Nat) (h : i < xs.length), f xs[i] = .error e ∧
        ∀ (j : Nat) (hj : j < xs.length), j < i → ∃ y, f xs[j] = .ok y := by
  induction xs with
  | nil =>
      refine iff_of_false (by rintro ⟨⟩) ?_
      rintro ⟨i, h, -⟩
      exact Nat.not_lt_zero i h
  | cons x xs ih =>
      rw [mapM_cons_eq_error_iff, ih]
      constructor
      · rintro (hx | ⟨hx, i, h, hfail, hbefore⟩)
        · exact ⟨0, Nat.zero_lt_succ _, hx, fun j _ hj => absurd hj (Nat.not_lt_zero j)⟩
        · refine ⟨i + 1, Nat.succ_lt_succ h, hfail, ?_⟩
          intro j hj hji
          cases j with
          | zero => exact hx
          | succ j => exact hbefore j (Nat.lt_of_succ_lt_succ hj) (Nat.lt_of_succ_lt_succ hji)
      · rintro ⟨i, h, hfail, hbefore⟩
        cases i with
        | zero => exact Or.inl hfail
        | succ i =>
            refine Or.inr ⟨hbefore 0 (Nat.zero_lt_succ _) (Nat.zero_lt_succ i), i,
              Nat.lt_of_succ_lt_succ h, hfail, ?_⟩
            intro j hj hji
            exact hbefore (j + 1) (Nat.succ_lt_succ hj) (Nat.succ_lt_succ hji)

end

/-! ## Values -/

namespace Representation

variable [Budget]

theorem decodeAll_cons_eq_ok_iff {first : Value} {rest : List Value} {tokens : List Record}
    {form : Option Representation} :
    decodeAll (first :: rest) = .ok (tokens, form) ↔
      ∃ r, form = some r ∧ detect first = .ok r ∧ (first :: rest).mapM r.decode = .ok tokens := by
  simp only [decodeAll, bind_eq_ok_iff]
  constructor
  · rintro ⟨r, hr, found, hall, ⟨⟩⟩
    exact ⟨r, rfl, hr, hall⟩
  · rintro ⟨r, rfl, hr, hall⟩
    exact ⟨r, hr, tokens, hall, rfl⟩

theorem decodeAll_cons_eq_error_iff {first : Value} {rest : List Value} {fault : Fault} :
    decodeAll (first :: rest) = .error fault ↔
      detect first = .error fault ∨
        ∃ r, detect first = .ok r ∧ (first :: rest).mapM r.decode = .error fault := by
  simp only [decodeAll, bind_eq_error_iff]
  constructor
  · rintro (hr | ⟨r, hr, hall | ⟨found, hall, ⟨⟩⟩⟩)
    · exact Or.inl hr
    · exact Or.inr ⟨r, hr, hall⟩
  · rintro (hr | ⟨r, hr, hall⟩)
    · exact Or.inl hr
    · exact Or.inr ⟨r, hr, Or.inl hall⟩

/-- Values are converted all together, in the representation of the first of them, or not at all:
then the fault is that the first one is in no representation, or else that of the first one that is
not converted. -/
theorem decodeAll_all_or_first_fault (first : Value) (rest : List Value) :
    (∀ tokens form, decodeAll (first :: rest) = .ok (tokens, form) ↔
      ∃ r, form = some r ∧ detect first = .ok r ∧ tokens.length = (first :: rest).length ∧
        ∀ (i : Nat) (h : i < (first :: rest).length) (h' : i < tokens.length),
          r.decode (first :: rest)[i] = .ok tokens[i]) ∧
    ∀ fault, decodeAll (first :: rest) = .error fault ↔
      detect first = .error fault ∨
      ∃ r, detect first = .ok r ∧
        ∃ (i : Nat) (h : i < (first :: rest).length),
          r.decode (first :: rest)[i] = .error fault ∧
          ∀ (j : Nat) (hj : j < (first :: rest).length), j < i →
            ∃ t, r.decode (first :: rest)[j] = .ok t := by
  constructor
  · intro tokens form
    simp only [decodeAll_cons_eq_ok_iff, mapM_eq_ok_iff, List.forall₂_iff_get,
      List.get_eq_getElem, eq_comm (a := tokens.length)]
  · intro fault
    simp only [decodeAll_cons_eq_error_iff, mapM_eq_error_iff]

end Representation

end SchemeLexer
