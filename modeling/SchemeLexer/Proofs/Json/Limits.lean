import Mathlib.Algebra.Group.Nat.Defs
import Mathlib.Data.List.Induction
import Mathlib.Data.List.TakeWhile
import Mathlib.Tactic.SplitIfs
import SchemeLexer.Json.Token
import SchemeLexer.Proofs.Value.Depth
/-!
# What is read keeps the limits

Integers of too many digits and containers that are nested too deeply are not read, so a value that
JSON text denotes is plain, and its parts can be described. The invariant of reading is about the
place of a value: one inside so many open containers has at most as many levels as these leave.
-/

namespace SchemeLexer

/-! ## Integers -/

theorem Decimal.value_lt {digits : List Char} (h : ∀ c ∈ digits, Charset.isDigit c = true) :
    Decimal.value digits < 10 ^ digits.length := by
  induction digits using List.reverseRecOn with
  | nil => simp [value]
  | append_singleton digits d ih =>
      rw [List.forall_mem_append, List.forall_mem_singleton] at h
      have hdigits := ih h.1
      have hd : d.toNat - '0'.toNat ≤ 9 := by
        have hclass := h.2
        simp only [Charset.isDigit, Bool.and_eq_true, decide_eq_true_eq, Char.le_def,
          UInt32.le_iff_toNat_le] at hclass
        have h9 : '9'.val.toNat = 57 := rfl
        have h0 : '0'.toNat = 48 := rfl
        have htoNat : d.toNat = d.val.toNat := rfl
        omega
      simp only [value, List.foldl_append, List.foldl_cons, List.foldl_nil, List.length_append,
        List.length_singleton] at hdigits ⊢
      rw [Nat.pow_succ]
      omega

theorem Decimal.isDigit_of_readDigits? {text digits rest : List Char}
    (h : readDigits? text = some (digits, rest)) : ∀ c ∈ digits, Charset.isDigit c = true := by
  unfold readDigits? at h
  split at h
  · cases h
  · next d ds htake =>
      cases h
      rw [← htake]
      exact fun c hc => List.mem_takeWhile_imp hc

theorem Decimal.isDigit_of_read? {text rest : List Char} {n : Decimal.Numeral}
    (h : read? text = some (n, rest)) : ∀ c ∈ n.whole, Charset.isDigit c = true := by
  simp only [read?, Option.bind_eq_bind, Option.pure_def, Option.bind_eq_some_iff] at h
  obtain ⟨⟨whole, afterWhole⟩, hwhole, h⟩ := h
  cases h
  unfold readWhole? at hwhole
  split at hwhole
  · cases hwhole
    exact List.forall_mem_singleton.2 (by decide)
  · exact isDigit_of_readDigits? hwhole

namespace Json

variable [Budget]

theorem plain_readNumber {text rest : List CodePoint} {v : Value}
    (h : readNumber .standard text = .ok (v, rest)) : v.Plain ∧ v.depth = 1 := by
  unfold readNumber at h
  split at h
  · cases h
  · next n rest hread =>
      split_ifs at h with hinteger hexceeds
      · cases h
        refine ⟨?_, rfl⟩
        have hlength : n.whole.length ≤ digitLimit := by
          simpa [Limits.standard, exceeds] using hexceeds
        have hvalue := Decimal.value_lt (Decimal.isDigit_of_read? hread)
        have habs : n.toInt.natAbs = Decimal.value n.whole := by
          unfold Decimal.Numeral.toInt
          split <;> simp
        show (Nat.toDigits 10 n.toInt.natAbs).length ≤ digitLimit
        rw [habs, Nat.length_toDigits_le_iff (by decide) (by decide)]
        exact Nat.lt_of_lt_of_le hvalue (Nat.pow_le_pow_right (by decide) hlength)
      · cases h
        exact ⟨trivial, rfl⟩

theorem plain_readScalar {text rest : List CodePoint} {v : Value}
    (h : readScalar .standard text = .ok (v, rest)) : v.Plain ∧ v.depth = 1 := by
  unfold readScalar at h
  split at h
  · next tail =>
      cases hread : readString (.char '"' :: tail) [] [] tail with
      | error e => rw [hread] at h; cases h
      | ok found =>
          rw [hread] at h
          cases h
          exact ⟨trivial, rfl⟩
  · split at h
    · next hword =>
        obtain ⟨⟨word, value⟩, hfind, heq⟩ := Option.map_eq_some_iff.1 hword
        have hmem := List.mem_of_find?_eq_some hfind
        cases h
        cases heq
        simp only [words, List.mem_cons, List.not_mem_nil, or_false, Prod.mk.injEq] at hmem
        rcases hmem with ⟨-, rfl⟩ | ⟨-, rfl⟩ | ⟨-, rfl⟩ | ⟨-, rfl⟩ | ⟨-, rfl⟩ | ⟨-, rfl⟩ <;>
          exact ⟨trivial, rfl⟩
    · exact plain_readNumber h

/-! ## The invariant -/

/-- A plain value that is not too deep for a place inside so many containers. -/
def Fits (level : Nat) (v : Value) : Prop :=
  v.Plain ∧ v.depth + level ≤ Budget.depth + 1

def FitsEntries (level : Nat) (entries : List (Value × Value)) : Prop :=
  ∀ e ∈ entries, Fits level e.1 ∧ Fits level e.2

/-- Open containers, none of them too deep, with parts that fit. -/
def FitsStack : List Frame → Prop
  | [] => True
  | .array items :: stack =>
      stack.length < Budget.depth ∧ (∀ v ∈ items, Fits (stack.length + 1) v) ∧ FitsStack stack
  | .object members _ :: stack =>
      stack.length < Budget.depth ∧ FitsEntries (stack.length + 1) members ∧ FitsStack stack

def State.Fits : State → Prop
  | .value stack => FitsStack stack
  | .opened stack => stack.length < Budget.depth ∧ FitsStack stack
  | .key _ members stack =>
      stack.length < Budget.depth ∧ FitsEntries (stack.length + 1) members ∧ FitsStack stack
  | .colon members _ stack =>
      stack.length < Budget.depth ∧ FitsEntries (stack.length + 1) members ∧ FitsStack stack
  | .complete v stack => Json.Fits stack.length v ∧ FitsStack stack

theorem FitsStack.length_le {stack : List Frame} (h : FitsStack stack) :
    stack.length ≤ Budget.depth := by
  cases stack with
  | nil => exact Nat.zero_le _
  | cons frame stack =>
      cases frame with
      | array items => exact h.1
      | object members key => exact h.1

theorem fits_scalar {level : Nat} {v : Value} (hv : v.Plain ∧ v.depth = 1)
    (hlevel : level ≤ Budget.depth) : Fits level v :=
  ⟨hv.1, by rw [hv.2]; omega⟩

theorem fits_list {level : Nat} {items : List Value} (hlevel : level < Budget.depth)
    (h : ∀ v ∈ items, Fits (level + 1) v) : Fits level (.list items) := by
  refine ⟨Value.everywhereAll_iff.2 fun v hv => (h v hv).1, ?_⟩
  have hdepth : Value.depthAll items ≤ Budget.depth - level := by
    rw [Value.depthAll_le_iff]
    intro v hv
    have hfits := (h v hv).2
    omega
  rw [Value.depth]
  omega

theorem fits_dict {level : Nat} {entries : List (Value × Value)} (hlevel : level < Budget.depth)
    (h : FitsEntries (level + 1) entries) : Fits level (.dict entries) := by
  refine ⟨Value.everywhereEntries_iff.2 fun e he => ⟨(h e he).1.1, (h e he).2.1⟩, ?_⟩
  have hdepth : Value.depthEntries entries ≤ Budget.depth - level := by
    rw [Value.depthEntries_le_iff]
    intro e he
    have hkey := (h e he).1.2
    have hvalue := (h e he).2.2
    omega
  rw [Value.depth]
  omega

theorem fitsEntries_put {level : Nat} {members : List (Value × Value)} {v : Value}
    (hlevel : level ≤ Budget.depth) (key : Text) (hv : Fits level v)
    (h : FitsEntries level members) : FitsEntries level (Value.put (.text key) v members) :=
  Value.forall_mem_put (fits_scalar (v := .text key) ⟨trivial, rfl⟩ hlevel) hv h

/-! ## One step -/

theorem fits_openContainer {container : Container} {stack : List Frame} {s : State}
    (hstack : FitsStack stack) (h : openContainer .standard container stack = .ok s) :
    s.Fits := by
  unfold openContainer at h
  split_ifs at h with hdepth
  have hlevel : stack.length < Budget.depth := by
    simp only [Limits.standard, exceeds, decide_eq_true_eq] at hdepth
    omega
  cases container with
  | array =>
      cases h
      exact ⟨hlevel, hstack⟩
  | object =>
      cases h
      exact ⟨hlevel, by simp [FitsEntries], hstack⟩

theorem fits_beginValue {stack : List Frame} {p : CodePoint} {rest left : List CodePoint}
    {s : State} (hstack : FitsStack stack)
    (h : beginValue .standard stack p rest = .ok (s, left)) :
    s.Fits := by
  unfold beginValue at h
  split_ifs at h with harray hobject
  · cases hopen : openContainer .standard .array stack with
    | error e => rw [hopen] at h; cases h
    | ok opened =>
        rw [hopen] at h
        cases h
        exact fits_openContainer hstack hopen
  · cases hopen : openContainer .standard .object stack with
    | error e => rw [hopen] at h; cases h
    | ok opened =>
        rw [hopen] at h
        cases h
        exact fits_openContainer hstack hopen
  · cases hread : readScalar .standard (p :: rest) with
    | error e => rw [hread] at h; cases h
    | ok found =>
        rw [hread] at h
        cases h
        exact ⟨fits_scalar (plain_readScalar hread) hstack.length_le, hstack⟩

theorem fits_afterValue {v : Value} {stack : List Frame} {p : CodePoint}
    {rest left : List CodePoint} {s : State} (hv : Fits stack.length v) (hstack : FitsStack stack)
    (h : afterValue v stack p rest = .ok (s, left)) : s.Fits := by
  unfold afterValue at h
  split at h
  · cases h
  · next items stack =>
      obtain ⟨hlevel, hitems, hrest⟩ := hstack
      have hall : ∀ w ∈ v :: items, Fits (stack.length + 1) w :=
        List.forall_mem_cons.2 ⟨hv, hitems⟩
      split_ifs at h with hcomma hclose
      · cases h
        exact ⟨hlevel, hall, hrest⟩
      · cases h
        refine ⟨fits_list hlevel ?_, hrest⟩
        intro w hw
        exact hall w (List.mem_reverse.1 hw)
  · next members key stack =>
      obtain ⟨hlevel, hmembers, hrest⟩ := hstack
      have hall := fitsEntries_put (Nat.succ_le_of_lt hlevel) key hv hmembers
      dsimp only at h
      split_ifs at h with hcomma hclose
      · cases h
        exact ⟨hlevel, hall, hrest⟩
      · cases h
        exact ⟨fits_dict hlevel hall, hrest⟩

theorem fits_item {s after : State} {p : CodePoint} {rest left : List CodePoint} (hs : s.Fits)
    (h : item .standard s p rest = .ok (after, left)) : after.Fits := by
  unfold item at h
  split at h
  · exact fits_beginValue hs h
  · next stack =>
      split_ifs at h with hclose
      · cases h
        exact ⟨fits_list hs.1 (by simp), hs.2⟩
      · have hstack : FitsStack (.array [] :: stack) := ⟨hs.1, by simp, hs.2⟩
        exact fits_beginValue hstack h
  · split_ifs at h with hclose hquote
    · cases h
      exact ⟨fits_dict hs.1 (by simp [FitsEntries]), hs.2.2⟩
    · cases hread : readString (p :: rest) [] [] rest with
      | error e => rw [hread] at h; cases h
      | ok found =>
          rw [hread] at h
          cases h
          exact hs
  · split_ifs at h with hcolon
    cases h
    exact hs
  · exact fits_afterValue hs.1 hs.2 h

theorem fits_step {s after : State} {p : CodePoint} {rest left : List CodePoint} (hs : s.Fits)
    (h : step .standard s p rest = .ok (after, left)) : after.Fits := by
  unfold step at h
  split_ifs at h with hblank
  · cases h
    exact hs
  · exact fits_item hs h

/-! ## Whole texts -/

theorem fits_run {s : State} {text : List CodePoint} {v : Value} (hs : s.Fits)
    (h : run .standard s text = .ok v) : Fits 0 v := by
  fun_induction run .standard s text with
  | case1 s =>
      unfold finish at h
      split at h
      all_goals cases h
      exact hs.1
  | case2 => cases h
  | case3 s p tail after rest hstep ih => exact ih (fits_step hs hstep) h

theorem fits_read {text : List CodePoint} {v : Value} (h : read .standard text = .ok v) :
    Fits 0 v :=
  fits_run (s := .value []) trivial h

theorem fits_load {source : Source} {v : Value} (h : load source = .ok v) : Fits 0 v := by
  unfold load at h
  split at h
  · next s =>
      split at h
      · next found hparse =>
          cases h
          unfold parse at hparse
          split_ifs at hparse with hmark
          exact fits_read hparse
      · cases h
  · split at h
    · cases h
    · split at h
      · next found hread =>
          cases h
          exact fits_read hread
      · cases h

end Json

end SchemeLexer
