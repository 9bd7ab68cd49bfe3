import SchemeLexer.Value.Description
import SchemeLexer.Value.Equality
/-!
# The depth of values

A value whose records are tokens, and which holds no integer of too many digits, has a description
unless it is nested too deeply, and that is then the only thing wrong with it. With other literals
in its records their lengths can be wrong too. How deep a value is, and what puts an entry into a
dictionary does to its parts, is said here for the whole of a value.
-/

namespace SchemeLexer

/-- A defect of what stands in the place of a literal: it has no length, or one that is too much to
be shown. -/
def Defect.OfLiteral : Defect → Prop
  | .unsized _ => True
  | .longSequence _ => True
  | .longBytes => True
  | .longDictionary => True
  | _ => False

namespace Value

/-! ## Plain values and their depth -/

mutual

/-- What holds of every record and of every part that has no parts itself. -/
def Everywhere (p : Value → Prop) : Value → Prop
  | .list items => EverywhereAll p items
  | .tuple items => EverywhereAll p items
  | .dict entries => EverywhereEntries p entries
  | .record inPlace literal =>
      p (.record inPlace literal) ∧ inPlace.Everywhere p ∧ literal.Everywhere p
  | v => p v

def EverywhereAll (p : Value → Prop) : List Value → Prop
  | [] => True
  | v :: rest => v.Everywhere p ∧ EverywhereAll p rest

def EverywhereEntries (p : Value → Prop) : List (Value × Value) → Prop
  | [] => True
  | (k, v) :: rest => k.Everywhere p ∧ v.Everywhere p ∧ EverywhereEntries p rest

end

def KindedPart : Value → Prop
  | .int n => (Nat.toDigits 10 n.natAbs).length ≤ digitLimit
  | .record (.kind _) _ => True
  | .record _ _ => False
  | _ => True

def PlainPart : Value → Prop
  | .int n => (Nat.toDigits 10 n.natAbs).length ≤ digitLimit
  | .record (.kind _) .null => True
  | .record (.kind _) (.text _) => True
  | .record _ _ => False
  | _ => True

/-- A value without records that lack a kind and without integers of too many digits, at any
depth. -/
def Kinded (v : Value) : Prop := v.Everywhere KindedPart

/-- A value whose records are tokens, and without integers of too many digits, at any depth. -/
def Plain (v : Value) : Prop := v.Everywhere PlainPart

mutual

/-- The number of levels of a value: one for a value without parts and for a token, and one more
than the deepest part otherwise. -/
def depth : Value → Nat
  | .list items => depthAll items + 1
  | .tuple items => depthAll items + 1
  | .dict entries => depthEntries entries + 1
  | .record _ .null => 1
  | .record _ (.text _) => 1
  | .record _ literal => literal.depth + 1
  | _ => 1

def depthAll : List Value → Nat
  | [] => 0
  | v :: rest => max v.depth (depthAll rest)

def depthEntries : List (Value × Value) → Nat
  | [] => 0
  | (k, v) :: rest => max k.depth (max v.depth (depthEntries rest))

end

theorem everywhereAll_iff {p : Value → Prop} {items : List Value} :
    EverywhereAll p items ↔ ∀ v ∈ items, v.Everywhere p := by
  induction items with
  | nil => simp [EverywhereAll]
  | cons v rest ih => simp [EverywhereAll, ih]

theorem everywhereEntries_iff {p : Value → Prop} {entries : List (Value × Value)} :
    EverywhereEntries p entries ↔ ∀ e ∈ entries, e.1.Everywhere p ∧ e.2.Everywhere p := by
  induction entries with
  | nil => simp [EverywhereEntries]
  | cons e rest ih => simp [EverywhereEntries, ih, and_assoc]

theorem kindedPart_of_plainPart : ∀ v, PlainPart v → KindedPart v
  | .int _, h => h
  | .record (.kind _) _, _ => trivial
  | .record .null _, h | .record (.bool _) _, h | .record (.int _) _, h | .record (.float _) _, h
  | .record (.text _) _, h | .record (.bytes _) _, h | .record (.list _) _, h
  | .record (.tuple _) _, h | .record (.dict _) _, h | .record (.record _ _) _, h
  | .record (.representation _) _, h => h.elim
  | .null, _ | .bool _, _ | .float _, _ | .text _, _ | .bytes _, _ | .list _, _ | .tuple _, _
  | .dict _, _ | .kind _, _ | .representation _, _ => trivial

mutual

theorem Everywhere.mono {p q : Value → Prop} (hpq : ∀ v, p v → q v) :
    (v : Value) → v.Everywhere p → v.Everywhere q
  | .list items, h => EverywhereAll.mono hpq items h
  | .tuple items, h => EverywhereAll.mono hpq items h
  | .dict entries, h => EverywhereEntries.mono hpq entries h
  | .record inPlace literal, h =>
      ⟨hpq _ h.1, Everywhere.mono hpq inPlace h.2.1, Everywhere.mono hpq literal h.2.2⟩
  | .null, h | .bool _, h | .int _, h | .float _, h | .text _, h | .bytes _, h | .kind _, h
  | .representation _, h => hpq _ h

theorem EverywhereAll.mono {p q : Value → Prop} (hpq : ∀ v, p v → q v) :
    (items : List Value) → EverywhereAll p items → EverywhereAll q items
  | [], _ => trivial
  | v :: rest, h => ⟨Everywhere.mono hpq v h.1, EverywhereAll.mono hpq rest h.2⟩

theorem EverywhereEntries.mono {p q : Value → Prop} (hpq : ∀ v, p v → q v) :
    (entries : List (Value × Value)) → EverywhereEntries p entries → EverywhereEntries q entries
  | [], _ => trivial
  | (k, v) :: rest, h =>
      ⟨Everywhere.mono hpq k h.1, Everywhere.mono hpq v h.2.1,
        EverywhereEntries.mono hpq rest h.2.2⟩

end

theorem Plain.kinded {v : Value} (h : v.Plain) : v.Kinded :=
  Everywhere.mono kindedPart_of_plainPart v h

theorem depthAll_le_iff {items : List Value} {n : Nat} :
    depthAll items ≤ n ↔ ∀ v ∈ items, v.depth ≤ n := by
  induction items with
  | nil => simp [depthAll]
  | cons v rest ih => rw [depthAll, Nat.max_le, ih, List.forall_mem_cons]

theorem depthEntries_le_iff {entries : List (Value × Value)} {n : Nat} :
    depthEntries entries ≤ n ↔ ∀ e ∈ entries, e.1.depth ≤ n ∧ e.2.depth ≤ n := by
  induction entries with
  | nil => simp [depthEntries]
  | cons e rest ih => rw [depthEntries, Nat.max_le, Nat.max_le, ih, List.forall_mem_cons, and_assoc]

theorem depth_pos (v : Value) : 0 < v.depth := by
  unfold depth
  split <;> omega

def nested : Nat → Value
  | 0 => .list []
  | n + 1 => .list [nested n]

theorem plain_nested (n : Nat) : (nested n).Plain := by
  induction n with
  | zero => trivial
  | succ n ih => exact ⟨ih, trivial⟩

theorem depth_nested (n : Nat) : (nested n).depth = n + 1 := by
  induction n with
  | zero => rfl
  | succ n ih => rw [nested, depth, depthAll, depthAll, ih, Nat.max_zero]

/-! ## Parts -/

/-- What holds of all keys and values of a dictionary, and of an entry that is put into it, holds
of all its keys and values afterwards. -/
theorem forall_mem_put {p : Value → Prop} {key value : Value} (hkey : p key) (hvalue : p value)
    {entries : List (Value × Value)} (h : ∀ e ∈ entries, p e.1 ∧ p e.2) :
    ∀ e ∈ put key value entries, p e.1 ∧ p e.2 := by
  induction entries with
  | nil => simp [put, hkey, hvalue]
  | cons e rest ih =>
      obtain ⟨k, v⟩ := e
      obtain ⟨⟨hk, hv⟩, hrest⟩ := List.forall_mem_cons.1 h
      rw [put]
      split
      · exact List.forall_mem_cons.2 ⟨⟨hk, hvalue⟩, hrest⟩
      · exact List.forall_mem_cons.2 ⟨⟨hk, hv⟩, ih hrest⟩

theorem mem_of_lookup? {entries : List (Value × Value)} {key : String} {v : Value}
    (h : lookup? entries key = some v) : ∃ k, (k, v) ∈ entries := by
  obtain ⟨⟨k, found⟩, hfind, rfl⟩ := Option.map_eq_some_iff.1 h
  exact ⟨k, List.mem_of_find?_eq_some hfind⟩

theorem everywhere_of_lookup? {p : Value → Prop} {entries : List (Value × Value)} {key : String}
    {v : Value} (hentries : (Value.dict entries).Everywhere p) (h : lookup? entries key = some v) :
    v.Everywhere p := by
  obtain ⟨k, hmem⟩ := mem_of_lookup? h
  exact (everywhereEntries_iff.1 hentries (k, v) hmem).2

theorem depth_lt_of_lookup? {entries : List (Value × Value)} {key : String} {v : Value}
    (h : lookup? entries key = some v) : v.depth < (Value.dict entries).depth := by
  obtain ⟨k, hmem⟩ := mem_of_lookup? h
  rw [depth, Nat.lt_succ_iff]
  exact (depthEntries_le_iff.1 (Nat.le_refl _) (k, v) hmem).2

/-! ## Descriptions -/

/-- What comes of following a value of the given depth to so many levels: it succeeds if they
suffice, and otherwise the depth is what is wrong, or else a literal if there is an odd one. -/
def Followed {α : Type} (levels depth : Nat) (odd : Prop) : Except Defect α → Prop
  | .ok _ => depth ≤ levels
  | .error defect => defect = .tooDeep ∧ levels < depth ∨ defect.OfLiteral ∧ odd

namespace Followed

variable {α β : Type} {levels depth : Nat} {odd : Prop} {found : Except Defect α}

theorem succ (h : Followed levels depth odd found) :
    Followed (levels + 1) (depth + 1) odd found := by
  cases found with
  | error defect => exact h.imp_left fun hdeep => ⟨hdeep.1, Nat.succ_lt_succ hdeep.2⟩
  | ok a => exact Nat.succ_le_succ h

theorem imp {odd' : Prop} (hodd : odd → odd') (h : Followed levels depth odd found) :
    Followed levels depth odd' found := by
  cases found with
  | error defect => exact h.imp_right fun hliteral => ⟨hliteral.1, hodd hliteral.2⟩
  | ok a => exact h

/-- The first of two parts is followed before the second. -/
theorem seq {m n : Nat} {odd odd' : Prop} {first : Except Defect α} {second : α → Except Defect β}
    (h : Followed levels m odd first) (h' : ∀ a, Followed levels n odd' (second a)) :
    Followed levels (max m n) (odd ∨ odd') (first >>= second) := by
  cases first with
  | error defect =>
      rcases h with ⟨hdefect, hlevels⟩ | ⟨hdefect, hodd⟩
      · exact Or.inl ⟨hdefect, Nat.lt_of_lt_of_le hlevels (Nat.le_max_left m n)⟩
      · exact Or.inr ⟨hdefect, Or.inl hodd⟩
  | ok a =>
      have hbind : (Except.ok a >>= second) = second a := rfl
      have hsecond := h' a
      rw [hbind]
      cases hb : second a with
      | error defect =>
          rw [hb] at hsecond
          rcases hsecond with ⟨hdefect, hlevels⟩ | ⟨hdefect, hodd⟩
          · exact Or.inl ⟨hdefect, Nat.lt_of_lt_of_le hlevels (Nat.le_max_right m n)⟩
          · exact Or.inr ⟨hdefect, Or.inr hodd⟩
      | ok b =>
          rw [hb] at hsecond
          exact Nat.max_le.2 ⟨h, hsecond⟩

/-- What is made of the parts does not matter as long as it cannot fail. -/
theorem bind_ok {f : α → Except Defect β} (h : Followed levels depth odd found)
    (hf : ∀ a, ∃ b, f a = .ok b) : Followed levels depth odd (found >>= f) := by
  cases found with
  | error defect => exact h
  | ok a =>
      obtain ⟨b, hb⟩ := hf a
      have hbind : (Except.ok a >>= f) = f a := rfl
      rw [hbind, hb]
      exact h

theorem eq_error (h : Followed levels depth odd found) (hodd : ¬ odd) (hdepth : levels < depth) :
    found = .error .tooDeep := by
  cases found with
  | ok a => exact absurd hdepth (Nat.not_lt.2 h)
  | error defect =>
      rcases h with ⟨rfl, -⟩ | ⟨-, hliteral⟩
      · rfl
      · exact absurd hliteral hodd

end Followed

theorem followed_describeInt {n : Int} (levels : Nat) {odd : Prop}
    (h : (Nat.toDigits 10 n.natAbs).length ≤ digitLimit) :
    Followed (levels + 1) 1 odd (describeInt n) := by
  have hdigits : ¬ digitLimit < (Nat.toDigits 10 n.natAbs).length := Nat.not_lt.2 h
  simp only [describeInt, if_neg hdigits]
  exact Nat.le_add_left 1 levels

theorem checkLength_cases (limit : Nat) (v : Value) :
    v.checkLength limit = .ok () ∨
      ∃ defect, v.checkLength limit = .error defect ∧ defect.OfLiteral := by
  cases v with
  | null => exact Or.inl rfl
  | text s => exact Or.inl rfl
  | bytes content =>
      rw [checkLength]
      split
      · exact Or.inr ⟨_, rfl, trivial⟩
      · exact Or.inl rfl
  | list items =>
      rw [checkLength]
      split
      · exact Or.inr ⟨_, rfl, trivial⟩
      · exact Or.inl rfl
  | tuple items =>
      rw [checkLength]
      split
      · exact Or.inr ⟨_, rfl, trivial⟩
      · exact Or.inl rfl
  | dict entries =>
      rw [checkLength]
      split
      · exact Or.inr ⟨_, rfl, trivial⟩
      · exact Or.inl rfl
  | _ => exact Or.inr ⟨_, rfl, trivial⟩

/-- A literal is followed one level further than its record, once its length has been looked at. -/
theorem followed_literal {levels : Nat} {literal : Value} {odd : Prop} (f : String → String)
    (h : Followed levels literal.depth odd (literal.describeTo levels)) :
    Followed (levels + 1) (literal.depth + 1) True do
      literal.checkLength literalLimit
      let text ← literal.describeTo levels
      return f text := by
  rcases checkLength_cases literalLimit literal with hlength | ⟨defect, hlength, hdefect⟩
  · rw [hlength]
    exact ((h.imp fun _ => trivial).bind_ok fun _ => ⟨_, rfl⟩).succ
  · rw [hlength]
    exact Or.inr ⟨hdefect, trivial⟩

theorem followed_record {levels : Nat} (k : Kind) {literal : Value}
    (h : Followed levels literal.depth (¬ literal.Plain) (literal.describeTo levels)) :
    Followed (levels + 1) (Value.record (.kind k) literal).depth
      (¬ (Value.record (.kind k) literal).Plain)
      (describeTo (levels + 1) (.record (.kind k) literal)) := by
  cases literal with
  | null => exact Nat.le_add_left 1 levels
  | text s => exact Nat.le_add_left 1 levels
  | _ => exact (followed_literal (recordDescription k.name) h).imp fun _ hplain => hplain.1

mutual

theorem followed_describeTo : (levels : Nat) → (v : Value) → v.Kinded →
    Followed levels v.depth (¬ v.Plain) (v.describeTo levels)
  | 0, v, _ => by
      rw [describeTo]
      exact Or.inl ⟨rfl, v.depth_pos⟩
  | levels + 1, .int n, h => by
      rw [describeTo]
      exact followed_describeInt levels h
  | levels + 1, .list items, h => by
      rw [describeTo]
      exact ((followed_describeItems levels items h).bind_ok fun _ => ⟨_, rfl⟩).succ
  | levels + 1, .tuple items, h => by
      rw [describeTo]
      refine ((followed_describeItems levels items h).bind_ok ?_).succ
      intro texts
      split <;> exact ⟨_, rfl⟩
  | levels + 1, .dict entries, h => by
      rw [describeTo]
      exact ((followed_describeEntries levels entries h).bind_ok fun _ => ⟨_, rfl⟩).succ
  | levels + 1, .null, _ | levels + 1, .bool _, _ | levels + 1, .float _, _
  | levels + 1, .text _, _ | levels + 1, .bytes _, _
  | levels + 1, .kind _, _ | levels + 1, .representation _, _ => by
      rw [describeTo]
      exact Nat.le_add_left 1 levels
  | levels + 1, .record (.kind k) literal, h =>
      followed_record k (followed_describeTo levels literal h.2.2)

theorem followed_describeItems : (levels : Nat) → (items : List Value) →
    EverywhereAll KindedPart items →
    Followed levels (depthAll items) (¬ EverywhereAll PlainPart items) (describeItems levels items)
  | levels, [], _ => by
      rw [describeItems]
      exact Nat.zero_le levels
  | levels, v :: rest, h => by
      have hfirst := followed_describeTo levels v h.1
      have hrest := followed_describeItems levels rest h.2
      rw [describeItems]
      refine (hfirst.seq fun _ => hrest.bind_ok fun _ => ⟨_, rfl⟩).imp ?_
      rintro (hv | hv) hall
      · exact hv hall.1
      · exact hv hall.2

theorem followed_describeEntries : (levels : Nat) → (entries : List (Value × Value)) →
    EverywhereEntries KindedPart entries →
    Followed levels (depthEntries entries) (¬ EverywhereEntries PlainPart entries)
      (describeEntries levels entries)
  | levels, [], _ => by
      rw [describeEntries]
      exact Nat.zero_le levels
  | levels, (k, v) :: rest, h => by
      have hkey := followed_describeTo levels k h.1
      have hvalue := followed_describeTo levels v h.2.1
      have hrest := followed_describeEntries levels rest h.2.2
      rw [describeEntries]
      refine (hkey.seq fun _ => hvalue.seq fun _ => hrest.bind_ok fun _ => ⟨_, rfl⟩).imp ?_
      rintro (hk | hv | hentries) hall
      · exact hk hall.1
      · exact hv hall.2.1
      · exact hentries hall.2.2

end

variable [Budget]

/-- What keeps a value from being shown: its depth, or a literal in it. -/
def Unshown (v : Value) (defect : Defect) : Prop :=
  defect = .tooDeep ∧ Budget.depth < v.depth ∨ defect.OfLiteral ∧ ¬ v.Plain

theorem describe_error_of_kinded {v : Value} {defect : Defect} (hkinded : v.Kinded)
    (h : v.describe = .error defect) : v.Unshown defect := by
  have hfollowed := followed_describeTo Budget.depth v hkinded
  rwa [← describe, h] at hfollowed

theorem Unshown.of_lookup? {entries : List (Value × Value)} {key : String} {v : Value}
    {defect : Defect} (h : v.Unshown defect) (hfind : lookup? entries key = some v) :
    (Value.dict entries).Unshown defect := by
  rcases h with ⟨hdefect, hdepth⟩ | ⟨hdefect, hodd⟩
  · exact Or.inl ⟨hdefect, Nat.lt_trans hdepth (depth_lt_of_lookup? hfind)⟩
  · exact Or.inr ⟨hdefect, fun hplain => hodd (everywhere_of_lookup? hplain hfind)⟩

end Value

end SchemeLexer
