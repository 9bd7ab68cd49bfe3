import SchemeLexer.Proofs.Json.Integers
import SchemeLexer.Proofs.Json.RoundTrip
/-!
# JSON text of any layout

A tree is what a JSON text holds, with the members of objects in the order in which they are
written. The items of a tree are the brackets, separators and scalars of its text, which is any text
that has them in their order with blanks between and around them. All these texts are read as one
value: the items of a tree lead the reader from expecting a value to having that of the tree,
whatever the blanks and the containers around it.
-/

namespace SchemeLexer

/-- The entries after members have been put among them, one after the other. -/
def Value.putMembers (members : List (Text × Value)) (entries : List (Value × Value)) :
    List (Value × Value) :=
  members.foldl (fun found m => put (.text m.1) m.2 found) entries

namespace Json

/-! ## Trees -/

/-- What a JSON text may hold. Strings may have surrogates, a key may occur in an object more than
once, and integers have no more digits than are read. -/
inductive Tree where
  | null
  | bool (b : Bool)
  | int (n : Int) (short : (Nat.toDigits 10 n.natAbs).length ≤ digitLimit)
  | text (points : List CodePoint)
  | array (trees : List Tree)
  | object (members : List (List CodePoint × Tree))

namespace Tree

mutual

def items : Tree → List (List Char)
  | .null => [['n', 'u', 'l', 'l']]
  | .bool true => [['t', 'r', 'u', 'e']]
  | .bool false => [['f', 'a', 'l', 's', 'e']]
  | .int n _ => [writtenInt n]
  | .text points => [writtenPoints points]
  | .array trees => ['['] :: ([[',']].intercalate (itemsAll trees) ++ [[']']])
  | .object members => ['\x7b'] :: ([[',']].intercalate (itemsMembers members) ++ [['\x7d']])

def itemsAll : List Tree → List (List (List Char))
  | [] => []
  | t :: rest => t.items :: itemsAll rest

def itemsMembers : List (List CodePoint × Tree) → List (List (List Char))
  | [] => []
  | (key, t) :: rest => (writtenPoints key :: [':'] :: t.items) :: itemsMembers rest

end

mutual

/-- The value of a tree. Of members with the same key the last one counts. -/
def value : Tree → Value
  | .null => .null
  | .bool b => .bool b
  | .int n _ => .int n
  | .text points => .text (CodePoint.joined points)
  | .array trees => .list (valueAll trees)
  | .object members => .dict (Value.putMembers (valueMembers members) [])

def valueAll : List Tree → List Value
  | [] => []
  | t :: rest => t.value :: valueAll rest

def valueMembers : List (List CodePoint × Tree) → List (Text × Value)
  | [] => []
  | (key, t) :: rest => (CodePoint.joined key, t.value) :: valueMembers rest

end

mutual

def depth : Tree → Nat
  | .array trees => depthAll trees + 1
  | .object members => depthMembers members + 1
  | _ => 0

def depthAll : List Tree → Nat
  | [] => 0
  | t :: rest => max t.depth (depthAll rest)

def depthMembers : List (List CodePoint × Tree) → Nat
  | [] => 0
  | (_, t) :: rest => max t.depth (depthMembers rest)

end

theorem itemsAll_eq_map (trees : List Tree) : itemsAll trees = trees.map items := by
  induction trees with
  | nil => rfl
  | cons t trees ih => rw [itemsAll, ih, List.map_cons]

def memberItems (m : List CodePoint × Tree) : List (List Char) :=
  writtenPoints m.1 :: [':'] :: m.2.items

theorem itemsMembers_eq_map (members : List (List CodePoint × Tree)) :
    itemsMembers members = members.map memberItems := by
  induction members with
  | nil => rfl
  | cons m members ih => rw [itemsMembers, ih, List.map_cons, memberItems]

theorem valueAll_eq_map (trees : List Tree) : valueAll trees = trees.map value := by
  induction trees with
  | nil => rfl
  | cons t trees ih => rw [valueAll, ih, List.map_cons]

def entry (m : List CodePoint × Tree) : Text × Value :=
  (CodePoint.joined m.1, m.2.value)

theorem valueMembers_eq_map (members : List (List CodePoint × Tree)) :
    valueMembers members = members.map entry := by
  induction members with
  | nil => rfl
  | cons m members ih => rw [valueMembers, ih, List.map_cons, entry]

theorem depthAll_le_iff {trees : List Tree} {n : Nat} :
    depthAll trees ≤ n ↔ ∀ t ∈ trees, t.depth ≤ n := by
  induction trees with
  | nil => simp [depthAll]
  | cons t trees ih => rw [depthAll, Nat.max_le, ih, List.forall_mem_cons]

theorem depthMembers_le_iff {members : List (List CodePoint × Tree)} {n : Nat} :
    depthMembers members ≤ n ↔ ∀ m ∈ members, m.2.depth ≤ n := by
  induction members with
  | nil => simp [depthMembers]
  | cons m members ih => rw [depthMembers, Nat.max_le, ih, List.forall_mem_cons]

/-- What holds of scalars, and of an array or an object if it holds of all trees in it, holds of
every tree. -/
theorem induction {p : Tree → Prop} (null : p .null) (bool : ∀ b, p (.bool b))
    (int : ∀ n short, p (.int n short)) (text : ∀ points, p (.text points))
    (array : ∀ trees, (∀ t ∈ trees, p t) → p (.array trees))
    (object : ∀ members, (∀ m ∈ members, p m.2) → p (.object members)) (t : Tree) : p t :=
  @Tree.rec p (fun trees => ∀ t ∈ trees, p t) (fun members => ∀ m ∈ members, p m.2)
    (fun m => p m.2) null bool int text array object (by simp)
    (fun _ _ ht htrees => List.forall_mem_cons.2 ⟨ht, htrees⟩) (by simp)
    (fun _ _ hm hmembers => List.forall_mem_cons.2 ⟨hm, hmembers⟩) (fun _ _ ht => ht) t

end Tree

/-- Items in their order, with any blanks before, between and after them. -/
inductive Spread : List (List Char) → List Char → Prop where
  | nil {blanks : List Char} : Blanks blanks → Spread [] blanks
  | cons {blanks item text : List Char} {items : List (List Char)} :
      Blanks blanks → Spread items text → Spread (item :: items) (blanks ++ (item ++ text))

/-- Items, each of them with the blanks before it, and the blanks after them all. -/
theorem spread_of_parts {items : List (List Char)} {text : List Char}
    (parts : List (List Char × List Char)) (after : List Char)
    (hparts : ∀ part ∈ parts, Blanks part.1) (hafter : Blanks after)
    (hitems : parts.map Prod.snd = items)
    (htext : parts.flatMap (fun part => part.1 ++ part.2) ++ after = text) :
    Spread items text := by
  subst hitems htext
  induction parts with
  | nil => exact .nil hafter
  | cons part parts ih =>
      obtain ⟨hpart, hparts⟩ := List.forall_mem_cons.1 hparts
      rw [List.flatMap_cons, List.append_assoc, List.append_assoc]
      exact .cons hpart (ih hparts)

/-- A spread text begins with a blank or as its first item does. -/
theorem Spread.head?_cases {items : List (List Char)} {text : List Char} {c : Char}
    (h : Spread items text) (hc : text.head? = some c) :
    isBlank c = true ∨
      ∃ item rest text', items = item :: rest ∧ (item ++ text').head? = some c := by
  cases h with
  | nil hblanks => exact Or.inl (hblanks c (List.mem_of_mem_head? hc))
  | @cons blanks item text' rest hblanks _ =>
      cases blanks with
      | nil => exact Or.inr ⟨item, rest, text', rfl, hc⟩
      | cons b blanks =>
          cases hc
          exact Or.inl (hblanks c List.mem_cons_self)

/-! ## Reading items -/

variable [Budget]

/-- In whatever way the items and those after them are spread, the reader goes from one state to
the other with the items, and has the others before it. -/
def Reads (s : State) (items more : List (List Char)) (next : State) : Prop :=
  ∀ text, Spread (items ++ more) text →
    ∃ rest, Spread more rest ∧ runPlain .standard s text = runPlain .standard next rest

variable {s mid next : State} {stack : List Frame} {items items' more : List (List Char)}

theorem reads_item {item : List Char}
    (h : ∀ rest, Spread more rest →
      runPlain .standard s (item ++ rest) = runPlain .standard next rest) :
    Reads s [item] more next := by
  intro text hspread
  cases hspread with
  | @cons blanks _ rest _ hblanks hrest =>
      exact ⟨rest, hrest, by rw [runPlain_blanks hblanks, h rest hrest]⟩

theorem Reads.trans (h : Reads s items (items' ++ more) mid) (h' : Reads mid items' more next) :
    Reads s (items ++ items') more next := by
  intro text hspread
  rw [List.append_assoc] at hspread
  obtain ⟨rest, hrest, hrun⟩ := h text hspread
  obtain ⟨rest', hrest', hrun'⟩ := h' rest hrest
  exact ⟨rest', hrest', by rw [hrun, hrun']⟩

theorem Reads.cons {item : List Char}
    (h : ∀ rest, runPlain .standard s (item ++ rest) = runPlain .standard mid rest)
    (h' : Reads mid items more next) : Reads s (item :: items) more next :=
  (reads_item fun rest _ => h rest).trans h'

/-! ## Scalars -/

/-- Nothing, or an item that may come after a value. -/
def Follows (more : List (List Char)) : Prop :=
  ∀ item ∈ more.head?, item ∈ [[','], [']'], ['\x7d']]

omit [Budget] in
theorem follows_cons {item : List Char} (h : item ∈ [[','], [']'], ['\x7d']])
    (more : List (List Char)) : Follows (item :: more) := by
  simpa [Follows] using h

omit [Budget] in
/-- Neither a blank nor what comes after a value can go on with a number. -/
theorem Follows.stops {rest : List Char} (h : Follows more) (hrest : Spread more rest) :
    Stops Decimal.continues rest := by
  intro c hc
  rcases hrest.head?_cases hc with hblank | ⟨item, items, text, rfl, hitem⟩
  · simp only [isBlank, Bool.or_eq_true, decide_eq_true_eq] at hblank
    rcases hblank with ((rfl | rfl) | rfl) | rfl <;> decide
  · have hmem := h item rfl
    simp only [List.mem_cons, List.not_mem_nil, or_false] at hmem
    rcases hmem with rfl | rfl | rfl
    all_goals
      cases hitem
      decide

theorem reads_int {n : Int} (short : (Nat.toDigits 10 n.natAbs).length ≤ digitLimit)
    (hmore : Follows more) :
    Reads (.value stack) [writtenInt n] more (.complete (.int n) stack) := by
  apply reads_item
  intro rest hrest
  apply runPlain_writtenInt _ (hmore.stops hrest)
  simpa [Limits.standard, exceeds] using short

/-! ## Arrays -/

omit [Budget] in
/-- The first item of a tree is neither the end of an array nor a byte order mark. -/
theorem Tree.exists_items_eq_cons (t : Tree) :
    ∃ c tail rest, t.items = (c :: tail) :: rest ∧ isBlank c = false ∧ c ∉ [']', '\ufeff'] := by
  cases t with
  | null => exact ⟨_, _, _, rfl, by decide, by decide⟩
  | bool b => cases b <;> exact ⟨_, _, _, rfl, by decide, by decide⟩
  | int n short =>
      obtain ⟨c, tail, hwritten, hblank, hc⟩ := exists_writtenInt_eq_cons n
      refine ⟨c, tail, [], by rw [items, hwritten], hblank, ?_⟩
      simp only [List.mem_cons, List.not_mem_nil, or_false, not_or] at hc ⊢
      exact ⟨hc.2.2.1, hc.2.2.2.2⟩
  | text points => exact ⟨_, _, _, rfl, by decide, by decide⟩
  | array trees => exact ⟨_, _, _, rfl, by decide, by decide⟩
  | object members => exact ⟨_, _, _, rfl, by decide, by decide⟩

/-- After the opening of an array the reader expects an item as it does in an array without any. -/
theorem Reads.opened {c : Char} {tail : List Char} (hblank : isBlank c = false) (hclose : c ≠ ']')
    (h : Reads (.value (.array [] :: stack)) ((c :: tail) :: items) more next) :
    Reads (.opened stack) ((c :: tail) :: items) more next := by
  intro text hspread
  obtain ⟨rest, hrest, hrun⟩ := h text hspread
  refine ⟨rest, hrest, ?_⟩
  rw [← hrun]
  cases hspread with
  | cons hblanks _ =>
      rw [runPlain_blanks hblanks, runPlain_blanks hblanks, List.cons_append,
        runPlain_opened hblank hclose]

/-- A tree is read inside the given containers, whatever may follow it. -/
def Tree.Readable (t : Tree) (stack : List Frame) : Prop :=
  ∀ more, Follows more → Reads (.value stack) t.items more (.complete t.value stack)

theorem reads_trees {trees : List Tree} (hne : trees ≠ [])
    (h : ∀ t ∈ trees, ∀ before, t.Readable (.array before :: stack)) (before : List Value) :
    Reads (.value (.array before :: stack)) ([[',']].intercalate (trees.map Tree.items) ++ [[']']])
      more (.complete (.list (before.reverse ++ trees.map Tree.value)) stack) := by
  -- the reader keeps the values before a comma in reverse
  induction trees generalizing before with
  | nil => exact absurd rfl hne
  | cons t trees ih =>
      have ht := h t List.mem_cons_self before
      cases trees with
      | nil =>
          rw [List.map_singleton, List.map_singleton, List.intercalate_singleton,
            ← List.reverse_cons]
          apply (ht _ (follows_cons (by simp) more)).trans
          exact reads_item fun _ _ => runPlain_closeArray
      | cons t' trees =>
          have hrest := ih (List.cons_ne_nil _ _)
            (fun u hu => h u (List.mem_cons_of_mem _ hu)) (t.value :: before)
          rw [List.map_cons, List.map_cons, List.intercalate_cons_cons, ← List.map_cons,
            List.append_assoc, List.append_assoc]
          apply (ht _ (follows_cons (by simp) _)).trans
          apply Reads.cons fun _ => runPlain_comma_array
          simpa using hrest

theorem readable_array {trees : List Tree} (hlevel : stack.length < Budget.depth)
    (h : ∀ t ∈ trees, ∀ before, t.Readable (.array before :: stack)) :
    (Tree.array trees).Readable stack := by
  intro more hmore
  rw [Tree.items, Tree.value, Tree.itemsAll_eq_map, Tree.valueAll_eq_map]
  apply Reads.cons fun _ => runPlain_openArray (exceeds_standard_depth hlevel)
  cases trees with
  | nil => exact reads_item fun _ _ => runPlain_emptyArray
  | cons t trees =>
      -- the first item decides whether the array is taken for empty
      obtain ⟨c, tail, rest, hitems, hblank, hc⟩ := t.exists_items_eq_cons
      have hclose : c ≠ ']' := fun h => hc (h ▸ List.mem_cons_self)
      have hshape : ∃ others, [[',']].intercalate ((t :: trees).map Tree.items) ++ [[']']] =
          (c :: tail) :: others := by
        cases trees with
        | nil => simp [hitems]
        | cons t' trees => simp [hitems, List.intercalate_cons_cons]
      obtain ⟨others, hshape⟩ := hshape
      have hreads : Reads _ _ more _ := reads_trees (List.cons_ne_nil t trees) h []
      rw [hshape] at hreads ⊢
      exact hreads.opened hblank hclose

/-! ## Objects -/

theorem reads_member {m : List CodePoint × Tree} {first : Bool} {entries : List (Value × Value)}
    (h : m.2.Readable (.object entries (CodePoint.joined m.1) :: stack)) (hmore : Follows more) :
    Reads (.key first entries stack) (Tree.memberItems m) more
      (.complete m.2.value (.object entries (CodePoint.joined m.1) :: stack)) := by
  apply Reads.cons fun _ => runPlain_keyPoints m.1
  apply Reads.cons fun _ => runPlain_colon
  exact h more hmore

theorem reads_treeMembers {members : List (List CodePoint × Tree)} (hne : members ≠ [])
    (h : ∀ m ∈ members, ∀ entries,
      m.2.Readable (.object entries (CodePoint.joined m.1) :: stack))
    (first : Bool) (entries : List (Value × Value)) :
    Reads (.key first entries stack)
      ([[',']].intercalate (members.map Tree.memberItems) ++ [['\x7d']]) more
      (.complete (.dict (Value.putMembers (members.map Tree.entry) entries)) stack) := by
  induction members generalizing first entries with
  | nil => exact absurd rfl hne
  | cons m members ih =>
      have hm := h m List.mem_cons_self entries
      cases members with
      | nil =>
          rw [List.map_singleton, List.map_singleton, List.intercalate_singleton]
          apply (reads_member hm (follows_cons (by simp) more)).trans
          exact reads_item fun _ _ => runPlain_closeObject
      | cons m' members =>
          have hrest := ih (List.cons_ne_nil _ _)
            (fun n hn => h n (List.mem_cons_of_mem _ hn)) false
            (Value.put (.text (CodePoint.joined m.1)) m.2.value entries)
          rw [List.map_cons, List.map_cons, List.intercalate_cons_cons, ← List.map_cons,
            List.append_assoc, List.append_assoc]
          apply (reads_member hm (follows_cons (by simp) _)).trans
          exact Reads.cons (fun _ => runPlain_comma_object) hrest

theorem readable_object {members : List (List CodePoint × Tree)}
    (hlevel : stack.length < Budget.depth)
    (h : ∀ m ∈ members, ∀ entries,
      m.2.Readable (.object entries (CodePoint.joined m.1) :: stack)) :
    (Tree.object members).Readable stack := by
  intro more hmore
  rw [Tree.items, Tree.value, Tree.itemsMembers_eq_map, Tree.valueMembers_eq_map]
  apply Reads.cons fun _ => runPlain_openObject (exceeds_standard_depth hlevel)
  cases members with
  | nil => exact reads_item fun _ _ => runPlain_emptyObject
  | cons m members => exact reads_treeMembers (List.cons_ne_nil m members) h true []

/-! ## Trees of any shape -/

theorem readable_tree (t : Tree) (stack : List Frame)
    (hdepth : stack.length + t.depth ≤ Budget.depth) : t.Readable stack := by
  induction t using Tree.induction generalizing stack with
  | null => exact fun _ _ => reads_item fun _ _ => runPlain_null
  | bool b =>
      cases b with
      | true => exact fun _ _ => reads_item fun _ _ => runPlain_true
      | false => exact fun _ _ => reads_item fun _ _ => runPlain_false
  | int n short => exact fun _ hmore => reads_int short hmore
  | text points => exact fun _ _ => reads_item fun _ _ => runPlain_writtenPoints points
  | array trees ih =>
      rw [Tree.depth] at hdepth
      apply readable_array (by omega)
      intro t ht before
      apply ih t ht
      have hle := Tree.depthAll_le_iff.1 (Nat.le_refl _) t ht
      rw [List.length_cons]
      omega
  | object members ih =>
      rw [Tree.depth] at hdepth
      apply readable_object (by omega)
      intro m hm entries
      apply ih m hm
      have hle := Tree.depthMembers_le_iff.1 (Nat.le_refl _) m hm
      rw [List.length_cons]
      omega

/-! ## Whole texts -/

theorem load_of_spread {t : Tree} {text : String} (hdepth : t.depth ≤ Budget.depth)
    (hspread : Spread t.items text.toList) : load (.text text) = .ok t.value := by
  have hmark : (text.toList.map CodePoint.char).head? ≠ some (.char '\ufeff') := by
    intro hpoint
    obtain ⟨c, hhead, hc⟩ := Option.map_eq_some_iff.1 (List.head?_map.symm.trans hpoint)
    obtain rfl := CodePoint.char.inj hc
    rcases hspread.head?_cases hhead with hblank | ⟨item, rest, after, hitems, hitem⟩
    · exact absurd hblank (by decide)
    · obtain ⟨c, tail, rest', hcons, -, hc⟩ := t.exists_items_eq_cons
      rw [hcons] at hitems
      cases hitems
      cases hitem
      exact absurd hc (by decide)
  -- nothing follows the tree but blanks
  have hreads := readable_tree t [] (by simpa using hdepth) [] (by simp [Follows])
  obtain ⟨rest, hrest, hrun⟩ := hreads text.toList (by rwa [List.append_nil])
  cases hrest with
  | nil hblanks =>
      rw [← List.append_nil rest, runPlain_blanks hblanks, runPlain_complete_nil] at hrun
      rw [load, Text.points, parse, if_neg hmark, read_map_char, hrun]

end Json

end SchemeLexer
