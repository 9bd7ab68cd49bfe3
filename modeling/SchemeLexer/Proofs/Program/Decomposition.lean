import SchemeLexer.Proofs.Program.Descent
/-!
# The forest that tokens spell

Any tokens, balanced or not, are those of a forest and then those of lists that nothing closes,
and they are so in one way only. Reading gives the forest and drops the rest. The types of trees
and of open lists admit no others than those that tokens can spell, so that the builder is
followed through the tokens by what it stands for (`Reading`), one token at a time.
-/

namespace SchemeLexer

namespace Program

/-! ## Trees of tokens -/

/-- A tree of tokens as it stands inside a list: a token other than a parenthesis, or a list
between its parentheses. -/
inductive Tree where
  | atom (token : Record) (hopening : token.kind ≠ .lparen) (hclosing : token.kind ≠ .rparen)
  | list (opening : Record) (items : List Tree) (closing : Record)
      (hopening : opening.kind = .lparen) (hclosing : closing.kind = .rparen)

namespace Tree

mutual

def tokens : Tree → List Record
  | .atom token _ _ => [token]
  | .list opening items closing _ _ => opening :: (tokensAll items ++ [closing])

def tokensAll : List Tree → List Record
  | [] => []
  | t :: rest => t.tokens ++ tokensAll rest

end

mutual

def expression : Tree → Expression
  | .atom token _ _ => .atom token.literal
  | .list _ items _ _ _ => .list (expressions items)

/-- Trees with each atom replaced by its literal, if it has one. -/
def expressions : List Tree → List Expression
  | [] => []
  | t :: rest => t.expression :: expressions rest

end

theorem tokensAll_append (ts us : List Tree) :
    tokensAll (ts ++ us) = tokensAll ts ++ tokensAll us := by
  induction ts with
  | nil => rfl
  | cons t ts ih => simp [tokensAll, ih]

theorem expressions_append (ts us : List Tree) :
    expressions (ts ++ us) = expressions ts ++ expressions us := by
  induction ts with
  | nil => rfl
  | cons t ts ih => simp [expressions, ih]

end Tree

/-- A tree at top level. There a closing parenthesis that closes nothing is an atom too, so that
an atom is any token but an opening parenthesis. -/
inductive Form where
  | tree (t : Tree)
  | stray (closing : Record) (hclosing : closing.kind = .rparen)

namespace Form

def tokens : Form → List Record
  | .tree t => t.tokens
  | .stray closing _ => [closing]

def expression : Form → Expression
  | .tree t => t.expression
  | .stray closing _ => .atom closing.literal

end Form

/-! ## Parentheses -/

def openings (tokens : List Record) : Nat := (tokens.map Record.kind).count .lparen

def closings (tokens : List Record) : Nat := (tokens.map Record.kind).count .rparen

@[simp] theorem openings_nil : openings [] = 0 := rfl

@[simp] theorem closings_nil : closings [] = 0 := rfl

@[simp] theorem openings_cons (t : Record) (tokens : List Record) :
    openings (t :: tokens) = openings tokens + if t.kind = .lparen then 1 else 0 := by
  simp [openings, List.count_cons]

@[simp] theorem closings_cons (t : Record) (tokens : List Record) :
    closings (t :: tokens) = closings tokens + if t.kind = .rparen then 1 else 0 := by
  simp [closings, List.count_cons]

@[simp] theorem openings_append (tokens more : List Record) :
    openings (tokens ++ more) = openings tokens + openings more := by
  simp [openings]

@[simp] theorem closings_append (tokens more : List Record) :
    closings (tokens ++ more) = closings tokens + closings more := by
  simp [closings]

/-- Lists that nothing closes: no tokens at all, or an opening parenthesis and what follows it,
with more opening than closing parentheses at every point. -/
def Unclosed (tokens : List Record) : Prop :=
  tokens = [] ∨
    (∃ t rest, tokens = t :: rest ∧ t.kind = .lparen) ∧
      ∀ front, front <+: tokens → front ≠ [] → closings front < openings front

/-- Tokens that at no point have closed more lists than they opened. -/
def Covered (tokens : List Record) : Prop :=
  ∀ front, front <+: tokens → closings front ≤ openings front

theorem covered_nil : Covered [] := by
  intro front hfront
  simp [List.prefix_nil.1 hfront]

theorem Covered.append {tokens more : List Record} (htokens : Covered tokens)
    (hmore : Covered more) : Covered (tokens ++ more) := by
  rintro front ⟨back, heq⟩
  rcases List.append_eq_append_iff.1 heq with ⟨rest, hrest, -⟩ | ⟨part, rfl, hpart⟩
  · exact htokens front ⟨rest, hrest.symm⟩
  · have hle := htokens tokens List.prefix_rfl
    have hle' := hmore part ⟨back, hpart.symm⟩
    simp only [openings_append, closings_append]
    omega

/-- An opening parenthesis covers whatever does not close more than it opened. -/
theorem Covered.lt_of_prefix_cons {t : Record} {tokens front : List Record} (h : Covered tokens)
    (ht : t.kind = .lparen) (hfront : front <+: t :: tokens) (hne : front ≠ []) :
    closings front < openings front := by
  rcases List.prefix_cons_iff.1 hfront with rfl | ⟨more, rfl, hmore⟩
  · exact absurd rfl hne
  · have hle := h more hmore
    rw [openings_cons, closings_cons, ht, if_pos rfl, if_neg (by decide)]
    omega

theorem Covered.cons {t : Record} {tokens : List Record} (h : Covered tokens)
    (ht : t.kind = .lparen) : Covered (t :: tokens) := by
  intro front hfront
  by_cases hne : front = []
  · simp [hne]
  · exact Nat.le_of_lt (h.lt_of_prefix_cons ht hfront hne)

theorem Covered.unclosed {t : Record} {tokens : List Record} (h : Covered tokens)
    (ht : t.kind = .lparen) : Unclosed (t :: tokens) :=
  Or.inr ⟨⟨t, tokens, rfl, ht⟩, fun _ hfront hne => h.lt_of_prefix_cons ht hfront hne⟩

namespace Tree

mutual

theorem openings_tokens (t : Tree) : openings t.tokens = closings t.tokens := by
  cases t with
  | atom token hopening hclosing => simp [tokens, hopening, hclosing]
  | list opening items closing hopening hclosing =>
      have hitems := openings_tokensAll items
      simp [tokens, hopening, hclosing, hitems]

theorem openings_tokensAll (ts : List Tree) :
    openings (tokensAll ts) = closings (tokensAll ts) := by
  match ts with
  | [] => rfl
  | t :: rest =>
      have ht := openings_tokens t
      have hrest := openings_tokensAll rest
      simp [tokensAll, ht, hrest]

end

mutual

theorem covered_tokens (t : Tree) : Covered t.tokens := by
  cases t with
  | atom token hopening hclosing =>
      intro front hfront
      rcases List.prefix_cons_iff.1 hfront with rfl | ⟨more, rfl, hmore⟩
      · simp
      · simp [List.prefix_nil.1 hmore, hclosing]
  | list opening items closing hopening hclosing =>
      -- the closing parenthesis is covered by the opening one
      intro front hfront
      have hsnoc : front <+: (opening :: tokensAll items) ++ [closing] := hfront
      rcases List.prefix_concat_iff.1 hsnoc with rfl | hinner
      · have hitems := openings_tokensAll items
        simp [hopening, hclosing, hitems]
      · exact (covered_tokensAll items).cons hopening front hinner

theorem covered_tokensAll (ts : List Tree) : Covered (tokensAll ts) := by
  match ts with
  | [] => exact covered_nil
  | t :: rest => exact (covered_tokens t).append (covered_tokensAll rest)

end

/-! ## One way only -/

theorem exists_tokens_eq_cons (t : Tree) :
    ∃ first rest, t.tokens = first :: rest ∧ first.kind ≠ .rparen := by
  cases t with
  | atom token hopening hclosing => exact ⟨token, [], rfl, hclosing⟩
  | list opening items closing hopening hclosing =>
      exact ⟨opening, _, rfl, by simp [hopening]⟩

theorem tokens_append_ne {t : Tree} {closing : Record} (hclosing : closing.kind = .rparen)
    (x y : List Record) : t.tokens ++ x ≠ closing :: y := by
  obtain ⟨first, rest, htokens, hfirst⟩ := t.exists_tokens_eq_cons
  rw [htokens]
  rintro ⟨⟩
  exact hfirst hclosing

mutual

theorem tokens_append_inj (s t : Tree) {x y : List Record}
    (h : s.tokens ++ x = t.tokens ++ y) : s = t ∧ x = y := by
  cases s with
  | atom token hopening hclosing =>
      cases t with
      | atom token' _ _ =>
          cases h
          exact ⟨rfl, rfl⟩
      | list opening _ _ hopening' _ =>
          cases h
          exact absurd hopening' hopening
  | list opening items closing hopening hclosing =>
      cases t with
      | atom token hopening' _ =>
          cases h
          exact absurd hopening hopening'
      | list opening' items' closing' hopening' hclosing' =>
          simp only [tokens, List.cons_append, List.append_assoc, List.nil_append,
            List.cons.injEq] at h
          obtain ⟨rfl, h⟩ := h
          obtain ⟨rfl, rfl, rfl⟩ := tokensAll_append_inj items items' hclosing hclosing' h
          exact ⟨rfl, rfl⟩

theorem tokensAll_append_inj (ss ts : List Tree) {c d : Record} (hc : c.kind = .rparen)
    (hd : d.kind = .rparen) {x y : List Record}
    (h : tokensAll ss ++ c :: x = tokensAll ts ++ d :: y) : ss = ts ∧ c = d ∧ x = y := by
  match ss, ts with
  | [], [] =>
      cases h
      exact ⟨rfl, rfl, rfl⟩
  | [], t :: ts =>
      rw [tokensAll, tokensAll, List.append_assoc] at h
      exact absurd h.symm (tokens_append_ne hc _ _)
  | s :: ss, [] =>
      rw [tokensAll, tokensAll, List.append_assoc] at h
      exact absurd h (tokens_append_ne hd _ _)
  | s :: ss, t :: ts =>
      rw [tokensAll, tokensAll, List.append_assoc, List.append_assoc] at h
      obtain ⟨rfl, hrest⟩ := tokens_append_inj s t h
      obtain ⟨rfl, hends⟩ := tokensAll_append_inj ss ts hc hd hrest
      exact ⟨rfl, hends⟩

end

end Tree

namespace Form

theorem tokens_append_inj {f g : Form} {x y : List Record}
    (h : f.tokens ++ x = g.tokens ++ y) : f = g ∧ x = y := by
  cases f with
  | tree s =>
      cases g with
      | tree t =>
          obtain ⟨rfl, hrest⟩ := s.tokens_append_inj t h
          exact ⟨rfl, hrest⟩
      | stray closing hclosing => exact absurd h (Tree.tokens_append_ne hclosing _ _)
  | stray closing hclosing =>
      cases g with
      | tree t => exact absurd h.symm (Tree.tokens_append_ne hclosing _ _)
      | stray closing' _ =>
          cases h
          exact ⟨rfl, rfl⟩

/-- A form at the front closes every list that it opens, or opens none. -/
theorem not_unclosed (f : Form) (more : List Record) : ¬ Unclosed (f.tokens ++ more) := by
  rintro (hnil | ⟨⟨t, rest, heq, ht⟩, hfront⟩)
  · cases f with
    | tree s =>
        obtain ⟨first, rest, htokens, -⟩ := s.exists_tokens_eq_cons
        simp [tokens, htokens] at hnil
    | stray closing _ => cases hnil
  · cases f with
    | stray closing hclosing =>
        cases heq
        simp [ht] at hclosing
    | tree s =>
        obtain ⟨first, rest, htokens, -⟩ := s.exists_tokens_eq_cons
        have hlt := hfront s.tokens (List.prefix_append _ _) (by simp [htokens])
        have hbalanced := s.openings_tokens
        omega

end Form

/-- Tokens that are those of a forest and then those of unclosed lists. -/
structure Decomposes (tokens : List Record) (forest : List Form) (rest : List Record) : Prop where
  tokens_eq : tokens = forest.flatMap Form.tokens ++ rest
  unclosed : Unclosed rest

theorem Decomposes.unique {tokens : List Record} {forest forest' : List Form}
    {rest rest' : List Record} (h : Decomposes tokens forest rest)
    (h' : Decomposes tokens forest' rest') : forest' = forest ∧ rest' = rest := by
  obtain ⟨heq, hrest⟩ := h
  obtain ⟨heq', hrest'⟩ := h'
  rw [heq] at heq'
  clear heq
  induction forest generalizing forest' with
  | nil =>
      cases forest' with
      | nil => exact ⟨rfl, heq'.symm⟩
      | cons f forest' =>
          rw [List.flatMap_nil, List.nil_append, List.flatMap_cons, List.append_assoc] at heq'
          rw [heq'] at hrest
          exact absurd hrest (f.not_unclosed _)
  | cons f forest ih =>
      cases forest' with
      | nil =>
          rw [List.flatMap_nil, List.nil_append, List.flatMap_cons, List.append_assoc] at heq'
          rw [← heq'] at hrest'
          exact absurd hrest' (f.not_unclosed _)
      | cons g forest' =>
          simp only [List.flatMap_cons, List.append_assoc] at heq'
          obtain ⟨rfl, hforests⟩ := Form.tokens_append_inj heq'
          obtain ⟨rfl, hrests⟩ := ih hforests
          exact ⟨rfl, hrests⟩

/-! ## What a builder stands for -/

/-- A list that is still open: its opening parenthesis and the items read so far. -/
structure Frame where
  opening : Record
  items : List Tree
  hopening : opening.kind = .lparen

def Frame.tokens (f : Frame) : List Record := f.opening :: Tree.tokensAll f.items

/-- The trees behind a builder: the finished forest and the open lists, the innermost first. -/
structure Reading where
  forest : List Form
  frames : List Frame

namespace Reading

def tokens (r : Reading) : List Record :=
  r.forest.flatMap Form.tokens ++ r.frames.reverse.flatMap Frame.tokens

def builder (r : Reading) : Builder :=
  ⟨(r.forest.map Form.expression).reverse,
    r.frames.map fun f => (Tree.expressions f.items).reverse⟩

theorem exists_add (r : Reading) (t : Tree) :
    ∃ r' : Reading, r'.builder = r.builder.add t.expression ∧ r'.tokens = r.tokens ++ t.tokens := by
  obtain ⟨forest, frames⟩ := r
  cases frames with
  | nil =>
      refine ⟨⟨forest ++ [.tree t], []⟩, ?_, ?_⟩
      · simp [builder, Builder.add, Form.expression]
      · simp [tokens, Form.tokens]
  | cons f outer =>
      refine ⟨⟨forest, ⟨f.opening, f.items ++ [t], f.hopening⟩ :: outer⟩, ?_, ?_⟩
      · simp [builder, Builder.add, Tree.expressions_append, Tree.expressions]
      · simp [tokens, Frame.tokens, Tree.tokensAll_append, Tree.tokensAll]

theorem exists_feed (r : Reading) (t : Record) :
    ∃ r' : Reading, r'.builder = r.builder.feed t ∧ r'.tokens = r.tokens ++ [t] := by
  obtain ⟨forest, frames⟩ := r
  by_cases hopening : t.kind = .lparen
  · refine ⟨⟨forest, ⟨t, [], hopening⟩ :: frames⟩, ?_, ?_⟩
    · rw [Builder.feed_of_lparen _ hopening]
      rfl
    · simp [tokens, Frame.tokens, Tree.tokensAll]
  · by_cases hclosing : t.kind = .rparen
    · cases frames with
      | nil =>
          refine ⟨⟨forest ++ [.stray t hclosing], []⟩, ?_, ?_⟩
          · rw [builder, builder, List.map_nil, Builder.feed_stray _ hclosing]
            simp [Form.expression]
          · simp [tokens, Form.tokens]
      | cons f outer =>
          -- the innermost list becomes an item of the one around it
          obtain ⟨r', hbuilder, htokens⟩ :=
            exists_add ⟨forest, outer⟩ (.list f.opening f.items t f.hopening hclosing)
          refine ⟨r', ?_, ?_⟩
          · rw [hbuilder, builder, builder, List.map_cons,
              Builder.feed_of_rparen _ _ _ hclosing, List.reverse_reverse]
            rfl
          · rw [htokens]
            simp [tokens, Frame.tokens, Tree.tokens]
    · rw [Builder.feed_atom _ hopening hclosing]
      exact exists_add ⟨forest, frames⟩ (.atom t hopening hclosing)

theorem exists_foldl_feed (r : Reading) (tokens : List Record) :
    ∃ r' : Reading, r'.builder = tokens.foldl Builder.feed r.builder ∧
      r'.tokens = r.tokens ++ tokens := by
  induction tokens generalizing r with
  | nil => exact ⟨r, rfl, by simp⟩
  | cons t tokens ih =>
      obtain ⟨fed, hbuilder, htokens⟩ := r.exists_feed t
      obtain ⟨r', hbuilder', htokens'⟩ := ih fed
      refine ⟨r', ?_, ?_⟩
      · rw [hbuilder', hbuilder, List.foldl_cons]
      · rw [htokens', htokens, List.append_assoc, List.singleton_append]

theorem covered_frames (frames : List Frame) : Covered (frames.flatMap Frame.tokens) := by
  induction frames with
  | nil => exact covered_nil
  | cons f frames ih =>
      have hitems := Tree.covered_tokensAll f.items
      exact (hitems.cons f.hopening).append ih

theorem unclosed_frames (frames : List Frame) : Unclosed (frames.flatMap Frame.tokens) := by
  cases frames with
  | nil => exact Or.inl rfl
  | cons f frames =>
      have hitems := Tree.covered_tokensAll f.items
      exact (hitems.append (covered_frames frames)).unclosed f.hopening

end Reading

/-- Reading goes to the end of any tokens and gives the forest of the one decomposition that they
have, with each atom replaced by its literal. So does parsing by recursive descent, which stops at
a fault that shows the number of tokens. -/
theorem read_decomposes [Budget] (tokens : List Record) :
    (read (Cursor.start tokens.toArray .record)).2.next = tokens.length ∧
      ∃ forest rest, Decomposes tokens forest rest ∧
        (∀ forest' rest', Decomposes tokens forest' rest' → forest' = forest ∧ rest' = rest) ∧
        (read (Cursor.start tokens.toArray .record)).1 = forest.map Form.expression ∧
        ((Nat.toDigits 10 tokens.length).length ≤ digitLimit →
          (parse (Cursor.start tokens.toArray .record)).1 = .ok (forest.map Form.expression) ∧
            (parse (Cursor.start tokens.toArray .record)).2.next = tokens.length) := by
  refine ⟨next_read_start tokens .record, ?_⟩
  obtain ⟨r, hbuilder, htokens⟩ := Reading.exists_foldl_feed ⟨[], []⟩ tokens
  have hdecomposes : Decomposes tokens r.forest (r.frames.reverse.flatMap Frame.tokens) :=
    ⟨htokens.symm, Reading.unclosed_frames r.frames.reverse⟩
  have hread : (read (Cursor.start tokens.toArray .record)).1 = r.forest.map Form.expression := by
    have hstart : Builder.start = Reading.builder ⟨[], []⟩ := rfl
    rw [read_start, hstart, ← hbuilder]
    simp [Reading.builder]
  refine ⟨_, _, hdecomposes, fun _ _ h => hdecomposes.unique h, hread, fun hdigits => ?_⟩
  rw [parse_eq_read (Cursor.descends_start hdigits), hread]
  exact ⟨rfl, next_read_start tokens .record⟩

end Program

end SchemeLexer
