import SchemeLexer.Proofs.Conversion.JsonText
import SchemeLexer.Proofs.Json.Trees
/-!
# Objects that describe tokens

Of the members of an object only those with the two keys of a token mapping matter. The object may
have others, with keys of their own and any values, and the order of its members is as free as the
blanks in its text: the token is the one that the two members describe.
-/

namespace SchemeLexer

namespace Value

/-! ## Entries -/

theorem isText_iff {v : Value} {s : String} : v.isText s = true ↔ v = .text s := by
  cases v with
  | text t => cases t <;> simp [isText]
  | _ => simp [isText]

theorem same_text_iff {v : Value} {s : Text} : v.same (.text s) = true ↔ v = .text s := by
  cases v <;> simp [same, sameNumber, int?]

theorem lookup?_cons (e : Value × Value) (entries : List (Value × Value)) (key : String) :
    lookup? (e :: entries) key = if e.1.isText key then some e.2 else lookup? entries key := by
  by_cases hkey : e.1.isText key <;> simp [lookup?, hkey]

theorem lookup?_put (key : Text) (v : Value) (entries : List (Value × Value)) (other : String) :
    lookup? (put (.text key) v entries) other =
      if key = other then some v else lookup? entries other := by
  have htext : (Value.text key).isText other = true ↔ key = other := by
    rw [isText_iff, Value.text.injEq]
  induction entries with
  | nil => simp [put, lookup?_cons, htext]
  | cons e entries ih =>
      rw [put, lookup?_cons]
      by_cases hsame : e.1.same (.text key)
      · have hfirst := same_text_iff.1 hsame
        rw [if_pos hsame, lookup?_cons, hfirst]
        by_cases hkey : key = other
        · rw [if_pos (htext.2 hkey), if_pos hkey]
        · simp [htext, hkey]
      · rw [if_neg hsame, lookup?_cons, ih]
        by_cases hkey : key = other
        · subst hkey
          have hfirst : ¬e.1.isText other = true := by rwa [isText_iff, ← same_text_iff]
          simp [hfirst]
        · simp [hkey]

/-- A key has the value that all its members have, whatever the others are. -/
theorem lookup?_putMembers {members : List (Text × Value)} {entries : List (Value × Value)}
    {key : String} {v : Value} (hvalue : ∀ m ∈ members, m.1 = key → m.2 = v)
    (hfound : lookup? entries key = some v ∨ ∃ m ∈ members, m.1 = key) :
    lookup? (putMembers members entries) key = some v := by
  induction members generalizing entries with
  | nil => simpa [putMembers] using hfound
  | cons m members ih =>
      apply ih fun n hn => hvalue n (List.mem_cons_of_mem _ hn)
      rw [lookup?_put]
      by_cases hkey : m.1 = key
      · rw [if_pos hkey, hvalue m List.mem_cons_self hkey]
        exact Or.inl rfl
      · rw [if_neg hkey]
        simpa [hkey] using hfound

end Value

namespace Json

/-! ## Tokens -/

def Tree.ofText? : Option Text → Tree
  | none => .null
  | some s => .text s.points

theorem Tree.value_ofText? {text : Option Text} (h : ∀ s ∈ text, s.Unpaired) :
    (ofText? text).value = .ofText? text := by
  cases text with
  | none => rfl
  | some s => rw [ofText?, value, CodePoint.joined_points (h s rfl), Value.ofText?]

theorem Tree.depth_ofText? (text : Option Text) : (ofText? text).depth = 0 := by
  cases text <;> rfl

def tokenMembers (t : Token) : List (List CodePoint × Tree) :=
  [(CodePoint.ofString "type", .ofText? (some t.kind.name)),
    (CodePoint.ofString "literal", .ofText? t.literal)]

theorem lookup?_of_perm {s : String} {t : Tree} {members others : List (List CodePoint × Tree)}
    (hs : ∀ c ∈ s.toList, c.toNat < 0xd800) (hothers : ∀ m ∈ others, m.1 ≠ CodePoint.ofString s)
    (horder : members.Perm ((CodePoint.ofString s, t) :: others)) :
    Value.lookup? (Value.putMembers (members.map Tree.entry) []) s = some t.value := by
  apply Value.lookup?_putMembers
  · intro e he hkey
    obtain ⟨m, hm, rfl⟩ := List.mem_map.1 he
    rcases List.mem_cons.1 (horder.mem_iff.1 hm) with rfl | hm
    · rfl
    · exact absurd (CodePoint.eq_ofString_of_joined hs hkey) (hothers m hm)
  · refine Or.inr ⟨_, List.mem_map_of_mem (horder.mem_iff.2 List.mem_cons_self), ?_⟩
    exact CodePoint.joined_ofString s

theorem lookup?_of_tokenMembers {t : Token} (ht : t.Unpaired)
    {extras members : List (List CodePoint × Tree)}
    (hkeys : ∀ m ∈ extras, m.1 ≠ CodePoint.ofString "type" ∧ m.1 ≠ CodePoint.ofString "literal")
    (horder : members.Perm (tokenMembers t ++ extras)) :
    Value.lookup? (Value.putMembers (members.map Tree.entry) []) "type" =
        some (.text t.kind.name) ∧
      Value.lookup? (Value.putMembers (members.map Tree.entry) []) "literal" =
        some (.ofText? t.literal) := by
  have hne : CodePoint.ofString "literal" ≠ CodePoint.ofString "type" := by
    intro h
    have hjoined := congrArg CodePoint.joined h
    rw [CodePoint.joined_ofString, CodePoint.joined_ofString] at hjoined
    exact absurd (Text.plain.inj hjoined) (by decide)
  -- to either of the two members the other one is as foreign as the rest
  have hswapped := horder.trans (List.Perm.swap _ _ _)
  constructor
  · have hname : ∀ s ∈ some (Text.plain t.kind.name), s.Unpaired :=
      Token.unpaired_plain t.kind (some t.kind.name)
    rw [lookup?_of_perm (by simp) _ horder, Tree.value_ofText? hname, Value.ofText?]
    exact List.forall_mem_cons.2 ⟨hne, fun m hm => (hkeys m hm).1⟩
  · rw [lookup?_of_perm (by simp) _ hswapped, Tree.value_ofText? ht]
    exact List.forall_mem_cons.2 ⟨hne.symm, fun m hm => (hkeys m hm).2⟩

/-- The token of an object is that of its two members, whatever the others are, in whatever order
the members stand and however the text is laid out. -/
theorem toToken_of_spread (t : Token) (ht : t.Unpaired)
    (extras members : List (List CodePoint × Tree)) (text : String)
    (hkeys : ∀ m ∈ extras, m.1 ≠ CodePoint.ofString "type" ∧ m.1 ≠ CodePoint.ofString "literal")
    (hdepth : ∀ m ∈ extras, m.2.depth ≤ 200)
    (horder : members.Perm (tokenMembers t ++ extras))
    (hspread : Spread (Tree.object members).items text.toList) :
    toToken (.text text) = .ok t := by
  obtain ⟨hkind, hliteral⟩ := lookup?_of_tokenMembers ht hkeys horder
  have hmembers : ∀ m ∈ members, m.2.depth ≤ 200 := by
    intro m hm
    rcases List.mem_append.1 (horder.mem_iff.1 hm) with hm | hm
    · simp only [tokenMembers, List.mem_cons, List.not_mem_nil, or_false] at hm
      rcases hm with rfl | rfl
      all_goals
        rw [Tree.depth_ofText?]
        exact Nat.zero_le _
    · exact hdepth m hm
  have hobject : (Tree.object members).depth ≤ Budget.depth :=
    calc Tree.depthMembers members + 1
        ≤ 200 + 1 := Nat.succ_le_succ (Tree.depthMembers_le_iff.2 hmembers)
      _ ≤ Budget.depth := by decide
  rw [toToken_of_load (load_of_spread hobject hspread), Tree.value, Tree.valueMembers_eq_map,
    Mapping.toToken_of_lookup? hkind hliteral]
  rfl

-- The third member has a lone surrogate for a key, and a `type` of its own further inside.
theorem toToken_of_spread_nested :
    toToken (.text
      "\t\x7b \"\\ud800\":[-1 ,\x7b\"type\" :null\x7d],\"literal\":\".\"\n,\"type\": \"dot\"\x7d\r") =
        .ok ⟨.dot, some "."⟩ := by
  let other : List CodePoint × Tree :=
    ([.surrogate 0xd800 (by decide)],
      .array [.int (-1) (by decide), .object [(CodePoint.ofString "type", .null)]])
  apply toToken_of_spread ⟨.dot, some "."⟩ (Token.unpaired_plain .dot (some ".")) [other]
    (tokenMembers ⟨.dot, some "."⟩ ++ [other]).reverse
  · decide
  · decide
  · exact List.reverse_perm _
  · exact spread_of_parts
      [(['\t'], ['\x7b']), ([' '], "\"\\ud800\"".toList), ([], [':']), ([], ['[']),
        ([], "-1".toList), ([' '], [',']), ([], ['\x7b']), ([], "\"type\"".toList), ([' '], [':']),
        ([], "null".toList), ([], ['\x7d']), ([], [']']), ([], [',']),
        ([], "\"literal\"".toList), ([], [':']), ([], "\".\"".toList), (['\n'], [',']),
        ([], "\"type\"".toList), ([], [':']), ([' '], "\"dot\"".toList), ([], ['\x7d'])]
      ['\r'] (by simp [Blanks, isBlank]) (by simp [Blanks, isBlank]) (by decide) (by decide)

end Json

end SchemeLexer
