import SchemeLexer.Json.Token
import SchemeLexer.Proofs.Json.Steps
/-!
# JSON text of tokens reads back

The text of a value is one that the reader takes for this value wherever it stands, whatever
follows it. Such texts compose: a key, a colon and a value make a member, members between braces
make an object, and blanks between them change nothing. The JSON text of a token is the text of its
mapping in this sense, in every layout that adds only blanks, so that it is read back as the token.
-/

namespace SchemeLexer

namespace Json

variable {limits : Limits} {stack : List Frame}

def Blanks (text : List Char) : Prop := ∀ c ∈ text, isBlank c = true

theorem blanks_nil : Blanks [] := by
  simp [Blanks]

/-! ## Texts of values and members -/

/-- A text that is read as a value inside the containers of the stack. -/
def IsValue (limits : Limits) (stack : List Frame) (text : List Char) (v : Value) : Prop :=
  ∀ rest, runPlain limits (.value stack) (text ++ rest) = runPlain limits (.complete v stack) rest

def IsMember (limits : Limits) (stack : List Frame) (text : List Char) (key : String)
    (v : Value) : Prop :=
  ∀ first members rest,
    runPlain limits (.key first members stack) (text ++ rest) =
      runPlain limits (.complete v (.object members key :: stack)) rest

theorem isValue_writtenText {s : Text} (h : s.Unpaired) :
    IsValue limits stack (writtenText s) (.text s) :=
  fun _ => runPlain_writtenText h

theorem isValue_null : IsValue limits stack ['n', 'u', 'l', 'l'] .null :=
  fun _ => runPlain_null

theorem IsValue.member {before gap after text : List Char} {v : Value} (key : String)
    (hbefore : Blanks before) (hgap : Blanks gap) (hafter : Blanks after)
    (h : ∀ members, IsValue limits (.object members key :: stack) text v) :
    IsMember limits stack
      (before ++ (writtenText key ++ (gap ++ ':' :: (after ++ text)))) key v := by
  intro first members rest
  simp only [List.append_assoc, List.cons_append]
  rw [runPlain_blanks hbefore, runPlain_key, runPlain_blanks hgap, runPlain_colon,
    runPlain_blanks hafter, h members]

/-! ## Objects -/

structure Member where
  text : List Char
  key : String
  value : Value

/-- The entries of an object after its members, which are taken one after the other. -/
def putAll (members : List Member) (entries : List (Value × Value)) : List (Value × Value) :=
  members.foldl (fun entries m => Value.put (.text m.key) m.value entries) entries

/-- Members up to the end of their object. The induction is on the members; after each but the last
a comma follows, and the reader expects a key again. -/
theorem runPlain_members {members : List Member} (hne : members ≠ [])
    (h : ∀ m ∈ members, IsMember limits stack m.text m.key m.value) {blanks : List Char}
    (hblanks : Blanks blanks) (first : Bool) (entries : List (Value × Value))
    (rest : List Char) :
    runPlain limits (.key first entries stack)
        ([','].intercalate (members.map Member.text) ++ (blanks ++ '\x7d' :: rest)) =
      runPlain limits (.complete (.dict (putAll members entries)) stack) rest := by
  induction members generalizing first entries with
  | nil => exact absurd rfl hne
  | cons m members ih =>
      have hm := h m List.mem_cons_self
      cases members with
      | nil =>
          rw [List.map_singleton, List.intercalate_singleton, hm, runPlain_blanks hblanks,
            runPlain_closeObject]
          rfl
      | cons m' members =>
          rw [List.map_cons, List.map_cons, List.intercalate_cons_cons, List.append_assoc,
            List.append_assoc, hm, List.singleton_append, runPlain_comma_object, ← List.map_cons,
            ih (List.cons_ne_nil _ _) fun n hn => h n (List.mem_cons_of_mem _ hn)]
          rfl

theorem isValue_object {members : List Member} (hne : members ≠ [])
    (h : ∀ m ∈ members, IsMember limits stack m.text m.key m.value) {blanks : List Char}
    (hblanks : Blanks blanks) (hdepth : exceeds (stack.length + 1) limits.depth = false) :
    IsValue limits stack
      ('\x7b' :: [','].intercalate (members.map Member.text) ++ blanks ++ ['\x7d'])
      (.dict (putAll members [])) := by
  intro rest
  simp only [List.append_assoc, List.cons_append, List.nil_append]
  rw [runPlain_openObject hdepth, runPlain_members hne h hblanks]

theorem read_of_isValue {text : List Char} {v : Value} (h : IsValue limits [] text v) :
    read limits (text.map .char) = .ok v := by
  rw [read_map_char, ← List.append_nil text, h, runPlain_complete_nil]

/-! ## Layouts of blanks -/

/-- A layout that adds nothing but blanks. -/
def Layout.Blank : Layout → Prop
  | .compact => True
  | .indented indentation => Blanks indentation

theorem Layout.blank_compact : Layout.compact.Blank := trivial

theorem Layout.Blank.line {l : Layout} (h : l.Blank) (level : Nat) : Blanks (l.line level) := by
  intro c hc
  cases l with
  | compact => exact absurd hc List.not_mem_nil
  | indented indentation =>
      simp only [Layout.line, List.mem_cons, List.mem_flatten, List.mem_replicate] at hc
      rcases hc with rfl | ⟨part, ⟨-, rfl⟩, hc⟩
      · decide
      · exact h c hc

/-- A colon, and perhaps a blank after it. -/
theorem Layout.colon_eq (l : Layout) : ∃ after, Blanks after ∧ l.colon = ':' :: after := by
  cases l with
  | compact => exact ⟨[], blanks_nil, rfl⟩
  | indented indentation => exact ⟨[' '], by simp [Blanks, isBlank], rfl⟩

theorem Layout.Blank.member {l : Layout} (hl : l.Blank) (level : Nat) {text : List Char}
    {v : Value} (key : String)
    (h : ∀ members, IsValue limits (.object members key :: stack) text v) :
    IsMember limits stack (l.line level ++ l.member key text) key v := by
  obtain ⟨after, hafter, hcolon⟩ := l.colon_eq
  have hmember := IsValue.member key (hl.line level) blanks_nil hafter h
  simpa [Layout.member, hcolon] using hmember

/-! ## Tokens -/

end Json

/-- A token whose literal holds no pair of surrogates, which would be read as one character. -/
def Token.Unpaired (t : Token) : Prop := ∀ s ∈ t.literal, s.Unpaired

theorem Token.unpaired_plain (k : Kind) (literal : Option String) :
    (⟨k, literal.map Text.plain⟩ : Token).Unpaired := by
  intro s hs
  obtain ⟨text, -, rfl⟩ := Option.map_eq_some_iff.1 hs
  exact Text.unpaired_plain text

namespace Json

variable {limits : Limits} {stack : List Frame}

/-- The text of a literal, between any containers. -/
theorem exists_jsonMembers (t : Token) :
    ∃ text, (t.Unpaired → ∀ limits stack, IsValue limits stack text (.ofText? t.literal)) ∧
      (∀ c ∈ text, PlainAscii c) ∧
      t.jsonMembers =
        [(Text.plain "type", writtenText t.kind.name), (Text.plain "literal", text)] := by
  obtain ⟨kind, literal⟩ := t
  cases literal with
  | none => exact ⟨_, fun _ _ _ => isValue_null, by simp [PlainAscii], rfl⟩
  | some s =>
      exact ⟨_, fun h _ _ => isValue_writtenText (h s rfl), fun _ => plainAscii_writtenText, rfl⟩

theorem exceeds_standard_depth [Budget] {level : Nat} (h : level < Budget.depth) :
    exceeds (level + 1) Limits.standard.depth = false := by
  simpa [Limits.standard, exceeds] using Nat.succ_le_of_lt h

/-- The members are put one after the other, and their keys differ. -/
theorem isValue_toJson [Budget] {t : Token} (ht : t.Unpaired) {l : Layout} (hl : l.Blank) :
    IsValue .standard [] (t.toJson l).toList (Mapping.ofToken t) := by
  obtain ⟨text, htext, -, hmembers⟩ := exists_jsonMembers t
  have htype : IsMember .standard []
      (l.line 1 ++ l.member "type" (writtenText t.kind.name)) "type" (.text t.kind.name) :=
    hl.member 1 "type" fun _ => isValue_writtenText (Text.unpaired_plain _)
  have hliteral : IsMember .standard [] (l.line 1 ++ l.member "literal" text) "literal"
      (.ofText? t.literal) :=
    hl.member 1 "literal" fun _ => htext ht _ _
  have hboth : ∀ m ∈ [Member.mk _ _ _, Member.mk _ _ _],
      IsMember .standard [] m.text m.key m.value :=
    List.forall_mem_cons.2 ⟨htype, List.forall_mem_singleton.2 hliteral⟩
  have hobject := isValue_object (List.cons_ne_nil _ _) hboth (hl.line 0)
    (exceeds_standard_depth Budget.pos)
  rw [Token.toJson, String.toList_ofList, hmembers]
  exact hobject

theorem head?_toJson (t : Token) (l : Layout) : (t.toJson l).toList.head? = some '\x7b' := by
  simp [Token.toJson, Token.jsonMembers, Layout.object, Layout.enclosed]

theorem parse_toJson [Budget] {t : Token} (ht : t.Unpaired) {l : Layout} (hl : l.Blank) :
    parse (Text.plain (t.toJson l)).points = .ok (Mapping.ofToken t) := by
  rw [parse, Text.points, List.head?_map, head?_toJson, if_neg (by decide)]
  exact read_of_isValue (isValue_toJson ht hl)

theorem toToken_toJson [Budget] {t : Token} (ht : t.Unpaired) {l : Layout} (hl : l.Blank) :
    toToken (.text (t.toJson l)) = .ok t := by
  rw [toToken, loadToken, load, parse_toJson ht hl]
  simp only [Mapping.isTokenMapping_ofToken, if_true, Mapping.toToken_ofToken]

theorem isJson_toJson [Budget] {t : Token} (ht : t.Unpaired) {l : Layout} (hl : l.Blank) :
    isJson (t.toJson l) = true := by
  rw [isJson, parse_toJson ht hl]
  rfl

theorem plainAscii_toJson_compact (t : Token) : ∀ c ∈ (t.toJson .compact).toList, PlainAscii c := by
  obtain ⟨text, -, htext, hmembers⟩ := exists_jsonMembers t
  intro c hc
  rw [Token.toJson, String.toList_ofList, hmembers] at hc
  simp only [Layout.object, Layout.enclosed, Layout.member, Layout.line, Layout.colon,
    List.map_cons, List.map_nil, List.nil_append, List.append_nil, List.intercalate_cons_cons,
    List.intercalate_singleton, List.cons_append, List.append_assoc, List.mem_cons,
    List.mem_append, List.not_mem_nil, or_false] at hc
  rcases hc with rfl | hc | rfl | hc | rfl | hc | rfl | hc | rfl
  · decide
  · exact plainAscii_writtenText hc
  · decide
  · exact plainAscii_writtenText hc
  · decide
  · exact plainAscii_writtenText hc
  · decide
  · exact htext c hc
  · decide

/-! ## Indentations -/

/-- An indentation that only puts blanks into a text: none at all, a width of 64 bits with a sign,
or a text of blanks. -/
def Indentation.Blank : Indentation → Prop
  | .none => True
  | .width n => -0x8000000000000000 ≤ n ∧ n < 0x8000000000000000
  | .text s => Blanks s

theorem Indentation.Blank.layout {indentation : Indentation} (h : indentation.Blank) :
    ∃ l : Layout, l.Blank ∧ indentation.layout = .ok l := by
  cases indentation with
  | none => exact ⟨.compact, Layout.blank_compact, rfl⟩
  | width n =>
      have hcount : isCount n = true := by
        simp only [isCount, Bool.and_eq_true, decide_eq_true_eq]
        exact h
      refine ⟨.ofWidth n, ?_, by simp [Indentation.layout, hcount]⟩
      intro c hc
      rw [List.eq_of_mem_replicate hc]
      decide
  | text s => exact ⟨.indented s, h, rfl⟩

/-- A token without a pair of surrogates in its literal is read back from its JSON text, however
that is indented by blanks, and without indentation the text is printable ASCII. -/
theorem toToken_toIndentedJson [Budget] (t : Token) :
    (t.Unpaired → ∀ indentation : Indentation, indentation.Blank →
      ∃ text, t.toIndentedJson indentation = .ok text ∧ toToken (.text text) = .ok t) ∧
    ∃ text, t.toIndentedJson .none = .ok text ∧
      ∀ c ∈ text.toList, 0x20 ≤ c.toNat ∧ c.toNat ≤ 0x7e := by
  refine ⟨?_, t.toJson .compact, rfl, plainAscii_toJson_compact t⟩
  intro ht indentation hindentation
  obtain ⟨l, hl, hlayout⟩ := hindentation.layout
  refine ⟨t.toJson l, ?_, toToken_toJson ht hl⟩
  rw [Token.toIndentedJson, hlayout]
  rfl

theorem toToken_toIndentedJson_mixed :
    ∃ text,
      (⟨.string, some "\"\\\t\x7fλ😀\""⟩ : Token).toIndentedJson
          (.text ['\t', ' ', '\r', '\n']) = .ok text ∧
        toToken (.text text) = .ok ⟨.string, some "\"\\\t\x7fλ😀\""⟩ := by
  have hblank : (Indentation.text ['\t', ' ', '\r', '\n']).Blank := by
    simp [Indentation.Blank, Blanks, isBlank]
  have hunpaired := Token.unpaired_plain .string (some "\"\\\t\x7fλ😀\"")
  exact (toToken_toIndentedJson ⟨.string, some "\"\\\t\x7fλ😀\""⟩).1 hunpaired _ hblank

/-- A width beyond 64 bits has no layout, though a negative one asks for no spaces. -/
theorem toIndentedJson_uncountable :
    ¬∃ text, (⟨.dot, some "."⟩ : Token).toIndentedJson (.width (-0x8000000000000001)) = .ok text ∧
      toToken (.text text) = .ok ⟨.dot, some "."⟩ := by
  rintro ⟨text, htext, -⟩
  cases htext

end Json

end SchemeLexer
