import Mathlib.Tactic.ByContra
import SchemeLexer.Proofs.Classification
import SchemeLexer.Proofs.Lexeme.Steps
import SchemeLexer.Proofs.Program.Descent
/-!
# Written programs read back

A program is written with parentheses around each list and single blanks between neighbours.
Reading it back gives the same program, whatever its atoms are, as long as each is a lexeme of its
own and no parenthesis. The text of a datum is followed through the scan first and its lexemes
through the builder afterwards.
-/

namespace SchemeLexer

/-- A tree of lists with texts at its leaves. -/
inductive Datum where
  | atom (text : String)
  | list (items : List Datum)

namespace Datum

mutual

/-- A datum as it is written: an atom as it is, a list in parentheses. -/
def render : Datum → String
  | .atom text => text
  | .list items => "(" ++ renderAll items ++ ")"

def renderAll : List Datum → String
  | [] => ""
  | [d] => d.render
  | d :: e :: rest => d.render ++ " " ++ renderAll (e :: rest)

end

mutual

def atoms : Datum → List String
  | .atom text => [text]
  | .list items => atomsAll items

def atomsAll : List Datum → List String
  | [] => []
  | d :: rest => d.atoms ++ atomsAll rest

end

mutual

def toExpression : Datum → Expression
  | .atom text => .atom (.text text)
  | .list items => .list (toExpressions items)

def toExpressions : List Datum → List Expression
  | [] => []
  | d :: rest => d.toExpression :: toExpressions rest

end

mutual

def lexemes : Datum → List (List Char)
  | .atom text => [text.toList]
  | .list items => ['('] :: (lexemesAll items ++ [[')']])

def lexemesAll : List Datum → List (List Char)
  | [] => []
  | d :: rest => d.lexemes ++ lexemesAll rest

end

/-- A text that can be an atom: it is no parenthesis, it is one lexeme, and it stays that lexeme
when something else follows after a blank. -/
def IsAtom (text : String) : Prop :=
  text ≠ "(" ∧ text ≠ ")" ∧ split .outsideStrings text = [text] ∧
    split .outsideStrings (text ++ " y") = [text, "y"]

instance : DecidablePred IsAtom := fun _ => inferInstanceAs (Decidable (_ ∧ _ ∧ _ ∧ _))

end Datum

open Datum Lexeme

/-! ## The lexemes of a written datum -/

/-- A text that ends outside strings and has the given lexemes. -/
def Reads (text : List Char) (lexemes : List (List Char)) : Prop :=
  Mode.outside.after text = .outside ∧ scan true text = lexemes

theorem reads_nil : Reads [] [] := ⟨rfl, rfl⟩

theorem Reads.blank {text more : List Char} {lexemes others : List (List Char)}
    (h : Reads text lexemes) (hmore : Reads more others) :
    Reads (text ++ ' ' :: more) (lexemes ++ others) := by
  obtain ⟨hmode, hscan⟩ := h
  obtain ⟨hmode', hscan'⟩ := hmore
  constructor
  · rw [Mode.after_append, hmode]
    exact hmode'
  · rw [scan_append_blank true more hmode (by decide), hscan, hscan']

theorem Reads.parenthesized {text : List Char} {lexemes : List (List Char)}
    (h : Reads text lexemes) :
    Reads ('(' :: (text ++ [')'])) (['('] :: (lexemes ++ [[')']])) := by
  obtain ⟨hmode, hscan⟩ := h
  constructor
  · have hopening : Mode.outside.next '(' = .outside := rfl
    rw [Mode.after_cons, hopening, Mode.after_append, hmode]
    rfl
  · rw [scan_opening_cons, scan_append_standalone [] hmode (Or.inl rfl), hscan, scan_nil]

/-- If the scan of an atom ended inside a string, the blank and what follows it would belong to
that string, and the last lexeme would be longer than one character. -/
theorem Datum.IsAtom.reads {text : String} (h : IsAtom text) : Reads text.toList [text.toList] := by
  obtain ⟨_, _, hsplit, hfollowed⟩ := h
  have hscan : scan true text.toList = [text.toList] := split_eq_iff.1 hsplit
  have hscan' : scan true (text.toList ++ [' ', 'y']) = [text.toList, ['y']] := by
    simpa [splitChars] using split_eq_iff.1 hfollowed
  refine ⟨?_, hscan⟩
  by_contra hmode
  rw [← mode_extend_start true] at hmode
  rw [scan_append] at hscan'
  generalize Scan.start.extend true text.toList = s at hmode hscan'
  have hblank : s.mode.next ' ' = .inString := by
    cases hs : s.mode with
    | outside => exact absurd hs hmode
    | inString => rfl
    | escaped => rfl
  have hinside : Mode.inString ≠ .outside := by decide
  rw [Scan.extend_cons, Scan.step_of_inside true _ hmode, hblank, Scan.extend_cons,
    Scan.step_of_inside true _ hinside, Scan.extend_nil,
    Scan.lexemes_mk _ _ (by simp)] at hscan'
  have hlast : s.piece.reverse ++ [' ', 'y'] = ['y'] := by
    simpa using congrArg List.getLast? hscan'
  have hlength := congrArg List.length hlast
  simp at hlength

theorem toList_render_list (items : List Datum) :
    (render (.list items)).toList = '(' :: ((renderAll items).toList ++ [')']) := by
  simp [render]

theorem toList_renderAll_cons (d e : Datum) (rest : List Datum) :
    (renderAll (d :: e :: rest)).toList =
      d.render.toList ++ ' ' :: (renderAll (e :: rest)).toList := by
  simp [renderAll]

mutual

theorem reads_render (d : Datum) (h : ∀ text ∈ d.atoms, IsAtom text) :
    Reads d.render.toList d.lexemes := by
  cases d with
  | atom text => exact (h text (by simp [atoms])).reads
  | list items =>
      rw [toList_render_list, lexemes]
      exact (reads_renderAll items h).parenthesized

theorem reads_renderAll (ds : List Datum) (h : ∀ text ∈ atomsAll ds, IsAtom text) :
    Reads (renderAll ds).toList (lexemesAll ds) := by
  match ds with
  | [] => exact reads_nil
  | [d] =>
      simpa [renderAll, lexemesAll] using reads_render d (by simpa [atomsAll] using h)
  | d :: e :: rest =>
      rw [toList_renderAll_cons, lexemesAll]
      have hd := reads_render d fun text ht => h text (by simp [atomsAll, ht])
      have hrest := reads_renderAll (e :: rest) fun text ht => h text (by
        rw [atomsAll]
        exact List.mem_append_right _ ht)
      exact hd.blank hrest

end

/-! ## The builder over the lexemes of a datum -/

namespace Program

def Builder.addAll (b : Builder) (es : List Expression) : Builder :=
  es.foldl Builder.add b

theorem Builder.addAll_opened (finished : List Expression) (items : List Expression)
    (outer : List (List Expression)) (es : List Expression) :
    addAll ⟨finished, items :: outer⟩ es = ⟨finished, (es.reverse ++ items) :: outer⟩ := by
  induction es generalizing items with
  | nil => rfl
  | cons e es ih =>
      have hadd : add ⟨finished, items :: outer⟩ e = ⟨finished, (e :: items) :: outer⟩ := rfl
      rw [addAll, List.foldl_cons, hadd, ← addAll, ih]
      simp

theorem Builder.addAll_finished (finished es : List Expression) :
    addAll ⟨finished, []⟩ es = ⟨es.reverse ++ finished, []⟩ := by
  induction es generalizing finished with
  | nil => rfl
  | cons e es ih =>
      have hadd : add ⟨finished, []⟩ e = ⟨e :: finished, []⟩ := rfl
      rw [addAll, List.foldl_cons, hadd, ← addAll, ih]
      simp

end Program

def lexemeToken (lexeme : List Char) : Token := Token.ofLexeme (String.ofList lexeme)

def lexemeRecord (lexeme : List Char) : Record := .ofToken (lexemeToken lexeme)

theorem kind_lexemeRecord (lexeme : List Char) :
    (lexemeRecord lexeme).kind = classifyChars lexeme := by
  simp [lexemeRecord, Record.ofToken, lexemeToken, Token.ofLexeme, classify]

theorem Datum.IsAtom.feed {text : String} (h : IsAtom text) (b : Program.Builder) :
    b.feed (lexemeRecord text.toList) = b.add (.atom (.text text)) := by
  obtain ⟨hopening, hclosing, _⟩ := h
  rw [Program.Builder.feed_atom]
  · simp [lexemeRecord, lexemeToken, Token.ofLexeme, Record.ofToken, Value.ofText?]
  · rw [kind_lexemeRecord]
    intro hkind
    exact hopening (String.toList_injective (classifyChars_eq_lparen hkind))
  · rw [kind_lexemeRecord]
    intro hkind
    exact hclosing (String.toList_injective (classifyChars_eq_rparen hkind))

theorem Program.Builder.feed_opening (b : Builder) :
    b.feed (lexemeRecord ['(']) = ⟨b.finished, [] :: b.opened⟩ := by
  have hkind : (lexemeRecord ['(']).kind = .lparen := by
    rw [kind_lexemeRecord]
    decide
  exact feed_of_lparen b hkind

theorem Program.Builder.feed_closing (finished items : List Expression)
    (outer : List (List Expression)) :
    feed ⟨finished, items :: outer⟩ (lexemeRecord [')']) =
      add ⟨finished, outer⟩ (.list items.reverse) := by
  have hkind : (lexemeRecord [')']).kind = .rparen := by
    rw [kind_lexemeRecord]
    decide
  exact feed_of_rparen finished items outer hkind

mutual

theorem foldl_feed_lexemes (d : Datum) (h : ∀ text ∈ d.atoms, IsAtom text)
    (b : Program.Builder) :
    (d.lexemes.map lexemeRecord).foldl Program.Builder.feed b = b.add d.toExpression := by
  cases d with
  | atom text => exact (h text (by simp [atoms])).feed b
  | list items =>
      have hitems := foldl_feed_lexemesAll items h ⟨b.finished, [] :: b.opened⟩
      rw [lexemes, List.map_cons, List.foldl_cons, Program.Builder.feed_opening,
        List.map_append, List.foldl_append, hitems, Program.Builder.addAll_opened,
        List.map_singleton, List.foldl_cons, List.foldl_nil, Program.Builder.feed_closing,
        List.append_nil, List.reverse_reverse]
      rfl

theorem foldl_feed_lexemesAll (ds : List Datum) (h : ∀ text ∈ atomsAll ds, IsAtom text)
    (b : Program.Builder) :
    ((lexemesAll ds).map lexemeRecord).foldl Program.Builder.feed b =
      b.addAll (toExpressions ds) := by
  match ds with
  | [] => rfl
  | d :: rest =>
      have hd := foldl_feed_lexemes d fun text ht => h text (by simp [atomsAll, ht])
      have hrest := foldl_feed_lexemesAll rest fun text ht => h text (by simp [atomsAll, ht])
      rw [lexemesAll, List.map_append, List.foldl_append, hd, hrest]
      rfl

end

theorem tokenize_of_reads {source : String} {lexemes : List (List Char)}
    (h : Reads source.toList lexemes) :
    tokenize .outsideStrings source = lexemes.map lexemeToken := by
  have hsplit : split .outsideStrings source = lexemes.map String.ofList := by
    rw [split, splitChars, h.2]
  rw [tokenize, hsplit, List.map_map]
  rfl

/-- What is built from source text with the default settings. -/
theorem build_default [Budget] (source : String) :
    Cursor.build .default (.text source) .null .null =
      .ok (Cursor.ofTokens (tokenize .outsideStrings source) .record,
        .tokenized (tokenize .outsideStrings source).length source.length) := rfl

/-- A written program is read back as it was, also if its atoms hold blanks and parentheses inside
strings, or end in an opening parenthesis. Parsing by recursive descent gives it too, as long as
the number of tokens can be shown. -/
theorem read_renderAll [Budget] (forest : List Datum)
    (h : ∀ text ∈ atomsAll forest, IsAtom text) :
    ∃ cursor event,
      Cursor.build .default (.text (renderAll forest)) .null .null = .ok (cursor, event) ∧
        (Program.read cursor).1 = toExpressions forest ∧
        ((Nat.toDigits 10 cursor.size).length ≤ digitLimit →
          (Program.parse cursor).1 = .ok (toExpressions forest)) := by
  have hrecords : (tokenize .outsideStrings (renderAll forest)).map Record.ofToken =
      (lexemesAll forest).map lexemeRecord := by
    rw [tokenize_of_reads (reads_renderAll forest h), List.map_map]
    rfl
  have hread : toExpressions forest =
      (Program.read (Cursor.ofTokens (tokenize .outsideStrings (renderAll forest)) .record)).1 := by
    rw [Cursor.ofTokens, Program.read_start, hrecords, foldl_feed_lexemesAll forest h,
      Program.Builder.start, Program.Builder.addAll_finished]
    simp
  refine ⟨_, _, build_default (renderAll forest), hread.symm, fun hdigits => ?_⟩
  have hparse := Program.parse_eq_read (Cursor.descends_start hdigits)
  exact (congrArg Prod.fst hparse).trans (congrArg Except.ok hread.symm)

theorem read_renderAll_mixed :
    ∃ cursor event,
      Cursor.build .default (.text "(f( () \"a ) (b\" #() '") .null .null =
          .ok (cursor, event) ∧
        (Program.read cursor).1 =
          [.list [.atom (.text "f("), .list [], .atom (.text "\"a ) (b\""), .atom (.text "#(")],
            .atom (.text "'")] ∧
        (Program.parse cursor).1 = .ok (Program.read cursor).1 := by
  have hatoms : ∀ text ∈ ["f(", "\"a ) (b\"", "#(", "'"], IsAtom text := by decide
  obtain ⟨cursor, event, hbuild, hread, hparse⟩ := read_renderAll
    [.list [.atom "f(", .list [], .atom "\"a ) (b\"", .atom "#("], .atom "'"] hatoms
  have hsize : cursor.size = 8 := by
    cases hbuild
    simp only [Cursor.ofTokens, Cursor.start, List.size_toArray, List.length_map]
    decide
  refine ⟨cursor, event, hbuild, hread, ?_⟩
  rw [hread]
  exact hparse (by rw [hsize]; decide)

end SchemeLexer
