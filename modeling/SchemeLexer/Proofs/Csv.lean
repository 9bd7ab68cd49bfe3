import SchemeLexer.Csv
/-!
# Rows read back

A reader of rows whose fields are quoted. It looks at one code point at a time: a quote inside a
field closes the field or is the first of two that stand for one, and only the next one
tells which. What has been read determines the text up to that point, so the reader accepts the
written rows and nothing else.
-/

namespace SchemeLexer.Csv

/-- Where the reading of a row stands: between fields, inside the quotes of one, or after a quote
inside it, which closes the field unless another quote follows. -/
inductive Reading where
  | between (fields : List (List CodePoint))
  | inside (fields : List (List CodePoint)) (field : List CodePoint)
  | quote (fields : List (List CodePoint)) (field : List CodePoint)
  deriving DecidableEq, Repr

namespace Reading

def step : Reading → CodePoint → Option Reading
  | .between fields, p => if p = doubleQuote then some (.inside fields []) else none
  | .inside fields field, p =>
      if p = doubleQuote then some (.quote fields field) else some (.inside fields (field ++ [p]))
  | .quote fields field, p =>
      if p = doubleQuote then some (.inside fields (field ++ [p]))
      else if p = comma then some (.between (fields ++ [field]))
      else none

def run (r : Reading) (text : List CodePoint) : Option Reading :=
  text.foldlM step r

def finish : Reading → Option (List (List CodePoint))
  | .quote fields field => some (fields ++ [field])
  | _ => none

theorem run_nil (r : Reading) : r.run [] = some r := rfl

theorem run_cons (r : Reading) (p : CodePoint) (text : List CodePoint) :
    r.run (p :: text) = (r.step p).bind fun next => next.run text := rfl

theorem run_append (r : Reading) (text more : List CodePoint) :
    r.run (text ++ more) = (r.run text).bind fun next => next.run more :=
  List.foldlM_append

end Reading

/-- The fields of a text that is one row from its beginning to its end. -/
def readRow (text : List CodePoint) : Option (List (List CodePoint)) :=
  ((Reading.between []).run text).bind Reading.finish

/-! ## Rows field by field -/

/-- Fields that others follow, each with its comma. -/
def writtenAhead (fields : List (List CodePoint)) : List CodePoint :=
  fields.flatMap fun field => writtenField field ++ [comma]

theorem writtenAhead_concat (fields : List (List CodePoint)) (field : List CodePoint) :
    writtenAhead (fields ++ [field]) = writtenAhead fields ++ (writtenField field ++ [comma]) := by
  simp [writtenAhead]

theorem writtenRow_cons {fields : List (List CodePoint)} (hne : fields ≠ [])
    (field : List CodePoint) :
    writtenRow (field :: fields) = writtenField field ++ [comma] ++ writtenRow fields := by
  obtain ⟨next, rest, rfl⟩ := List.exists_cons_of_ne_nil hne
  exact List.intercalate_cons_cons

theorem writtenRow_concat (fields : List (List CodePoint)) (field : List CodePoint) :
    writtenRow (fields ++ [field]) = writtenAhead fields ++ writtenField field := by
  induction fields with
  | nil => exact List.intercalate_singleton
  | cons first fields ih =>
      rw [List.cons_append, writtenRow_cons (by simp), ih]
      simp [writtenAhead]

/-! ## What is written is read -/

namespace Reading

theorem run_writtenPoint (fields : List (List CodePoint)) (field : List CodePoint) (p : CodePoint) :
    (inside fields field).run (writtenPoint p) = some (.inside fields (field ++ [p])) := by
  by_cases hquote : p = doubleQuote
  · subst hquote
    rfl
  · simp [writtenPoint, hquote, run_cons, run_nil, step]

theorem run_flatMap_writtenPoint (fields : List (List CodePoint)) (field text : List CodePoint) :
    (inside fields field).run (text.flatMap writtenPoint) =
      some (.inside fields (field ++ text)) := by
  induction text generalizing field with
  | nil => simp [run_nil]
  | cons p text ih =>
      rw [List.flatMap_cons, run_append, run_writtenPoint, Option.bind_some, ih]
      simp

theorem run_writtenField (fields : List (List CodePoint)) (field : List CodePoint) :
    (between fields).run (writtenField field) = some (.quote fields field) := by
  rw [writtenField, List.cons_append, run_cons]
  simp only [step, if_true, Option.bind_some]
  rw [run_append, run_flatMap_writtenPoint]
  rfl

theorem run_writtenAhead (before fields : List (List CodePoint)) :
    (between before).run (writtenAhead fields) = some (.between (before ++ fields)) := by
  induction fields generalizing before with
  | nil => simp [writtenAhead, run_nil]
  | cons field fields ih =>
      have hcomma : (quote before field).run [comma] = some (.between (before ++ [field])) := rfl
      rw [writtenAhead, List.flatMap_cons, run_append, run_append, run_writtenField,
        Option.bind_some, hcomma, Option.bind_some, ← writtenAhead, ih]
      simp

end Reading

theorem readRow_concat (fields : List (List CodePoint)) (field : List CodePoint) :
    readRow (writtenRow (fields ++ [field])) = some (fields ++ [field]) := by
  rw [readRow, writtenRow_concat, Reading.run_append, Reading.run_writtenAhead, Option.bind_some,
    Reading.run_writtenField]
  rfl

/-! ## Nothing else is read -/

namespace Reading

/-- The text that leads to where the reading stands. -/
def consumed : Reading → List CodePoint
  | .between fields => writtenAhead fields
  | .inside fields field => writtenAhead fields ++ doubleQuote :: field.flatMap writtenPoint
  | .quote fields field => writtenAhead fields ++ writtenField field

/-- A second quote is a quote of the field, and then both of them are what is written for it. -/
theorem consumed_step {r next : Reading} {p : CodePoint} (h : r.step p = some next) :
    next.consumed = r.consumed ++ [p] := by
  cases r with
  | between fields =>
      simp only [step, Option.ite_none_right_eq_some, Option.some.injEq] at h
      obtain ⟨rfl, rfl⟩ := h
      simp [consumed]
  | inside fields field =>
      by_cases hquote : p = doubleQuote
      · subst hquote
        cases h
        simp [consumed, writtenField]
      · simp only [step, hquote, if_false, Option.some.injEq] at h
        subst h
        simp [consumed, writtenPoint, hquote]
  | quote fields field =>
      by_cases hquote : p = doubleQuote
      · subst hquote
        cases h
        simp [consumed, writtenField, writtenPoint]
      · simp only [step, hquote, if_false, Option.ite_none_right_eq_some, Option.some.injEq] at h
        obtain ⟨rfl, rfl⟩ := h
        simp [consumed, writtenAhead_concat]

theorem consumed_run {r final : Reading} {text : List CodePoint} (h : r.run text = some final) :
    final.consumed = r.consumed ++ text := by
  induction text generalizing r with
  | nil =>
      cases h
      simp
  | cons p text ih =>
      rw [run_cons, Option.bind_eq_some_iff] at h
      obtain ⟨next, hstep, hrun⟩ := h
      rw [ih hrun, consumed_step hstep]
      simp

end Reading

/-- The reader takes exactly the written rows, each for its fields. -/
theorem readRow_eq_some_iff {text : List CodePoint} {fields : List (List CodePoint)} :
    readRow text = some fields ↔ fields ≠ [] ∧ text = writtenRow fields := by
  constructor
  · intro h
    obtain ⟨final, hrun, hfinish⟩ := Option.bind_eq_some_iff.1 h
    have hconsumed := Reading.consumed_run hrun
    cases final with
    | between _ => cases hfinish
    | inside _ _ => cases hfinish
    | quote before field =>
        cases hfinish
        refine ⟨by simp, ?_⟩
        rw [writtenRow_concat]
        exact hconsumed.symm
  · rintro ⟨hne, rfl⟩
    rw [← List.dropLast_concat_getLast hne]
    exact readRow_concat _ _

/-- The row of a token is read back as its kind and its text, and nothing of it is left. So two
tokens have the same row only if they agree in both. -/
theorem readRow_toCsv (t : Token) :
    readRow t.toCsv.points = some [(t.kind.name : Text).points, t.text.points] ∧
      ∀ u : Token, t.toCsv = u.toCsv ↔ t.kind = u.kind ∧ t.text = u.text := by
  have hread (t : Token) :
      readRow t.toCsv.points = some [(t.kind.name : Text).points, t.text.points] := by
    rw [Token.toCsv, row, Text.points_ofPoints, readRow_eq_some_iff]
    exact ⟨by simp, rfl⟩
  refine ⟨hread t, ?_⟩
  intro u
  constructor
  · intro hrow
    have hfields := hread t
    rw [hrow, hread u, Option.some.injEq, List.cons.injEq, List.cons.injEq] at hfields
    obtain ⟨hname, htext, -⟩ := hfields
    have hkind : some u.kind = some t.kind := by
      rw [← Kind.ofName?_name, ← Kind.ofName?_name, Text.plain.inj (Text.points_injective hname)]
    exact ⟨(Option.some.inj hkind).symm, (Text.points_injective htext).symm⟩
  · rintro ⟨hkind, htext⟩
    rw [Token.toCsv, Token.toCsv, hkind, htext]

-- The field boundary stands among quotes that belong to the fields.
example :
    readRow ("\"a\"\",\"\"\",\"\"\"\"" : Text).points =
        some [("a\",\"" : Text).points, ("\"" : Text).points] ∧
      readRow ("\"a\"b\"" : Text).points = none := by
  decide

end SchemeLexer.Csv
