import SchemeLexer.Json.Reader
import SchemeLexer.Proofs.Json.Strings
/-!
# The steps of reading JSON text

What reading does with each written item, in the form "the reader in this state, at this item, goes
on in that state after it". Blanks are passed over in every state, so the statements about items
compose to statements about laid-out text.
-/

namespace SchemeLexer.Json

variable {limits : Limits} {s next : State} {stack : List Frame} {text rest : List Char}

/-- Reading of a text of characters only, which all written texts are. -/
def runPlain (limits : Limits) (s : State) (text : List Char) : Except Failure Value :=
  run limits s (text.map .char)

theorem read_map_char : read limits (text.map .char) = runPlain limits (.value []) text :=
  rfl

/-! ## Single steps -/

theorem run_of_step {p : CodePoint} {tail left : List CodePoint}
    (h : step limits s p tail = .ok (next, left)) :
    run limits s (p :: tail) = run limits next left := by
  rw [run]
  split
  · next failure hfailure =>
      rw [h] at hfailure
      cases hfailure
  · next found remaining hfound =>
      rw [h] at hfound
      cases hfound
      rfl

theorem runPlain_of_item {c : Char} (hc : isBlank c = false)
    (h : item limits s (.char c) (text.map .char) = .ok (next, rest.map .char)) :
    runPlain limits s (c :: text) = runPlain limits next rest := by
  apply run_of_step
  rw [step, CodePoint.shown, hc]
  exact h

theorem runPlain_blank {c : Char} (hc : isBlank c = true) :
    runPlain limits s (c :: text) = runPlain limits s text := by
  apply run_of_step
  rw [step, CodePoint.shown, hc]
  rfl

theorem runPlain_blanks {blanks : List Char} (h : ∀ c ∈ blanks, isBlank c = true) :
    runPlain limits s (blanks ++ text) = runPlain limits s text := by
  induction blanks with
  | nil => rfl
  | cons c blanks ih =>
      rw [List.cons_append, runPlain_blank (h c List.mem_cons_self)]
      exact ih fun c hc => h c (List.mem_cons_of_mem _ hc)

/-! ## Scalars -/

theorem writtenPoints_append (points : List CodePoint) (rest : List Char) :
    writtenPoints points ++ rest = '"' :: (points.flatMap writtenPoint ++ '"' :: rest) := by
  simp [writtenPoints]

theorem runPlain_writtenPoints (points : List CodePoint) :
    runPlain limits (.value stack) (writtenPoints points ++ rest) =
      runPlain limits (.complete (.text (CodePoint.joined points)) stack) rest := by
  rw [writtenPoints_append]
  apply runPlain_of_item (by decide)
  simp only [item, beginValue, readScalar, readString_points]
  rfl

theorem runPlain_writtenText {s : Text} (h : s.Unpaired) :
    runPlain limits (.value stack) (writtenText s ++ rest) =
      runPlain limits (.complete (.text s) stack) rest := by
  rw [writtenText, runPlain_writtenPoints, CodePoint.joined_points h]

theorem runPlain_null :
    runPlain limits (.value stack) ('n' :: 'u' :: 'l' :: 'l' :: rest) =
      runPlain limits (.complete .null stack) rest := by
  apply runPlain_of_item (by decide)
  rfl

theorem runPlain_true :
    runPlain limits (.value stack) ('t' :: 'r' :: 'u' :: 'e' :: rest) =
      runPlain limits (.complete (.bool true) stack) rest := by
  apply runPlain_of_item (by decide)
  rfl

theorem runPlain_false :
    runPlain limits (.value stack) ('f' :: 'a' :: 'l' :: 's' :: 'e' :: rest) =
      runPlain limits (.complete (.bool false) stack) rest := by
  apply runPlain_of_item (by decide)
  rfl

/-! ## Arrays -/

theorem runPlain_openArray (hdepth : exceeds (stack.length + 1) limits.depth = false) :
    runPlain limits (.value stack) ('[' :: rest) = runPlain limits (.opened stack) rest := by
  apply runPlain_of_item (by decide)
  simp [item, beginValue, openContainer, hdepth, Except.map]

theorem runPlain_emptyArray :
    runPlain limits (.opened stack) (']' :: rest) =
      runPlain limits (.complete (.list []) stack) rest := by
  apply runPlain_of_item (by decide)
  rfl

/-- An array that is not empty has been opened like the value to come of an array without items. -/
theorem runPlain_opened {c : Char} (hblank : isBlank c = false) (hclose : c ≠ ']') :
    runPlain limits (.opened stack) (c :: text) =
      runPlain limits (.value (.array [] :: stack)) (c :: text) := by
  have hstep : step limits (.opened stack) (.char c) (text.map .char) =
      step limits (.value (.array [] :: stack)) (.char c) (text.map .char) := by
    simp [step, CodePoint.shown, hblank, item, hclose]
  rw [runPlain, runPlain, List.map_cons, run, run, hstep]

theorem runPlain_comma_array {items : List Value} {v : Value} :
    runPlain limits (.complete v (.array items :: stack)) (',' :: rest) =
      runPlain limits (.value (.array (v :: items) :: stack)) rest := by
  apply runPlain_of_item (by decide)
  rfl

theorem runPlain_closeArray {items : List Value} {v : Value} :
    runPlain limits (.complete v (.array items :: stack)) (']' :: rest) =
      runPlain limits (.complete (.list (v :: items).reverse) stack) rest := by
  apply runPlain_of_item (by decide)
  rfl

/-! ## Objects -/

theorem runPlain_openObject (hdepth : exceeds (stack.length + 1) limits.depth = false) :
    runPlain limits (.value stack) ('\x7b' :: rest) =
      runPlain limits (.key true [] stack) rest := by
  apply runPlain_of_item (by decide)
  simp [item, beginValue, openContainer, hdepth, Except.map]

theorem runPlain_emptyObject :
    runPlain limits (.key true [] stack) ('\x7d' :: rest) =
      runPlain limits (.complete (.dict []) stack) rest := by
  apply runPlain_of_item (by decide)
  rfl

theorem runPlain_keyPoints {first : Bool} {members : List (Value × Value)} (key : List CodePoint) :
    runPlain limits (.key first members stack) (writtenPoints key ++ rest) =
      runPlain limits (.colon members (CodePoint.joined key) stack) rest := by
  rw [writtenPoints_append]
  apply runPlain_of_item (by decide)
  have hopen : ¬(first && decide (CodePoint.char '"' = .char '\x7d')) = true := by simp
  rw [item, if_neg hopen, if_pos rfl, readString_points]
  rfl

theorem runPlain_key {first : Bool} {members : List (Value × Value)} (key : String) :
    runPlain limits (.key first members stack) (writtenText key ++ rest) =
      runPlain limits (.colon members key stack) rest := by
  rw [writtenText, runPlain_keyPoints, CodePoint.joined_points (Text.unpaired_plain key)]

theorem runPlain_colon {members : List (Value × Value)} {key : Text} :
    runPlain limits (.colon members key stack) (':' :: rest) =
      runPlain limits (.value (.object members key :: stack)) rest := by
  apply runPlain_of_item (by decide)
  rfl

theorem runPlain_comma_object {members : List (Value × Value)} {key : Text} {v : Value} :
    runPlain limits (.complete v (.object members key :: stack)) (',' :: rest) =
      runPlain limits (.key false (Value.put (.text key) v members) stack) rest := by
  apply runPlain_of_item (by decide)
  rfl

theorem runPlain_closeObject {members : List (Value × Value)} {key : Text} {v : Value} :
    runPlain limits (.complete v (.object members key :: stack)) ('\x7d' :: rest) =
      runPlain limits (.complete (.dict (Value.put (.text key) v members)) stack) rest := by
  apply runPlain_of_item (by decide)
  rfl

theorem runPlain_complete_nil {v : Value} : runPlain limits (.complete v []) [] = .ok v := by
  rw [runPlain, List.map_nil, run]
  rfl

end SchemeLexer.Json
