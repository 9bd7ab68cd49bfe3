import SchemeLexer.Json.Scalar
import SchemeLexer.Value.Equality
/-!
# Reading JSON text

The text is read item by item: a bracket, a separator or a scalar at a time, with the containers
that are still open on a stack. Each item hands back the text after it, which is shorter, so that
reading ends.
-/

namespace SchemeLexer.Json

def isBlank (c : Char) : Bool :=
  c = ' ' || c = '\t' || c = '\n' || c = '\r'

/-! ## Containers -/

/-- A container that is still open, with what was read of it before the value to come: the items of
an array, the latest first, or the members of an object and the key of that value. -/
inductive Frame where
  | array (items : List Value)
  | object (members : List (Value × Value)) (key : Text)

/-- What has been read and what may come next: a value; in an array that has just been opened, a
value or its end; a key or, right after the opening of an object, its end; a colon; and after a
complete value a comma or the end of the innermost container, or blanks only if there is none. -/
inductive State where
  | value (stack : List Frame)
  | opened (stack : List Frame)
  | key (first : Bool) (members : List (Value × Value)) (stack : List Frame)
  | colon (members : List (Value × Value)) (key : Text) (stack : List Frame)
  | complete (value : Value) (stack : List Frame)

def openContainer (limits : Limits) (container : Container) (stack : List Frame) :
    Except Failure State :=
  if exceeds (stack.length + 1) limits.depth then .error (.tooDeep container)
  else
    match container with
    | .array => .ok (.opened stack)
    | .object => .ok (.key true [] stack)

def beginValue (limits : Limits) (stack : List Frame) (p : CodePoint) (rest : List CodePoint) :
    Except Failure (State × List CodePoint) :=
  if p = .char '[' then (openContainer limits .array stack).map fun s => (s, rest)
  else if p = .char '\x7b' then (openContainer limits .object stack).map fun s => (s, rest)
  else (readScalar limits (p :: rest)).map fun (v, rest) => (.complete v stack, rest)

def afterValue (value : Value) (stack : List Frame) (p : CodePoint) (rest : List CodePoint) :
    Except Failure (State × List CodePoint) :=
  match stack with
  | [] => .error (.syntactic .extraData (p :: rest))
  | .array items :: stack =>
      if p = .char ',' then .ok (.value (.array (value :: items) :: stack), rest)
      else if p = .char ']' then .ok (.complete (.list (value :: items).reverse) stack, rest)
      else .error (.syntactic .expectingComma (p :: rest))
  | .object members key :: stack =>
      -- the last of several members with one key counts, in the place of the first
      let members := Value.put (.text key) value members
      if p = .char ',' then .ok (.key false members stack, rest)
      else if p = .char '\x7d' then .ok (.complete (.dict members) stack, rest)
      else .error (.syntactic .expectingComma (p :: rest))

def item (limits : Limits) (s : State) (p : CodePoint) (rest : List CodePoint) :
    Except Failure (State × List CodePoint) :=
  match s with
  | .value stack => beginValue limits stack p rest
  | .opened stack =>
      if p = .char ']' then .ok (.complete (.list []) stack, rest)
      else beginValue limits (.array [] :: stack) p rest
  | .key first members stack =>
      if first && p = .char '\x7d' then .ok (.complete (.dict []) stack, rest)
      else if p = .char '"' then
        (readString (p :: rest) [] [] rest).map fun (key, rest) => (.colon members key stack, rest)
      else .error (.syntactic .expectingKey (p :: rest))
  | .colon members key stack =>
      if p = .char ':' then .ok (.value (.object members key :: stack), rest)
      else .error (.syntactic .expectingColon (p :: rest))
  | .complete value stack => afterValue value stack p rest

def step (limits : Limits) (s : State) (p : CodePoint) (rest : List CodePoint) :
    Except Failure (State × List CodePoint) :=
  if isBlank p.shown then .ok (s, rest) else item limits s p rest

def finish : State → Except Failure Value
  | .value _ => .error (.syntactic .expectingValue [])
  | .opened _ => .error (.syntactic .expectingValue [])
  | .key _ _ _ => .error (.syntactic .expectingKey [])
  | .colon _ _ _ => .error (.syntactic .expectingColon [])
  | .complete value [] => .ok value
  | .complete _ (_ :: _) => .error (.syntactic .expectingComma [])

/-! ## What is left is shorter -/

private theorem beginValue_shorter {limits : Limits} {stack : List Frame} {p : CodePoint}
    {tail rest : List CodePoint} {s : State}
    (h : beginValue limits stack p tail = .ok (s, rest)) : rest.length ≤ tail.length := by
  unfold beginValue at h
  split at h
  · cases hopen : openContainer limits .array stack <;> rw [hopen] at h <;> cases h
    exact Nat.le_refl _
  · split at h
    · cases hopen : openContainer limits .object stack <;> rw [hopen] at h <;> cases h
      exact Nat.le_refl _
    · cases hread : readScalar limits (p :: tail) with
      | error e => rw [hread] at h; cases h
      | ok found =>
          rw [hread] at h
          cases h
          have := readScalar_shorter hread
          simp only [List.length_cons] at this
          omega

private theorem afterValue_shorter {value : Value} {stack : List Frame} {p : CodePoint}
    {tail rest : List CodePoint} {s : State}
    (h : afterValue value stack p tail = .ok (s, rest)) : rest.length ≤ tail.length := by
  unfold afterValue at h
  split at h
  · cases h
  · split at h
    · cases h
      exact Nat.le_refl _
    · split at h <;> cases h
      exact Nat.le_refl _
  · split at h
    · cases h
      exact Nat.le_refl _
    · split at h <;> cases h
      exact Nat.le_refl _

private theorem item_shorter {limits : Limits} {before after : State} {p : CodePoint}
    {tail rest : List CodePoint}
    (h : item limits before p tail = .ok (after, rest)) : rest.length ≤ tail.length := by
  unfold item at h
  split at h
  · exact beginValue_shorter h
  · split at h
    · cases h
      exact Nat.le_refl _
    · exact beginValue_shorter h
  · split at h
    · cases h
      exact Nat.le_refl _
    · split at h
      · cases hread : readString (p :: tail) [] [] tail with
        | error e => rw [hread] at h; cases h
        | ok found =>
            rw [hread] at h
            cases h
            exact Nat.le_of_lt (readString_shorter hread)
      · cases h
  · split at h <;> cases h
    exact Nat.le_refl _
  · exact afterValue_shorter h

/-- What is left after one step is no longer than what followed its first character. -/
theorem step_shorter {limits : Limits} {before after : State} {p : CodePoint}
    {tail rest : List CodePoint}
    (h : step limits before p tail = .ok (after, rest)) : rest.length ≤ tail.length := by
  unfold step at h
  split at h
  · cases h
    exact Nat.le_refl _
  · exact item_shorter h

/-! ## Whole texts -/

def run (limits : Limits) (s : State) (text : List CodePoint) : Except Failure Value :=
  match text with
  | [] => finish s
  | p :: tail =>
      match _h : step limits s p tail with
      | .error failure => .error failure
      | .ok (s, rest) => run limits s rest
termination_by text.length
decreasing_by
  have := step_shorter _h
  simp only [List.length_cons]
  omega

def read (limits : Limits) (text : List CodePoint) : Except Failure Value :=
  run limits (.value []) text

/-- Reads a text that holds the JSON text of a token, or of any value within the limits. A text
may not begin with a byte order mark. -/
def parse [Budget] (text : List CodePoint) : Except Failure Value :=
  if text.head? = some (.char '\ufeff') then .error (.syntactic .byteOrderMark text)
  else read .standard text

end SchemeLexer.Json
