import SchemeLexer.Text.Units
/-!
# Texts

A text is a sequence of code points. Nearly all texts are plain: they hold characters only, and are
strings. The others are kept apart from these, so that every sequence of code points is one text.
-/

namespace SchemeLexer

/-- Code points among which there is a surrogate. -/
structure WideText where
  points : List CodePoint
  wide : points.any CodePoint.isSurrogate = true
  deriving DecidableEq, Repr

inductive Text where
  | plain (s : String)
  | wide (w : WideText)
  deriving DecidableEq, Repr

instance : Coe String Text := ⟨.plain⟩

namespace Text

def ofPoints (points : List CodePoint) : Text :=
  if h : points.any CodePoint.isSurrogate = true then .wide ⟨points, h⟩
  else .plain (String.ofList (points.map CodePoint.shown))

def points : Text → List CodePoint
  | .plain s => s.toList.map .char
  | .wide w => w.points

def length : Text → Nat
  | .plain s => s.length
  | .wide w => w.points.length

protected def append : Text → Text → Text
  | .plain s, .plain t => .plain (s ++ t)
  | s, t => .ofPoints (s.points ++ t.points)

instance : Append Text := ⟨Text.append⟩

/-- A text as a string, in which surrogates have been replaced. -/
def shown : Text → String
  | .plain s => s
  | .wide w => String.ofList (w.points.map CodePoint.shown)

theorem map_shown_map_char (text : List Char) :
    (text.map CodePoint.char).map CodePoint.shown = text := by
  rw [List.map_map]
  exact List.map_id text

theorem ofPoints_map_char (text : List Char) :
    ofPoints (text.map .char) = .plain (String.ofList text) := by
  have hplain : ¬(text.map CodePoint.char).any CodePoint.isSurrogate = true := by
    simp [CodePoint.isSurrogate]
  rw [ofPoints, dif_neg hplain, map_shown_map_char]

theorem ofPoints_points (s : Text) : ofPoints s.points = s := by
  cases s with
  | plain s => rw [points, ofPoints_map_char, String.ofList_toList]
  | wide w => rw [points, ofPoints, dif_pos w.wide]

theorem points_ofPoints (points : List CodePoint) : (ofPoints points).points = points := by
  by_cases hwide : points.any CodePoint.isSurrogate = true
  · rw [ofPoints, dif_pos hwide, Text.points]
  · rw [ofPoints, dif_neg hwide, Text.points, String.toList_ofList, List.map_map]
    have hchar : ∀ p ∈ points, (CodePoint.char ∘ CodePoint.shown) p = p := by
      intro p hp
      cases p with
      | char c => rfl
      | surrogate unit h => exact absurd (List.any_eq_true.2 ⟨_, hp, rfl⟩) hwide
    exact List.map_congr_left hchar |>.trans (List.map_id points)

theorem shown_ofPoints (points : List CodePoint) :
    (ofPoints points).shown = String.ofList (points.map CodePoint.shown) := by
  by_cases hwide : points.any CodePoint.isSurrogate = true
  · rw [ofPoints, dif_pos hwide, shown]
  · rw [ofPoints, dif_neg hwide, shown]

theorem points_injective {s t : Text} (h : s.points = t.points) : s = t := by
  rw [← ofPoints_points s, h, ofPoints_points]

end Text

end SchemeLexer
