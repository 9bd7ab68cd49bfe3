import SchemeLexer.Proofs.Conversion.JsonText
/-!
# Detection agrees with decoding

Which representation a value is in is found out without decoding it. The two agree: apart from
bytes, which are decoded as JSON text but never taken for it, a value that is decoded in a
representation is found to be in that one. A value that is found to be in a representation has its
form, so that the faults about the form do not arise when it is decoded.
-/

namespace SchemeLexer

theorem Json.isJson_iff [Budget] {s : Text} : isJson s = true ↔ ∃ v, load (.text s) = .ok v := by
  rw [isJson, load]
  cases parse s.points with
  | error failure => exact iff_of_false (by rintro ⟨⟩) (by rintro ⟨v, ⟨⟩⟩)
  | ok v => exact iff_of_true rfl ⟨v, rfl⟩

namespace Representation

section

variable [Budget]

/-! ## Forms -/

/-- The form of a value in a representation. Every JSON text may be that of a token. -/
def HasForm (r : Representation) (v : Value) : Prop :=
  match r with
  | .record => ∃ t : Record, v = t.value
  | .mapping => Mapping.HasKeys v
  | .jsonText => ∃ s found, v = .text s ∧ Json.load (.text s) = .ok found

theorem hasForm_of_detect {r : Representation} {v : Value} (h : detect v = .ok r) :
    r.HasForm v := by
  unfold detect at h
  split at h
  · next k literal =>
      cases h
      exact ⟨⟨k, literal⟩, rfl⟩
  · split_ifs at h with hkeys
    · cases h
      exact Mapping.isTokenMapping_iff.1 hkeys
    · cases h
  · split_ifs at h with hjson
    · cases h
      obtain ⟨found, hload⟩ := Json.isJson_iff.1 hjson
      exact ⟨_, found, rfl, hload⟩
    · cases h
  · cases h

theorem detect_of_hasForm {r : Representation} {v : Value} (h : r.HasForm v) :
    detect v = .ok r := by
  cases r with
  | record =>
      obtain ⟨t, rfl⟩ := h
      rfl
  | mapping =>
      have hkeys := Mapping.isTokenMapping_iff.2 h
      obtain ⟨entries, kind, literal, rfl, -⟩ := h
      rw [detect, if_pos hkeys]
  | jsonText =>
      obtain ⟨s, found, rfl, hload⟩ := h
      rw [detect, if_pos (Json.isJson_iff.2 ⟨found, hload⟩)]

theorem hasForm_of_decode {r : Representation} {v : Value} {t : Record}
    (hbytes : ∀ content, v ≠ .bytes content) (h : r.decode v = .ok t) : r.HasForm v := by
  cases r with
  | record =>
      rw [decode] at h
      unfold recordToken at h
      split at h
      · next k literal => exact ⟨⟨k, literal⟩, rfl⟩
      · cases h
  | mapping =>
      by_cases hkeys : Mapping.HasKeys v
      · exact hkeys
      · obtain ⟨message, hfault⟩ := Mapping.toToken_of_not_hasKeys hkeys
        rw [decode, hfault] at h
        cases h
  | jsonText =>
      cases v with
      | text s =>
          cases hload : Json.load (.text s) with
          | error reason =>
              rw [decode, Json.toToken_of_load_error hload] at h
              cases h
          | ok found => exact ⟨s, found, rfl, hload⟩
      | bytes content => exact absurd rfl (hbytes content)
      | _ => cases h

/-! ## Faults that are left -/

/-- What can be wrong with a mapping that has both keys. That its kind does not exist can be said
only if the kind can be shown, which a plain kind can unless it is too deep. -/
theorem fault_of_hasKeys {v : Value} {fault : Fault} (hkeys : Mapping.HasKeys v)
    (h : Mapping.toToken v = .error fault) :
    ∃ entries kind literal, v = .dict entries ∧ Value.lookup? entries "type" = some kind ∧
      Value.lookup? entries "literal" = some literal ∧
      (fault = .invalidMapping (.text (Mapping.badLiteral literal)) v ∨
        fault = .unknownKind kind ∨
        ∃ defect, fault = .defective defect ∧ kind.describe = .error defect ∧
          (v.Plain → Budget.depth < kind.depth)) := by
  obtain ⟨entries, kind, literal, rfl, hkind, hliteral⟩ := hkeys
  refine ⟨entries, kind, literal, rfl, hkind, hliteral, ?_⟩
  rcases Mapping.toToken_of_keys hkind hliteral with ⟨t, htoken⟩ | htoken | htoken
  · cases htoken.symm.trans h
  · exact Or.inl (Except.error.inj (h.symm.trans htoken))
  · have hfault := Except.error.inj (h.symm.trans htoken)
    rcases Fault.settle_of_describe (Fault.message_unknownKind kind) with
      hsettle | ⟨defect, hsettle, hdescribe⟩
    · exact Or.inr (Or.inl (hfault.trans hsettle))
    · refine Or.inr (Or.inr ⟨defect, hfault.trans hsettle, hdescribe, ?_⟩)
      intro hplain
      have hpart : kind.Plain := Value.everywhere_of_lookup? hplain hkind
      rcases Value.describe_error_of_kinded hpart.kinded hdescribe with ⟨-, hdepth⟩ | ⟨-, hodd⟩
      · exact hdepth
      · exact absurd hpart hodd

/-- A value other than bytes is decoded in the representation that it is found to be in, or in
none; a record is always decoded. What is wrong with a mapping is its literal or its kind, and what
is wrong with a JSON text is not that it cannot be read. The fault about a kind gives way to the
reason why the kind cannot be shown, if there is one: among plain kinds, that it is too deep. -/
theorem detect_agrees_with_decode (v : Value) (hbytes : ∀ content, v ≠ .bytes content) :
    (∀ (r : Representation) (t : Record), r.decode v = .ok t → detect v = .ok r) ∧
    (∀ (r r' : Representation) (t t' : Record),
      r.decode v = .ok t → r'.decode v = .ok t' → r = r') ∧
    (∀ fault, detect v = .error fault →
      ∀ r : Representation, ∃ fault', r.decode v = .error fault') ∧
    (detect v = .ok .record → ∃ t, decode .record v = .ok t ∧ v = t.value) ∧
    ∀ (r : Representation) (fault : Fault), detect v = .ok r → r.decode v = .error fault →
      (r = .mapping ∧
        ∃ entries kind literal, v = .dict entries ∧ Value.lookup? entries "type" = some kind ∧
          Value.lookup? entries "literal" = some literal ∧
          (fault = .invalidMapping (.text (Mapping.badLiteral literal)) v ∨
            fault = .unknownKind kind ∨
            ∃ defect, fault = .defective defect ∧ kind.describe = .error defect ∧
              (v.Plain → Budget.depth < kind.depth))) ∨
      (r = .jsonText ∧
        ((∃ message : String, fault = .invalidJson (.text message) v ∧
            ∀ reason, message ≠ Json.unreadable reason) ∨
          ∃ kind, fault = .unknownKind kind)) := by
  have hdetect : ∀ (r : Representation) (t : Record), r.decode v = .ok t → detect v = .ok r :=
    fun r t h => detect_of_hasForm (hasForm_of_decode hbytes h)
  refine ⟨hdetect, ?_, ?_, ?_, ?_⟩
  · intro r r' t t' h h'
    exact Except.ok.inj ((hdetect r t h).symm.trans (hdetect r' t' h'))
  · intro fault hfault r
    cases h : r.decode v with
    | error found => exact ⟨found, rfl⟩
    | ok t => cases hfault.symm.trans (hdetect r t h)
  · intro h
    obtain ⟨t, rfl⟩ := hasForm_of_detect h
    exact ⟨t, rfl, rfl⟩
  · intro r fault h hfault
    have hform := hasForm_of_detect h
    cases r with
    | record =>
        obtain ⟨t, rfl⟩ := hform
        cases hfault
    | mapping => exact Or.inl ⟨rfl, fault_of_hasKeys hform (map_eq_error_iff.1 hfault)⟩
    | jsonText =>
        obtain ⟨s, found, rfl, hload⟩ := hform
        exact Or.inr ⟨rfl, Json.fault_of_load hload (map_eq_error_iff.1 hfault)⟩

end

/-- A dictionary with a third entry is a mapping and nothing else. The text `null` is found to be
JSON text and refused for what it denotes. -/
theorem detect_agrees_with_decode_mixed :
    let v : Value := .dict [(.int 0, .null), (.text "literal", .null), (.text "type", .kind .dot)]
    (decode .mapping v = .ok ⟨.dot, .null⟩ ∧ detect v = .ok .mapping ∧
      ∀ (r : Representation) (t : Record), r.decode v = .ok t → r = .mapping) ∧
    detect (.text "null") = .ok .jsonText ∧
    ∃ fault, decode .jsonText (.text "null") = .error fault ∧
      ((∃ message : String, fault = .invalidJson (.text message) (.text "null") ∧
          ∀ reason, message ≠ Json.unreadable reason) ∨
        ∃ kind, fault = .unknownKind kind) := by
  intro v
  have hv : decode .mapping v = .ok ⟨.dot, .null⟩ := rfl
  obtain ⟨hdetect, hunique, -⟩ := detect_agrees_with_decode v fun _ => Value.noConfusion
  refine ⟨⟨hv, hdetect _ _ hv, fun r t h => hunique _ _ _ _ h hv⟩, ?_⟩
  have hread : Json.runPlain .standard (.value []) "null".toList = .ok .null := by
    rw [show "null".toList = ['n', 'u', 'l', 'l'] from rfl, Json.runPlain_null,
      Json.runPlain_complete_nil]
  have hload : Json.load (.text "null") = .ok .null := by
    rw [Json.load, Text.points, Json.parse, if_neg (by decide), Json.read_map_char, hread]
  have hform : detect (.text "null") = .ok .jsonText :=
    detect_of_hasForm (r := .jsonText) ⟨_, _, rfl, hload⟩
  obtain ⟨fault, hfault⟩ : ∃ fault, decode .jsonText (.text "null") = .error fault :=
    ⟨_, by rw [decode, Json.toToken_of_load hload]; rfl⟩
  obtain ⟨-, -, -, -, hfaults⟩ :=
    detect_agrees_with_decode (.text "null") fun _ => Value.noConfusion
  rcases hfaults _ _ hform hfault with ⟨⟨⟩, -⟩ | ⟨-, hcontent⟩
  exact ⟨hform, fault, hfault, hcontent⟩

theorem decode_deep_kind [Budget] {levels : Nat} (h : Budget.depth ≤ levels) :
    decode .mapping (.dict [(.text "type", .nested levels), (.text "literal", .null)]) =
      .error (.defective .tooDeep) := by
  have hplain := Value.plain_nested levels
  have hfollowed := Value.followed_describeTo Budget.depth _ hplain.kinded
  have hdepth : Budget.depth < (Value.nested levels).depth := by
    rw [Value.depth_nested]
    exact Nat.lt_succ_of_le h
  have hmessage : (Fault.unknownKind (.nested levels)).message = .error .tooDeep := by
    rw [Fault.message_unknownKind, Value.describe, hfollowed.eq_error (not_not_intro hplain) hdepth]
    rfl
  have hkind : Mapping.kindOf (.nested levels) =
      .error (Fault.unknownKind (.nested levels)).settle := by
    cases levels <;> rfl
  rw [Fault.settle_of_defect hmessage] at hkind
  show ((Mapping.kindOf (.nested levels) >>= fun k => pure (⟨k, none⟩ : Token)).map
    Record.ofToken) = _
  rw [hkind]
  rfl

/-- A mapping whose kind is a list nested too deeply is found to be a mapping, and so is one whose
kind is a record with a number for its literal. Neither is refused for naming no kind, since the
fault that says so cannot show the kind. -/
theorem decode_unshowable_kind :
    let deep : Value :=
      .dict [(.text "type", .nested Budget.depth), (.text "literal", .null)]
    let odd : Value :=
      .dict [(.text "type", .record (.kind .dot) (.int 5)), (.text "literal", .null)]
    deep.Plain ∧
      detect deep = .ok .mapping ∧ decode .mapping deep = .error (.defective .tooDeep) ∧
      odd.Kinded ∧
        detect odd = .ok .mapping ∧
          decode .mapping odd = .error (.defective (.unsized "int")) := by
  have hplain : ∀ levels,
      (Value.dict [(.text "type", .nested levels), (.text "literal", .null)]).Plain :=
    fun levels => ⟨trivial, Value.plain_nested levels, trivial, trivial, trivial⟩
  have hdetect : ∀ levels,
      detect (.dict [(.text "type", .nested levels), (.text "literal", .null)]) = .ok .mapping :=
    fun _ => rfl
  have hdigits : (Nat.toDigits 10 5).length ≤ digitLimit := by decide
  have hkinded : (Value.dict [(.text "type", .record (.kind .dot) (.int 5)),
      (.text "literal", .null)]).Kinded :=
    ⟨trivial, ⟨trivial, trivial, hdigits⟩, trivial, trivial, trivial⟩
  exact ⟨hplain _, hdetect _, decode_deep_kind (Nat.le_refl _), hkinded, rfl, rfl⟩

end Representation

end SchemeLexer
