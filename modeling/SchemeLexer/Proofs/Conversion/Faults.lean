import SchemeLexer.Proofs.Conversion
import SchemeLexer.Proofs.Conversion.Sequences
import SchemeLexer.Proofs.Json.Limits
import SchemeLexer.Proofs.Mapping
/-!
# The faults of conversion

What can go wrong when tokens are built from values. A value that is converted ends in one of four
faults, unless the message of the fault cannot be made: that is so for values nested too deeply,
and for long bytes that are the JSON text of something else than a token. Values that come from
JSON text are never too deep to be shown.
-/

namespace SchemeLexer

/-! ## Messages -/

namespace Fault

/-- A fault about a value that cannot be converted. -/
def OfConversion : Fault → Prop
  | .unconvertible _ _ => True
  | .invalidMapping _ _ => True
  | .invalidJson _ _ => True
  | .unknownKind _ => True
  | _ => False

variable [Budget]

theorem settle_of_message {fault : Fault} {text : Text} (h : fault.message = .ok text) :
    fault.settle = fault := by
  rw [settle, h]

theorem settle_of_defect {fault : Fault} {defect : Defect} (h : fault.message = .error defect) :
    fault.settle = .defective defect := by
  rw [settle, h]

/-- A fault whose message is made from the description of a value is reported as it is, or else
what keeps the value from being described. -/
theorem settle_of_describe {fault : Fault} {v : Value} {f : String → Text}
    (hmessage : fault.message = v.describe.map f) :
    fault.settle = fault ∨
      ∃ defect, fault.settle = .defective defect ∧ v.describe = .error defect := by
  cases hdescribe : v.describe with
  | ok text =>
      rw [hdescribe] at hmessage
      exact Or.inl (settle_of_message hmessage)
  | error defect =>
      rw [hdescribe] at hmessage
      exact Or.inr ⟨defect, settle_of_defect hmessage, rfl⟩

theorem settle_of_describe_kinded {fault : Fault} {v : Value} {f : String → Text} (h : v.Kinded)
    (hmessage : fault.message = v.describe.map f) :
    fault.settle = fault ∨ ∃ defect, fault.settle = .defective defect ∧ v.Unshown defect := by
  rcases settle_of_describe hmessage with hsame | ⟨defect, hsettle, hdescribe⟩
  · exact Or.inl hsame
  · exact Or.inr ⟨defect, hsettle, Value.describe_error_of_kinded h hdescribe⟩

theorem message_unknownKind (v : Value) :
    (unknownKind v).message = v.describe.map fun text => .plain ("Unknown token kind: " ++ text) := by
  rw [message]
  cases v.describe <;> rfl

theorem settle_unknownKind {v : Value} (h : v.Kinded) :
    (unknownKind v).settle = unknownKind v ∨
      ∃ defect, (unknownKind v).settle = .defective defect ∧ v.Unshown defect :=
  settle_of_describe_kinded h (message_unknownKind v)

theorem settle_notToken {v : Value} (h : v.Kinded) :
    (Representation.notToken v).settle = Representation.notToken v ∨
      ∃ defect, (Representation.notToken v).settle = .defective defect ∧ v.Unshown defect := by
  by_cases hnull : v.isNull = true
  · left
    apply settle_of_message
    rw [Representation.notToken, message, if_pos hnull]
    rfl
  · apply settle_of_describe_kinded h (f := fun text => .plain ("cannot convert as token" ++ ": " ++ text))
    rw [Representation.notToken, message, if_neg hnull]
    cases v.describe <;> rfl

/-- Text is abridged where it is shown, but bytes are not. -/
theorem settle_longBytes (message : Text) {content : List UInt8}
    (h : previewLimit < content.length) :
    (invalidJson (.text message) (.bytes content)).settle = .defective .longBytes := by
  apply settle_of_defect
  simp [Fault.message, Value.isNull, Value.checkLength, h, bind, Except.bind]

theorem settle_invalidJson (message : Text) (source : Json.Source) :
    (invalidJson (.text message) source.toValue).settle =
        invalidJson (.text message) source.toValue ∨
      (invalidJson (.text message) source.toValue).settle = .defective .longBytes ∧
        ∃ content, source = .bytes content ∧ previewLimit < content.length := by
  cases source with
  | text s => exact Or.inl (settle_of_message rfl)
  | bytes content =>
      by_cases hlength : previewLimit < content.length
      · exact Or.inr ⟨settle_longBytes message hlength, content, rfl, hlength⟩
      · have hmessage : (invalidJson (.text message) (.bytes content)).message =
            .ok (message ++ " (in " ++ Text.quotedBytes content ++ ")") := by
          have hdisplay : (Value.text message).display = .ok message := rfl
          simp [Fault.message, Value.isNull, Value.checkLength, hlength, bind, Except.bind,
            Value.describeAbridged, Value.describe_bytes, hdisplay, pure, Except.pure]
        exact Or.inl (settle_of_message hmessage)

theorem settle_invalidJson_shown (message : Text) (source : Json.Source) :
    (invalidJson (.text message) source.shown).settle =
      invalidJson (.text message) source.shown := by
  cases source <;> exact settle_of_message rfl

end Fault

/-! ## JSON text -/

namespace Json

variable [Budget]

/-- The kind that a value read from JSON text names can always be shown. -/
theorem settle_unknownKind_of_load {source : Source} {entries : List (Value × Value)}
    {kind : Value} (hload : load source = .ok (.dict entries))
    (hkind : Value.lookup? entries "type" = some kind) :
    (Fault.unknownKind kind).settle = .unknownKind kind := by
  obtain ⟨hplain, hdepth⟩ := fits_load hload
  have hpart := Value.depth_lt_of_lookup? hkind
  have hkindPlain : kind.Plain := Value.everywhere_of_lookup? hplain hkind
  rcases Fault.settle_unknownKind hkindPlain.kinded with hsame | ⟨-, -, ⟨-, hdeep⟩ | ⟨-, hodd⟩⟩
  · exact hsame
  · omega
  · exact absurd hkindPlain hodd

/-- The JSON text of something else than the mapping of a token, in bytes that are too long to be
shown. -/
def Overlong (content : List UInt8) : Prop :=
  Fault.previewLimit < content.length ∧
    ∃ v message, load (.bytes content) = .ok v ∧
      Mapping.toToken v = .error (.invalidMapping (.text message) v)

/-- The fault that overlong bytes deserve is never reported. -/
theorem loadToken_of_overlong {content : List UInt8} (h : Overlong content) :
    loadToken (.bytes content) = .error (.defective .longBytes) := by
  obtain ⟨hlength, v, message, hload, htoken⟩ := h
  simp only [loadToken, hload, htoken, Fault.raise, Source.toValue,
    Fault.settle_longBytes _ hlength, ite_self]

theorem ofConversion_of_loadToken {source : Source} {fault : Fault}
    (h : loadToken source = .error fault) :
    fault.OfConversion ∨
      fault = .defective .longBytes ∧ ∃ content, source = .bytes content ∧ Overlong content := by
  unfold loadToken at h
  cases hload : load source with
  | error reason =>
      simp only [hload, Fault.raise, Fault.settle_invalidJson_shown] at h
      cases h
      exact Or.inl trivial
  | ok v =>
      simp only [hload] at h
      rcases Mapping.toToken_cases v with ⟨t, htoken, hmapping⟩ | ⟨reason, htoken⟩ |
        ⟨entries, kind, rfl, hkind, htoken, hmapping⟩
      · simp [hmapping, htoken] at h
      · -- what is said of the value depends on the keys it has, but not whether it can be said
        obtain ⟨message, hfault⟩ : ∃ message,
            fault = (Fault.invalidJson (.text message) source.toValue).settle := by
          split_ifs at h with hmapping
          · simp only [htoken] at h
            exact ⟨_, (Except.error.inj h).symm⟩
          · exact ⟨_, (Except.error.inj h).symm⟩
        rcases Fault.settle_invalidJson message source with hsame | ⟨hlong, content, rfl, hlength⟩
        · rw [hfault, hsame]
          exact Or.inl trivial
        · exact Or.inr ⟨hfault.trans hlong, content, rfl, hlength, v, reason, hload, htoken⟩
      · rw [settle_unknownKind_of_load hload hkind] at htoken
        simp only [hmapping, if_true, htoken] at h
        cases h
        exact Or.inl trivial

end Json

/-! ## Values in a representation -/

namespace Representation

variable [Budget]

/-- The faults that the conversion of a value can end in: one of the four, or in its place what
keeps its message from being made. -/
def Reported (v : Value) (fault : Fault) : Prop :=
  fault.OfConversion ∨
    (∃ defect, fault = .defective defect ∧ v.Unshown defect) ∨
    fault = .defective .longBytes ∧ ∃ content, v = .bytes content ∧ Json.Overlong content

theorem reported_notToken {v : Value} (h : v.Kinded) : Reported v (notToken v).settle := by
  rcases Fault.settle_notToken h with hsame | hunshown
  · rw [hsame]
    exact Or.inl trivial
  · exact Or.inr (Or.inl hunshown)

theorem reported_mapping {v : Value} {fault : Fault} (hv : v.Kinded)
    (h : Mapping.toToken v = .error fault) : Reported v fault := by
  rcases Mapping.toToken_cases v with ⟨t, htoken, -⟩ | ⟨message, htoken⟩ |
    ⟨entries, kind, rfl, hkind, htoken, -⟩
  · rw [htoken] at h
    cases h
  · rw [htoken] at h
    cases h
    exact Or.inl trivial
  · rw [htoken] at h
    cases h
    rcases Fault.settle_unknownKind (Value.everywhere_of_lookup? hv hkind) with
      hsame | ⟨defect, hdefect, hunshown⟩
    · rw [hsame]
      exact Or.inl trivial
    · -- what is wrong with the kind is wrong with the mapping, which it is a part of
      exact Or.inr (Or.inl ⟨defect, hdefect, hunshown.of_lookup? hkind⟩)

theorem reported_json {v : Value} {fault : Fault} (h : Json.toToken v = .error fault) :
    Reported v fault := by
  cases v with
  | text s =>
      rcases Json.ofConversion_of_loadToken h with hfault | ⟨-, content, hsource, -⟩
      · exact Or.inl hfault
      · cases hsource
  | bytes content =>
      rcases Json.ofConversion_of_loadToken h with hfault | ⟨hfault, content, hsource, hlong⟩
      · exact Or.inl hfault
      · cases hsource
        exact Or.inr (Or.inr ⟨hfault, content, rfl, hlong⟩)
  | _ =>
      cases h
      exact Or.inl trivial

theorem reported_decode {r : Representation} {v : Value} {fault : Fault} (hv : v.Kinded)
    (h : r.decode v = .error fault) : Reported v fault := by
  cases r with
  | record =>
      rw [decode] at h
      unfold recordToken at h
      split at h
      · cases h
      · cases h
        exact reported_notToken hv
  | mapping => exact reported_mapping hv (map_eq_error_iff.1 h)
  | jsonText => exact reported_json (map_eq_error_iff.1 h)

theorem reported_detect {v : Value} {fault : Fault} (hv : v.Kinded)
    (h : detect v = .error fault) : Reported v fault := by
  unfold detect at h
  split at h
  · cases h
  · split_ifs at h
    cases h
    exact reported_notToken hv
  · split_ifs at h
    cases h
    exact reported_notToken hv
  · cases h
    exact reported_notToken hv

/-! ## Sequences -/

theorem reported_decodeAll {values : List Value} {fault : Fault} (hvalues : ∀ v ∈ values, v.Kinded)
    (h : decodeAll values = .error fault) : ∃ v ∈ values, Reported v fault := by
  cases values with
  | nil => cases h
  | cons first rest =>
      rcases decodeAll_cons_eq_error_iff.1 h with hdetect | ⟨r, -, hall⟩
      · exact ⟨first, by simp, reported_detect (hvalues first (by simp)) hdetect⟩
      · obtain ⟨i, hi, hfault, -⟩ := mapM_eq_error_iff.1 hall
        have hmem := List.getElem_mem hi
        exact ⟨_, hmem, reported_decode (hvalues _ hmem) hfault⟩

theorem decodeAll_of_overlong {content : List UInt8} (h : Json.Overlong content) {t : Token}
    {tokens : List Token} (htokens : ∀ u ∈ t :: tokens, u.Unpaired) (rest : List Value) :
    decodeAll ((t :: tokens).map jsonText.encode ++ .bytes content :: rest) =
      .error (.defective .longBytes) := by
  have hdecode : jsonText.decode (.bytes content) = .error (.defective .longBytes) := by
    rw [decode, Json.toToken, Json.loadToken_of_overlong h]
    rfl
  have hall : ((t :: tokens).map jsonText.encode ++ .bytes content :: rest).mapM jsonText.decode =
      .error (.defective .longBytes) := by
    rw [List.mapM_append, mapM_decode_encode jsonText htokens, List.mapM_cons, hdecode]
    rfl
  rw [List.map_cons, List.cons_append] at hall ⊢
  have hdetect := detect_encode jsonText (htokens t List.mem_cons_self)
  simp only [decodeAll, hdetect, hall, bind, Except.bind]

end Representation

/-- A cursor is built from a list of values just as these are converted, once the representation is
known. -/
theorem Cursor.build_values [Budget] {settings : Settings} {representation : Value}
    {r : Representation}
    (h : Representation.coerce (orElse representation settings.representation) = .ok r)
    (values : List Value) (legacyPadding : Value) :
    build settings (.list values) representation legacyPadding =
      (Representation.decodeAll values).map fun (tokens, form) =>
        (start tokens.toArray r, .converted tokens.length form) := by
  simp only [build, h, Value.elements?, bind, Except.bind]
  cases Representation.decodeAll values <;> rfl

/-- Values that hold neither records without a kind nor integers of too many digits are converted,
or one of the four faults of conversion is reported. The exceptions are faults whose message cannot
be made: those about a value that is nested too deeply, those about long bytes that are the JSON
text of something else than a token, and those about a value that holds a record whose literal is
neither text nor null. The same holds of cursors that are built from them. -/
theorem decodeAll_faults [Budget] (values : List Value) (hvalues : ∀ v ∈ values, v.Kinded) :
    ((∃ found, Representation.decodeAll values = .ok found) ∨
      ∃ fault, Representation.decodeAll values = .error fault ∧
        (fault.OfConversion ∨
          fault = .defective .tooDeep ∧ (∃ v ∈ values, Budget.depth < v.depth) ∨
          fault = .defective .longBytes ∧
            (∃ content, .bytes content ∈ values ∧ Json.Overlong content) ∨
          (∃ defect, fault = .defective defect ∧ defect.OfLiteral) ∧
            ∃ v ∈ values, ¬ v.Plain)) ∧
    ∀ (settings : Settings) (representation legacyPadding : Value) (r : Representation),
      Representation.coerce (Cursor.orElse representation settings.representation) = .ok r →
        Cursor.build settings (.list values) representation legacyPadding =
          (Representation.decodeAll values).map fun (tokens, form) =>
            (Cursor.start tokens.toArray r, .converted tokens.length form) := by
  refine ⟨?_, fun settings representation legacyPadding r hr =>
    Cursor.build_values hr values legacyPadding⟩
  cases hfound : Representation.decodeAll values with
  | ok found => exact Or.inl ⟨found, rfl⟩
  | error fault =>
      refine Or.inr ⟨fault, rfl, ?_⟩
      obtain ⟨v, hv, hfault | ⟨defect, rfl, ⟨rfl, hdepth⟩ | ⟨hdefect, hodd⟩⟩ |
        ⟨hfault, content, rfl, hlong⟩⟩ := Representation.reported_decodeAll hvalues hfound
      · exact Or.inl hfault
      · exact Or.inr (Or.inl ⟨rfl, v, hv, hdepth⟩)
      · exact Or.inr (Or.inr (Or.inr ⟨⟨defect, rfl, hdefect⟩, v, hv, hodd⟩))
      · exact Or.inr (Or.inr (Or.inl ⟨hfault, content, hv, hlong⟩))

theorem decodeAll_faults_mixed : ∃ fault,
    Representation.decodeAll [.token ⟨.dot, some "."⟩, .list [.int 5]] = .error fault ∧
      fault.OfConversion := by
  have hdigits : (Nat.toDigits 10 5).length ≤ digitLimit := by decide
  have hplain : ∀ v ∈ [Value.token ⟨.dot, some "."⟩, .list [.int 5]], v.Plain := by
    simp [Value.token, Value.ofText?, Value.Plain, Value.Everywhere, Value.EverywhereAll,
      Value.PlainPart, hdigits]
  obtain ⟨⟨found, hfound⟩ | ⟨fault, hfault, hcases⟩, -⟩ :=
    decodeAll_faults _ fun v hv => (hplain v hv).kinded
  · cases hfound
  · refine ⟨fault, hfault, ?_⟩
    rcases hcases with hof | ⟨-, hdeep⟩ | ⟨-, content, hbytes, -⟩ | ⟨-, v, hv, hodd⟩
    · exact hof
    · simp [Value.token, Value.ofText?, Value.depth, Value.depthAll, Budget.depth] at hdeep
    · simp [Value.token] at hbytes
    · exact absurd (hplain v hv) hodd

/-- Forty blanks and a digit, which are the JSON text of a number. -/
theorem decodeAll_overlong_blanks :
    let values : List Value :=
      [Representation.jsonText.encode ⟨.dot, some "."⟩, .bytes (List.replicate 40 32 ++ [49])]
    (∀ v ∈ values, v.Plain ∧ v.depth = 1) ∧
      ∃ fault, Representation.decodeAll values = .error fault ∧ ¬ fault.OfConversion := by
  have hdecode : Text.decode (List.replicate 40 32 ++ [49]) =
      .ok (String.ofList (List.replicate 40 ' ' ++ ['1'])) := rfl
  have hitem : Json.item .standard (.value []) (.char '1') (([] : List Char).map .char) =
      .ok (.complete (.int 1) [], ([] : List Char).map .char) := rfl
  have hread : Json.runPlain .standard (.value []) (List.replicate 40 ' ' ++ ['1']) =
      .ok (.int 1) := by
    rw [Json.runPlain_blanks (by simp [Json.isBlank]),
      Json.runPlain_of_item (by decide) hitem, Json.runPlain_complete_nil]
  have hload : Json.load (.bytes (List.replicate 40 32 ++ [49])) = .ok (.int 1) := by
    simp only [Json.load, hdecode, Text.points, String.toList_ofList, Json.read_map_char, hread]
  have hlong : Json.Overlong (List.replicate 40 32 ++ [49]) :=
    ⟨by decide, .int 1, "Expected a mapping, got int", hload, rfl⟩
  have hvalues : ∀ v ∈ [Representation.jsonText.encode ⟨.dot, some "."⟩,
      .bytes (List.replicate 40 32 ++ [49])], v.Plain ∧ v.depth = 1 := by
    simp [Representation.encode, Value.Plain, Value.Everywhere, Value.PlainPart, Value.depth]
  refine ⟨hvalues, .defective .longBytes, ?_, id⟩
  refine Representation.decodeAll_of_overlong hlong (List.forall_mem_singleton.2 ?_) []
  exact Token.unpaired_plain .dot (some ".")

end SchemeLexer
