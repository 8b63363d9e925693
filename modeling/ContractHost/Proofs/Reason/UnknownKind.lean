import Mathlib.Tactic.Common
import ContractHost.Proofs.Reason.RoundTrip
import ContractHost.Proofs.Reason.Senders

/-!
# Unknown kinds

A reason of an unknown kind is refused by its kind, whether it is written or read.  When it is read,
this comes after the whole text was read and before its details are looked at: the details may be
any value, but a text that is no JSON, or whose sender is no sender, is refused as such
(`Payload.refused_of_kind_ne`).
-/

namespace ContractHost

/-- The text is that of a sender of signed bytes, or `null`, or is not there. -/
def IsSender (text : Option (List UInt8)) : Prop := ∃ ls, SenderGiven ls text ∧ AreBytes ls

/-- A sender is read just from the texts of senders. -/
lemma isSender_iff {text : Option (List UInt8)} :
    IsSender text ↔
      ∃ sender, (Json.readGiven RawReason.senderReader text).map Option.join = some sender := by
  constructor
  · rintro ⟨ls, hls, hbytes⟩
    rw [hls.readGiven_eq]
    obtain ⟨_, sender, hsender, _⟩ | ⟨hnot, _⟩ := mapM_bytes?_cases ls
    · exact ⟨sender, hsender⟩
    · exact absurd hbytes hnot
  · rintro ⟨sender, hsender⟩
    rcases text with _ | text
    · exact ⟨none, .leftOut, fun l hl => absurd hl List.not_mem_nil⟩
    · rcases hread : Json.readAll RawReason.senderReader text with e | sender'
      · rw [Json.readGiven, Option.mapM_some, hread] at hsender
        cases hsender
      · obtain ⟨ls, hls, hbytes⟩ := exists_senderText hread
        exact ⟨ls, .given hls, hbytes⟩

/-- The fields of a reason recognize their texts. -/
lemma RawReason.recognizes_of_mem_fields : ∀ field ∈ shape.fields, field.reader.Recognizes := by
  simp only [shape, fields, Json.Field.ofReader, List.mem_cons, List.not_mem_nil, or_false]
  rintro field (rfl | rfl | rfl)
  · exact Json.Reader.recognizes_string.map _
  · exact recognizes_senderReader.map _
  · exact (Json.Value.recognizes_reader _).map _

namespace Payload

variable {k : String}

/-- A reason of an unknown kind is not written. -/
lemma encode_of_ne {p : Payload} (h : p.kind ≠ transferKind) :
    p.encode = .error (.unknownKind p.kind) := by
  rw [encode, validate, if_neg h]
  rfl

/-- A text that is no JSON is refused as such. -/
lemma exists_error_of_not_isJson {s : List UInt8} (h : ¬Json.IsJson s) :
    ∃ e, ofBytes s = .error (.json e) := by
  rw [ofBytes]
  rcases hraw : RawReason.ofBytes s with e | raw
  · exact ⟨e, rfl⟩
  · have hrecognizes := Json.RecordShape.recognizes_reader RawReason.recognizes_of_mem_fields
    exact absurd (hrecognizes.isJson hraw) h

/-- A reason of an unknown kind is refused by its kind once its parts are read. -/
lemma ofBytes_of_ne {kind details s : List UInt8} {sender : Option (List UInt8)}
    (hk : k ≠ transferKind) (hkind : (Json.Value.string k).HasPaddedText kind)
    (hs : RawReason.TextOf kind sender details s) (hsender : IsSender sender)
    (hdetails : ∃ v, Json.readAll (Json.Value.reader RawReason.detailsDepth) details = .ok v) :
    ofBytes s = .error (.unknownKind k) := by
  obtain ⟨bs, hbs⟩ := isSender_iff.1 hsender
  obtain ⟨v, hv⟩ := hdetails
  have hparts : RawReason.parts? kind sender details = some ⟨k, bs, v⟩ := by
    rw [RawReason.parts?, readAll_string hkind, hbs, hv]
    rfl
  rw [(ofBytes_of_textOf hs).1 _ hparts, ofRaw, if_neg hk]

/-- A reason is refused as JSON if its sender or its details are not read. -/
lemma exists_error_of_parts {kind details s : List UInt8} {sender : Option (List UInt8)}
    (hs : RawReason.TextOf kind sender details s)
    (h : ¬(IsSender sender ∧
      ∃ v, Json.readAll (Json.Value.reader RawReason.detailsDepth) details = .ok v)) :
    ∃ e, ofBytes s = .error (.json e) := by
  refine (ofBytes_of_textOf hs).2 ?_
  rcases hparts : RawReason.parts? kind sender details with _ | raw
  · rfl
  · simp only [RawReason.parts?, Option.bind_eq_some_iff, Option.map_eq_some_iff] at hparts
    obtain ⟨_, _, bs, hbs, v, hv, _⟩ := hparts
    have hsender : IsSender sender := isSender_iff.2 ⟨bs, Option.map_eq_some_iff.2 hbs⟩
    exact absurd ⟨hsender, v, Json.toOption_eq_some.1 hv⟩ h

/-- A reason of an unknown kind is not written, and is refused by its kind when it is read from a
text in which the kind is spelled in any way, the sender is one or is not there, and the details are
any value; the members may stand in any order and among unknown ones.  If the sender or the details
are not what they should be, or the text is no JSON, it is refused as JSON. -/
theorem refused_of_kind_ne (hk : k ≠ transferKind) :
    (∀ p : Payload, p.kind = k → p.encode = .error (.unknownKind k)) ∧
      (∀ {kind details : List UInt8} {sender : Option (List UInt8)} {b : ByteArray},
        (Json.Value.string k).HasPaddedText kind →
        RawReason.TextOf kind sender details b.data.toList →
        (IsSender sender →
          (∃ v, Json.readAll (Json.Value.reader RawReason.detailsDepth) details = .ok v) →
          decode b = .error (.unknownKind k)) ∧
        (¬(IsSender sender ∧
            ∃ v, Json.readAll (Json.Value.reader RawReason.detailsDepth) details = .ok v) →
          ∃ e, decode b = .error (.json e))) ∧
      ∀ b : ByteArray, ¬Json.IsJson b.data.toList → ∃ e, decode b = .error (.json e) := by
  refine ⟨?_, fun hkind hs => ?_, fun b => exists_error_of_not_isJson⟩
  · rintro p rfl
    exact encode_of_ne hk
  · exact ⟨fun hsender hdetails => ofBytes_of_ne hk hkind hs hsender hdetails,
      exists_error_of_parts hs⟩

/-- The name `mint`, with its second letter written by its unit. -/
def escapedMint : List UInt8 :=
  Json.Byte.quote :: ([109, 92, 117, 48, 48, 54, 57, 110, 116] ++ [Json.Byte.quote])

/-- The members of a reason of that kind, with an empty array for the details in front and an
unknown member. -/
def mintMembers (sender : List UInt8) : List (String × List UInt8) :=
  [("details", Json.arrayBytes []), ("note", Json.objectBytes []), ("sender", sender),
    ("kind", escapedMint)]

/-- The name is spelled so. -/
lemma hasPaddedText_escapedMint : (Json.Value.string "mint").HasPaddedText escapedMint := by
  have hunit : Json.HexUnit [48, 48, 54, 57] 105 :=
    .mk (.decimal (d := 0) (by decide)) (.decimal (d := 0) (by decide))
      (.decimal (d := 6) (by decide)) (.decimal (d := 9) (by decide))
  have hmint : Json.Spells [109, 92, 117, 48, 48, 54, 57, 110, 116] (Json.textBytes "mint") :=
    .plain (by decide) (by decide) (by decide)
      (.escaped (c := 'i') (.unit (by decide) hunit) (Json.spells_flatMap [110, 116]))
  exact (Json.Value.HasText.string hmint).padded

/-- The members are those of a reason of the kind. -/
lemma textOf_mintMembers {sender : List UInt8} (h : Json.IsJson sender) :
    RawReason.TextOf escapedMint (some sender) (Json.arrayBytes [])
      (Json.objectBytes ((mintMembers sender).map Json.memberBytes)) := by
  have hnote : Json.IsJson (Json.objectBytes []) :=
    Json.spaced_of ((Json.objectText_map_memberBytes []).wellFormed (by simp))
  have hdetails : Json.IsJson (Json.arrayBytes []) :=
    Json.spaced_of ((Json.arrayText_arrayBytes []).wellFormed (by simp))
  refine @RawReason.TextOf.object _ _ _ _ [("note", Json.objectBytes [])] _ ?_ ?_
    (by simp [RawReason.fieldNames]) (Json.spaced_of (Json.objectText_map_memberBytes _))
  · simp only [mintMembers, List.forall_mem_cons]
    exact ⟨hdetails, hnote, h, isJson_of_string hasPaddedText_escapedMint, by simp⟩
  · have hswap : (mintMembers sender).Perm ([("kind", escapedMint), ("sender", sender)] ++
        [("details", Json.arrayBytes []), ("note", Json.objectBytes [])]) :=
      (@List.perm_append_comm _ [("details", Json.arrayBytes []), ("note", Json.objectBytes [])]
        [("sender", sender), ("kind", escapedMint)]).trans
          (.append_right _ (.swap _ _ _))
    exact hswap

/-- A reason of the kind `mint` is refused by its kind although its details are an array, and as
JSON if `true` stands for its sender, or if nothing is written at all. -/
theorem refused_of_kind_ne_mint :
    "mint" ≠ transferKind ∧
      encode ⟨"mint", none, .transfer ⟨none, 1⟩⟩ = .error (.unknownKind "mint") ∧
      decode ⟨(Json.objectBytes ((mintMembers (Json.Byte.n :: Json.Byte.ull)).map
        Json.memberBytes)).toArray⟩ = .error (.unknownKind "mint") ∧
      (∃ e, decode ⟨(Json.objectBytes ((mintMembers (116 :: Json.Byte.rue)).map
        Json.memberBytes)).toArray⟩ = .error (.json e)) ∧
      ∃ e, decode ⟨#[]⟩ = .error (.json e) := by
  have hne : "mint" ≠ transferKind := by decide
  obtain ⟨hencode, hdecode, hmalformed⟩ := refused_of_kind_ne hne
  have hword : ∀ word ∈ Json.words, Json.IsJson word :=
    fun word hword => Json.spaced_of (.word hword)
  refine ⟨hne, hencode _ rfl, ?_, ?_, hmalformed _ ?_⟩
  · refine (hdecode hasPaddedText_escapedMint
      (textOf_mintMembers (hword _ (by simp [Json.words])))).1 ?_ ⟨.array [], ?_⟩
    · exact ⟨none, .given (.null (Json.spaced_of rfl)), fun l hl => absurd hl List.not_mem_nil⟩
    · exact Json.Value.readAll_array 125 (by simp) (Json.spaced_of (Json.arrayText_arrayBytes []))
  · refine (hdecode hasPaddedText_escapedMint
      (textOf_mintMembers (hword _ (by simp [Json.words])))).2 ?_
    rintro ⟨hsender, _⟩
    obtain ⟨bs, hbs⟩ := isSender_iff.1 hsender
    cases hbs
  · rintro ⟨before, text, after, _, htext, _, hs⟩
    obtain ⟨b, s, rfl, _⟩ := htext.starts
    simp at hs

end Payload

end ContractHost
