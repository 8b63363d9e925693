import Mathlib.Tactic.Common
import ContractHost.Proofs.Json.Awaiting
import ContractHost.Proofs.Reason.RoundTrip

/-!
# Reasons that are cut off or go on

The text of a reason is an object, so nothing but its brace ends it, and every field of it awaits
the end of its value (`RawReason.GivesField.awaitsTexts`).  Cut off anywhere the text asks for more
(`Payload.ofBytes_beginning`), also where the amount or a byte of a sender is cut off and what is
left is a numeral itself.  Behind the brace nothing may stand but blanks
(`Payload.ofBytes_bytes_append`).
-/

namespace ContractHost

/-! ## The fields of a reason -/

namespace RawReason

/-- Every sender is awaited. -/
lemma awaits_senderReader (sender : Option (List Int8)) : senderReader.Awaits sender := by
  refine Json.Reader.awaits_optional fun bs _ => Json.Reader.awaits_list fun b _ => ?_
  exact Json.Reader.awaits_map fun z _ => Json.Reader.awaits_integer (by decide) (by decide) z

/-- What gives a field of a reason is awaited. -/
lemma GivesField.awaitsTexts {m : String × Json.Value} (hm : GivesField m)
    {field : Json.Field Draft} (h : fields.find? (·.name == m.1) = some field) :
    field.AwaitsTexts m.2 := by
  intro text update ht hreads
  rcases hm with k | hs | @⟨v, hd⟩
  · cases h
    exact Json.Reader.awaits_map fun k _ => Json.Reader.awaits_string k
  · cases h
    exact Json.Reader.awaits_map fun sender _ => awaits_senderReader sender
  · cases h
    -- The texts of the value are read as nothing else, so only the value itself must be awaited.
    obtain rfl := hreads.unique ((hd.reads text ht).map _)
    refine Json.Reader.awaits_map fun w hw => ?_
    have hw : some w = some v := congrArg Draft.details (congrFun hw ⟨none, none, none⟩)
    obtain rfl := Option.some.inj hw
    exact hd.awaits

end RawReason

/-! ## Texts that end early -/

namespace Payload

variable {p : Payload} {s t : List UInt8}

/-- What is read of a reason as far as its kind. -/
def raw (p : Payload) : RawReason := ⟨p.kind, nonempty? p.sender, detailsJson p.details⟩

/-- The members of a reason are read into its fields, and what gives them is awaited. -/
lemma takes_toJson (p : Payload) :
    ∃ ms state, p.toJson = .object ms ∧ (∀ m ∈ ms, RawReason.GivesField m) ∧
      Json.Field.Takes RawReason.shape.fields RawReason.shape.start ms state ∧
      RawReason.shape.finish state = .ok p.raw := by
  exact ⟨_, _, rfl, RawReason.takes_of_perm (senderMembers_senderMember p.sender)
    (plain_detailsJson p.details) (.refl _)⟩

/-- The text of a reason is one of its value. -/
lemma hasText_bytes (p : Payload) : p.toJson.HasText p.bytes :=
  (RawReason.plain_object p.kind p.sender (plain_detailsJson p.details)).hasText_write

/-- Up to its brace the text of a reason is read whatever stands behind it. -/
lemma run_bytes_append (p : Payload) (s : List UInt8) :
    RawReason.shape.reader.run (p.bytes ++ s) = .ok (p.raw, s) := by
  obtain ⟨ms, state, hms, _, htakes, hfinish⟩ := p.takes_toJson
  have ht := p.hasText_bytes
  rw [hms] at ht
  exact Json.RecordShape.run_of_takes htakes hfinish ht Json.blank_nil s

/-- The text of a reason asks for more wherever it is cut off. -/
lemma run_beginning (hs : p.bytes = s ++ t) (ht : t ≠ []) :
    RawReason.shape.reader.run s = .error .endOfInput := by
  obtain ⟨ms, state, hms, hgives, htakes, hfinish⟩ := p.takes_toJson
  have htext := p.hasText_bytes
  rw [hms] at htext
  have hcut : Json.Agrees p.raw [] t (RawReason.shape.reader.run s) :=
    Json.RecordShape.run_cut htakes hfinish htext
      (fun m hm field hfield => (hgives m hm).awaitsTexts hfield) (by rw [List.append_nil, hs])
  rcases hcut with hmore | ⟨rest, _, hrest⟩
  · exact hmore
  · exact absurd (List.append_eq_nil_iff.1 hrest.symm).2 ht

/-- Cut off anywhere, the text of a reason ends early. -/
lemma ofBytes_beginning (hs : p.bytes = s ++ t) (ht : t ≠ []) :
    ofBytes s = .error (.json .endOfInput) := by
  rw [ofBytes, RawReason.ofBytes, Json.readAll, run_beginning hs ht]

/-! ## Texts that go on -/

/-- Behind the text of a reason there may be blanks and nothing else. -/
lemma ofBytes_bytes_append (p : Payload) :
    (Json.Blank s → ofBytes (p.bytes ++ s) = ofBytes p.bytes) ∧
      (¬Json.Blank s → ofBytes (p.bytes ++ s) = .error (.json .malformed)) := by
  have hwhole := p.run_bytes_append []
  rw [List.append_nil] at hwhole
  constructor
  · intro hs
    simp only [ofBytes, RawReason.ofBytes, Json.readAll, p.run_bytes_append s, hwhole,
      if_pos (Json.isEmpty_skipBlanks_iff.2 hs),
      if_pos (Json.isEmpty_skipBlanks_iff.2 Json.blank_nil)]
  · intro hs
    simp only [ofBytes, RawReason.ofBytes, Json.readAll, p.run_bytes_append s,
      if_neg (mt Json.isEmpty_skipBlanks_iff.1 hs)]

/-- A reason is decoded from the whole of its text alone: every shorter beginning of it ends early,
blanks behind it make no difference, and with anything else behind it the text is no JSON. -/
theorem decode_whole {p : Payload} {b : ByteArray} (h : p.encode = .ok b) :
    decode b = .ok p.canonical ∧
      (∀ n < b.size, decode (b.extract 0 n) = .error (.json .endOfInput)) ∧
      (∀ s : ByteArray, Json.Blank s.data.toList → decode (b ++ s) = decode b) ∧
      ∀ s : ByteArray, ¬Json.Blank s.data.toList →
        decode (b ++ s) = .error (.json .malformed) := by
  obtain ⟨hkind, rfl⟩ := encode_eq_ok_iff.1 h
  have happend : ∀ s : ByteArray,
      decode (⟨p.bytes.toArray⟩ ++ s) = ofBytes (p.bytes ++ s.data.toList) := by
    intro s
    simp [decode]
  refine ⟨ofBytes_bytes hkind, fun n hn => ?_, fun s hs => ?_, fun s hs => ?_⟩
  · have hbytes : p.bytes = p.bytes.take n ++ p.bytes.drop n := (List.take_append_drop ..).symm
    have hn : n < p.bytes.length := hn
    have hextract :
        decode (ByteArray.extract ⟨p.bytes.toArray⟩ 0 n) = ofBytes (p.bytes.take n) := by
      simp [decode]
    rw [hextract]
    exact ofBytes_beginning hbytes (by simpa using hn)
  · rw [happend]
    exact p.ofBytes_bytes_append.1 hs
  · rw [happend]
    exact p.ofBytes_bytes_append.2 hs

/-- The text of a reason without senders, for an amount of two digits. -/
def tenText : String := "\x7b\"kind\":\"transfer\",\"details\":\x7b\"amount\":10\x7d\x7d"

/-- The text is written for the reason. -/
lemma encode_ten : (ofTransfer none ⟨none, 10⟩).encode = .ok tenText.toUTF8 := by
  have hdigits : Decimal.digits 10 = [1, 0] := by
    rw [Decimal.digits, if_neg (by decide), Decimal.digits_of_lt (by decide)]
    rfl
  have hbytes : (ofTransfer none ⟨none, 10⟩).bytes = Json.textBytes tenText := by
    have hten : ((10 : UInt64).toNat : Int) = 10 := rfl
    simp only [bytes, toJson, ofTransfer, detailsJson, transferJson, senderMember,
      List.nil_append, List.cons_append, Json.Value.write, Json.writeMembers,
      Json.Number.write, hten, Decimal.intBytes, Decimal.natBytes, hdigits, Json.separated]
    decide
  rw [encode_eq_ok rfl, hbytes]
  rfl

/-- Where the amount is cut off behind its first digit the text ends early, although what is left of
the amount is a number; a line feed behind the text is passed over, and a digit is not. -/
theorem decode_whole_ten :
    (ofTransfer none ⟨none, 10⟩).encode = .ok tenText.toUTF8 ∧
      tenText.toUTF8.extract 0 40 =
        "\x7b\"kind\":\"transfer\",\"details\":\x7b\"amount\":1".toUTF8 ∧
      decode (tenText.toUTF8.extract 0 40) = .error (.json .endOfInput) ∧
      decode (tenText.toUTF8 ++ "\n".toUTF8) = .ok (ofTransfer none ⟨none, 10⟩) ∧
      decode (tenText.toUTF8 ++ "0".toUTF8) = .error (.json .malformed) := by
  obtain ⟨hdecode, hcut, hblank, hmore⟩ := decode_whole encode_ten
  have hline : Json.Blank "\n".toUTF8.data.toList := by
    have hbytes : "\n".toUTF8.data.toList = [10] := by decide
    rw [hbytes]
    intro b hb
    obtain rfl := List.mem_singleton.1 hb
    rfl
  have hzero : ¬Json.Blank "0".toUTF8.data.toList := fun h => absurd (h 48 (by decide)) (by decide)
  refine ⟨encode_ten, by decide, hcut 40 (by decide), ?_, hmore _ hzero⟩
  rw [hblank _ hline, hdecode]
  rfl

end Payload

end ContractHost
