import Mathlib.Tactic.Common
import ContractHost.Proofs.Reason.RoundTrip

/-!
# What decoding makes of senders

The sender of a reason and the sender inside its details are read in different ways, and only the
first is put into canonical form.  So a decoded reason is canonical, and is the same after it was
written and read once more, unless its text gives an empty array for the sender of the details
(`Payload.decode_again`).
-/

namespace ContractHost

/-- The sender of the details. -/
def Details.sender : Details → Option (List Int8)
  | transfer t => t.sender

/-- A reason whose senders have bytes wherever they are there. -/
def Payload.IsCanonical (p : Payload) : Prop := p.sender ≠ some [] ∧ p.details.sender ≠ some []

/-! ## Canonical reasons -/

/-- What is left of a sender has bytes. -/
lemma Payload.nonempty?_ne_some_nil (sender : Option (List Int8)) :
    nonempty? sender ≠ some [] := by
  rw [← nonempty?_eq_self_iff, nonempty?_nonempty?]

/-- The canonical reasons are those that are their own canonical form. -/
lemma Payload.canonical_eq_self_iff (p : Payload) : p.canonical = p ↔ p.IsCanonical := by
  obtain ⟨kind, sender, ⟨t⟩⟩ := p
  simp only [canonical, Details.canonical, Transfer.canonical, IsCanonical, Details.sender,
    ← nonempty?_eq_self_iff, Payload.mk.injEq, true_and, Details.transfer.injEq]
  constructor
  · rintro ⟨hsender, ht⟩
    exact ⟨hsender, congrArg Transfer.sender ht⟩
  · rintro ⟨hsender, ht⟩
    exact ⟨hsender, by rw [ht]⟩

/-! ## Senders of details -/

namespace Transfer

/-- The value that details give for their sender, whether they are an object or an array. -/
def givenSender? : Json.Value → Option Json.Value
  | .object members => Json.Value.member? members "sender"
  | .array (sender :: _) => some sender
  | _ => none

/-- Without value in a text, or with `null`, there is no sender, and a sender without bytes comes
from an array without elements. -/
lemma senderOfValue_eq_ok {v : Json.Value} {sender : Option (List Int8)}
    (h : senderOfValue v = .ok sender) :
    (sender = none ↔ v = .null) ∧ (sender = some [] ↔ v = .array []) := by
  cases v with
  | null =>
    cases h
    simp
  | array vs =>
    obtain ⟨bs, hbs, rfl⟩ := Json.map_eq_ok h
    cases vs with
    | nil =>
      cases hbs
      simp
    | cons v vs =>
      simp only [Json.Value.toList, List.mapM_cons, bind, Except.bind] at hbs
      split at hbs
      · cases hbs
      · split at hbs
        · cases hbs
        · cases hbs
          simp
  | boolean | number | string | object => cases h

/-- The sender of a transfer is taken from the value that is given for it. -/
lemma sender_of_ofValue {v : Json.Value} {t : Transfer} (h : ofValue v = .ok t) :
    ∃ s, (givenSender? v).mapM senderOfValue = .ok s ∧ t.sender = s.join := by
  cases v with
  | object members =>
    simp only [ofValue, ofMembers, bind, Except.bind] at h
    split at h
    · cases h
    · split at h
      · cases h
      next s hs =>
        split at h
        · cases h
          exact ⟨s, hs, rfl⟩
        · cases h
  | array vs =>
    rcases vs with _ | ⟨sender, _ | ⟨amount, more⟩⟩
    · cases h
    · simp only [ofValue, ofElements, bind, Except.bind] at h
      split at h <;> cases h
    · simp only [ofValue, ofElements, bind, Except.bind] at h
      split at h
      · cases h
      next s hs =>
        split at h
        · cases h
        · split at h
          · cases h
            refine ⟨some s, ?_, by simp⟩
            simp only [givenSender?, Option.mapM_some, hs]
            rfl
          · cases h
  | null | boolean | number | string => cases h

/-- A transfer has no sender if none or `null` is given for it, and one without bytes if an array
without elements is. -/
lemma sender_iff_of_ofValue {v : Json.Value} {t : Transfer} (h : ofValue v = .ok t) :
    (t.sender = none ↔ givenSender? v = none ∨ givenSender? v = some .null) ∧
      (t.sender = some [] ↔ givenSender? v = some (.array [])) := by
  obtain ⟨s, hs, ht⟩ := sender_of_ofValue h
  cases hv : givenSender? v with
  | none =>
    rw [hv] at hs
    cases hs
    simp [ht]
  | some value =>
    rw [hv] at hs
    obtain ⟨sender, hsender, rfl⟩ := Json.map_eq_ok hs
    have hiff := senderOfValue_eq_ok hsender
    simp only [Option.join_some] at ht
    simp [ht, hiff.1, hiff.2]

end Transfer

/-! ## Decoded reasons -/

namespace Payload

/-- A decoded reason is made of the parts that were read from its text. -/
lemma decode_eq_ok {b : ByteArray} {p : Payload} (h : decode b = .ok p) :
    ∃ raw t, RawReason.ofBytes b.data.toList = .ok raw ∧ Transfer.ofValue raw.details = .ok t ∧
      p = ofTransfer (nonempty? raw.sender) t := by
  unfold decode ofBytes at h
  split at h
  · cases h
  next raw hraw =>
    unfold ofRaw at h
    split at h
    next hkind =>
      split at h
      next t ht =>
        cases h
        exact ⟨raw, t, hraw, ht, by rw [ofTransfer, hkind]⟩
      · cases h
    · cases h

/-- A decoded reason is of the known kind, and its own sender has bytes if it is there.  What is
made of it by writing and reading it once more is its canonical form, which is the reason itself
just if the text does not give an empty array for the sender of the details; where the text gives no
sender there, or `null`, there is none. -/
theorem decode_again {b : ByteArray} {p : Payload} (h : decode b = .ok p) :
    p.kind = transferKind ∧ p.sender ≠ some [] ∧
      ∃ raw c, RawReason.ofBytes b.data.toList = .ok raw ∧ p.encode = .ok c ∧
        decode c = .ok p.canonical ∧ p.sender = nonempty? raw.sender ∧
        (p.details.sender = none ↔ Transfer.givenSender? raw.details = none ∨
          Transfer.givenSender? raw.details = some .null) ∧
        (p.IsCanonical ↔ Transfer.givenSender? raw.details ≠ some (.array [])) ∧
        (decode c = .ok p ↔ Transfer.givenSender? raw.details ≠ some (.array [])) := by
  obtain ⟨raw, t, hraw, ht, rfl⟩ := decode_eq_ok h
  have hsender : (ofTransfer (nonempty? raw.sender) t).sender ≠ some [] :=
    nonempty?_ne_some_nil raw.sender
  have hiff := Transfer.sender_iff_of_ofValue ht
  have hcanonical : (ofTransfer (nonempty? raw.sender) t).IsCanonical ↔
      Transfer.givenSender? raw.details ≠ some (.array []) :=
    ⟨fun hp hgiven => hp.2 (hiff.2.2 hgiven), fun hgiven => ⟨hsender, mt hiff.2.1 hgiven⟩⟩
  have hread : decode ⟨(ofTransfer (nonempty? raw.sender) t).bytes.toArray⟩ =
      .ok (ofTransfer (nonempty? raw.sender) t).canonical := ofBytes_bytes rfl
  refine ⟨rfl, hsender, raw, _, hraw, encode_eq_ok rfl, hread, rfl, hiff.1, hcanonical, ?_⟩
  rw [hread, Except.ok.injEq, canonical_eq_self_iff, hcanonical]

/-- A reason that gives bytes for both senders is read, written and read again without change. -/
theorem decode_again_bothSenders :
    decode ⟨(ofTransfer (some [0, 1, 2, 3]) ⟨some [0, 1, 2, 3], 100000⟩).bytes.toArray⟩ =
        .ok (ofTransfer (some [0, 1, 2, 3]) ⟨some [0, 1, 2, 3], 100000⟩) ∧
      ∃ c, (ofTransfer (some [0, 1, 2, 3]) ⟨some [0, 1, 2, 3], 100000⟩).encode = .ok c ∧
        decode c = .ok (ofTransfer (some [0, 1, 2, 3]) ⟨some [0, 1, 2, 3], 100000⟩) := by
  have hread : decode
      ⟨(ofTransfer (some [0, 1, 2, 3]) ⟨some [0, 1, 2, 3], 100000⟩).bytes.toArray⟩ =
      .ok (ofTransfer (some [0, 1, 2, 3]) ⟨some [0, 1, 2, 3], 100000⟩) := ofBytes_bytes rfl
  obtain ⟨_, _, _, c, _, hencode, hagain, _⟩ := decode_again hread
  exact ⟨hread, c, hencode, hagain⟩

/-- A reason whose details have a sender without bytes. -/
def withEmptySender : Payload := ofTransfer none ⟨some [], 1⟩

/-- The text of such a reason. -/
def emptySenderText : String :=
  "\x7b\"kind\":\"transfer\",\"details\":\x7b\"sender\":[],\"amount\":1\x7d\x7d"

/-- The text gives an empty array for the sender of the details. -/
lemma textBytes_emptySenderText : Json.textBytes emptySenderText =
    (Json.Value.object (("kind", .string transferKind) :: (senderMember none ++
      [("details",
        .object [("sender", .array []), ("amount", .number (.integer 1))])]))).write := by
  have hone : Decimal.digits 1 = [1] := Decimal.digits_of_lt (by decide)
  simp only [senderMember, List.nil_append, Json.Value.write, Json.writeMembers,
    Json.writeElements, Json.Number.write, Decimal.intBytes, Decimal.natBytes, hone,
    Json.separated]
  decide

/-- An empty array for the sender of the details stays a sender without bytes when it is decoded,
and is gone when the reason was written and read once more. -/
theorem decode_emptySenderText :
    ∃ c, decode emptySenderText.toUTF8 = .ok withEmptySender ∧
      withEmptySender.details.sender = some [] ∧ withEmptySender.encode = .ok c ∧
      decode c = .ok (ofTransfer none ⟨none, 1⟩) ∧
      ofTransfer none ⟨none, 1⟩ ≠ withEmptySender := by
  have hraw : RawReason.ofBytes (Json.textBytes emptySenderText) = .ok ⟨transferKind, none,
      .object [("sender", .array []), ("amount", .number (.integer 1))]⟩ := by
    rw [textBytes_emptySenderText]
    refine RawReason.ofBytes_write transferKind none (.object fun m hm => ?_)
    simp only [List.mem_cons, List.not_mem_nil, or_false] at hm
    rcases hm with rfl | rfl
    · exact .array fun v hv => absurd hv List.not_mem_nil
    · exact .scalar (.integer ⟨by decide, by decide⟩)
  have hdecode : decode emptySenderText.toUTF8 = .ok withEmptySender := by
    calc decode emptySenderText.toUTF8
        = ofBytes (Json.textBytes emptySenderText) := rfl
      _ = .ok withEmptySender := by
        rw [ofBytes, hraw]
        rfl
  exact ⟨_, hdecode, rfl, encode_eq_ok rfl, ofBytes_bytes rfl, by decide⟩

end Payload

end ContractHost
