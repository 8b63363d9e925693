import Mathlib.Tactic.Common
import ContractHost.Proofs.Reason.Given

/-!
# Reasons that are written and read back

A reason that was written is read back in its canonical form: what is lost is only whether a sender
without bytes was given.  What the printer writes for a reason is one of the texts that give it, so
this is a case of reading any of them.  It follows that two reasons have the same text just if they
have the same canonical form.
-/

namespace ContractHost

/-! ## Canonical reasons -/

/-- The transfer with a sender only if the sender has bytes. -/
def Transfer.canonical (t : Transfer) : Transfer := { t with sender := Payload.nonempty? t.sender }

/-- The details with a sender only if the sender has bytes. -/
def Details.canonical : Details → Details
  | transfer t => transfer t.canonical

/-- The reason with senders only if they have bytes. -/
def Payload.canonical (p : Payload) : Payload :=
  { p with sender := Payload.nonempty? p.sender, details := p.details.canonical }

/-! ## Senders -/

/-- A sender that has no bytes is written like one that is not there. -/
lemma Payload.senderMember_nonempty? (sender : Option (List Int8)) :
    senderMember (nonempty? sender) = senderMember sender := by
  rcases sender with _ | _ | ⟨b, bs⟩ <;> rfl

/-- What is left of a sender has bytes. -/
lemma Payload.nonempty?_nonempty? (sender : Option (List Int8)) :
    nonempty? (nonempty? sender) = nonempty? sender := by
  rcases sender with _ | _ | ⟨b, bs⟩ <;> rfl

/-- What is written for a sender gives its bytes, if it has any. -/
lemma senderMembers_senderMember (sender : Option (List Int8)) :
    SenderMembers (Payload.nonempty? sender) (Payload.senderMember sender) := by
  rcases sender with _ | _ | ⟨b, bs⟩
  · exact .leftOut
  · exact .leftOut
  · exact .given (.bytes (b :: bs))

/-! ## Details -/

/-- The value of a transfer gives its canonical form. -/
lemma Transfer.isGivenBy_transferJson (t : Transfer) :
    t.canonical.IsGivenBy (Payload.transferJson t) :=
  .mk (senderMembers_senderMember t.sender) (.refl _)

/-- The details of a reason nest no deeper than they may. -/
lemma Payload.plain_detailsJson (d : Details) :
    Json.Value.Plain RawReason.detailsDepth (detailsJson d) := by
  cases d with
  | transfer t => exact t.isGivenBy_transferJson.plain 124

/-! ## The whole reason -/

namespace RawReason

/-- A reason nests no deeper than a text may, if its details nest no deeper than they may. -/
lemma plain_object (kind : String) (sender : Option (List Int8)) {details : Json.Value}
    (hd : details.Plain detailsDepth) :
    Json.Value.Plain Json.greatestDepth (.object (("kind", .string kind) ::
      (Payload.senderMember sender ++ [("details", details)]))) := by
  refine .object fun m hm => ?_
  rcases List.mem_cons.1 hm with rfl | hm
  · exact .scalar (.string kind)
  · rcases List.mem_append.1 hm with hm | hm
    · obtain ⟨v, hv, rfl⟩ := (senderMembers_senderMember sender).exists_of_mem hm
      exact hv.plain _
    · obtain rfl := List.mem_singleton.1 hm
      exact hd

/-- A reason is read as far as its kind from the text that is written for its parts, whatever plain
value stands for the details. -/
lemma ofBytes_write (kind : String) (sender : Option (List Int8)) {details : Json.Value}
    (hd : details.Plain detailsDepth) :
    ofBytes (Json.Value.object (("kind", .string kind) ::
        (Payload.senderMember sender ++ [("details", details)]))).write =
      .ok ⟨kind, Payload.nonempty? sender, details⟩ :=
  ofBytes_of_hasPaddedText (senderMembers_senderMember sender) hd (.refl _)
    (plain_object kind sender hd).hasText_write.padded

end RawReason

namespace Payload

/-- Canonical reasons are written like the reasons that they come from. -/
lemma bytes_canonical (p : Payload) : p.canonical.bytes = p.bytes := by
  obtain ⟨kind, sender, ⟨t⟩⟩ := p
  simp only [bytes, toJson, canonical, Details.canonical, Transfer.canonical, detailsJson,
    transferJson, senderMember_nonempty?]

/-- A reason of the kind of its details is written. -/
lemma encode_eq_ok {p : Payload} (h : p.kind = transferKind) :
    p.encode = .ok ⟨p.bytes.toArray⟩ := by
  obtain ⟨kind, sender, ⟨t⟩⟩ := p
  have hkind : kind = transferKind := h
  simp only [encode, validate, if_pos hkind, Details.kind, if_true]
  rfl

/-- What is written is the text of a reason of the known kind. -/
lemma encode_eq_ok_iff {p : Payload} {r : ByteArray} :
    p.encode = .ok r ↔ p.kind = transferKind ∧ r = ⟨p.bytes.toArray⟩ := by
  constructor
  · intro h
    have hkind : p.kind = transferKind := by
      by_contra hne
      simp only [encode, validate, if_neg hne] at h
      cases h
    rw [encode_eq_ok hkind, Except.ok.injEq] at h
    exact ⟨hkind, h.symm⟩
  · rintro ⟨hkind, rfl⟩
    exact encode_eq_ok hkind

/-- What is written for a reason gives its canonical form. -/
lemma isGivenBy_toJson (p : Payload) : p.canonical.IsGivenBy p.toJson := by
  obtain ⟨kind, sender, ⟨t⟩⟩ := p
  exact .mk (senderMembers_senderMember sender) t.isGivenBy_transferJson (.refl _)

/-- A reason is read back from its text in its canonical form. -/
lemma ofBytes_bytes {p : Payload} (h : p.kind = transferKind) :
    ofBytes p.bytes = .ok p.canonical := by
  have hplain : p.toJson.Plain Json.greatestDepth :=
    RawReason.plain_object p.kind p.sender (plain_detailsJson p.details)
  have hread := ofBytes_of_isGivenBy (p := p.canonical) h p.isGivenBy_toJson
    hplain.hasText_write.padded
  simpa only [bytes, canonical, nonempty?_nonempty?] using hread

/-- Reasons with the same text have the same canonical form. -/
lemma canonical_eq_of_encode_eq {p q : Payload} (hp : p.kind = transferKind)
    (hq : q.kind = transferKind) (h : p.encode = q.encode) : p.canonical = q.canonical := by
  rw [encode_eq_ok hp, encode_eq_ok hq] at h
  have hbytes : p.bytes = q.bytes := by simpa using h
  have hread := ofBytes_bytes hp
  rw [hbytes, ofBytes_bytes hq] at hread
  injection hread with hread
  exact hread.symm

/-- A written reason is read back in its canonical form, and reasons have the same text just if
they have the same canonical form. -/
theorem decode_encode {p : Payload} (h : p.kind = transferKind) :
    (∃ b, p.encode = .ok b ∧ decode b = .ok p.canonical) ∧
      ∀ q : Payload, q.kind = transferKind →
        (p.encode = q.encode ↔ p.canonical = q.canonical) := by
  refine ⟨⟨_, encode_eq_ok h, ofBytes_bytes h⟩, fun q hq => ?_⟩
  constructor
  · exact canonical_eq_of_encode_eq h hq
  · intro heq
    rw [encode_eq_ok h, encode_eq_ok hq, ← bytes_canonical p, ← bytes_canonical q, heq]

/-- A sender without bytes is read back as none: the text is that of the reason without it. -/
theorem decode_encode_emptySender :
    (∃ b, (ofTransfer (some []) ⟨some [-128, 127], 18446744073709551615⟩).encode = .ok b ∧
      decode b = .ok (ofTransfer none ⟨some [-128, 127], 18446744073709551615⟩)) ∧
      (ofTransfer (some []) ⟨some [-128, 127], 18446744073709551615⟩).encode =
        (ofTransfer none ⟨some [-128, 127], 18446744073709551615⟩).encode := by
  have h := decode_encode (p := ofTransfer (some []) ⟨some [-128, 127], 18446744073709551615⟩) rfl
  exact ⟨h.1, (h.2 (ofTransfer none ⟨some [-128, 127], 18446744073709551615⟩) rfl).2 rfl⟩

end Payload

end ContractHost
