import Mathlib.Tactic.Common
import ContractHost.Proofs.Json.Accepted
import ContractHost.Proofs.Reason.Parts
import ContractHost.Proofs.Reason.RoundTrip

/-!
# Unknown fields

Members of unknown names may be put between the members of a written reason and of its details, in
any number and at any place, without any effect on what is decoded (`Payload.decode_insert`).  In
the reason itself they are passed over, so that any JSON will do for their values; those of the
details must be values that can be read.
-/

namespace ContractHost

/-! ## Members that are put in -/

namespace Json

/-- The second list of texts is the first with others put in, all of the kind given. -/
inductive Inserted (P : List UInt8 → Prop) : List (List UInt8) → List (List UInt8) → Prop
  | nil : Inserted P [] []
  | keep {items items' : List (List UInt8)} (item : List UInt8) : Inserted P items items' →
      Inserted P (item :: items) (item :: items')
  | insert {items items' : List (List UInt8)} {item : List UInt8} : P item →
      Inserted P items items' → Inserted P items (item :: items')

/-- Nothing needs to be put in. -/
lemma inserted_self (P : List UInt8 → Prop) (items : List (List UInt8)) :
    Inserted P items items := by
  induction items with
  | nil => exact .nil
  | cons item items ih => exact .keep item ih

/-- The text of a member of the kind given. -/
def IsMemberOf (Q : String × List UInt8 → Prop) (item : List UInt8) : Prop :=
  ∃ m, Q m ∧ MemberText m item

/-- Known members among which others are put in are the known ones and the others, in some order. -/
lemma Inserted.exists_members {Q : String × List UInt8 → Prop}
    {known : List (String × List UInt8)} {items : List (List UInt8)}
    (h : Inserted (IsMemberOf Q) (known.map memberBytes) items) :
    ∃ ms strays, List.Forall₂ MemberText ms items ∧ ms.Perm (known ++ strays) ∧
      ∀ m ∈ strays, Q m := by
  generalize hknown : known.map memberBytes = texts at h
  induction h generalizing known with
  | nil =>
    obtain rfl := List.map_eq_nil_iff.1 hknown
    exact ⟨[], [], .nil, .refl _, by simp⟩
  | keep item _ ih =>
    obtain ⟨m, known, rfl, rfl, hrest⟩ := List.map_eq_cons_iff.1 hknown
    obtain ⟨ms, strays, hms, hperm, hstrays⟩ := ih hrest
    exact ⟨m :: ms, strays, .cons (memberText_memberBytes m) hms, hperm.cons m, hstrays⟩
  | insert hitem _ ih =>
    obtain ⟨m, hm, htext⟩ := hitem
    obtain ⟨ms, strays, hms, hperm, hstrays⟩ := ih hknown
    refine ⟨m :: ms, m :: strays, .cons htext hms, ?_, List.forall_mem_cons.2 ⟨hm, hstrays⟩⟩
    exact (hperm.cons m).trans List.perm_middle.symm

end Json

/-! ## The members of a written reason -/

/-- The text that is written for a sender, if it has bytes. -/
def Payload.senderBytes (sender : Option (List Int8)) : Option (List UInt8) :=
  (nonempty? sender).map fun bs => (senderJson bs).write

/-- The members that are written for a transfer. -/
def Transfer.members (t : Transfer) : List (String × List UInt8) :=
  Json.givenMember "sender" (Payload.senderBytes t.sender) ++
    [("amount", Decimal.natBytes t.amount.toNat)]

/-- The members that are written for the details of a reason. -/
def Details.members : Details → List (String × List UInt8)
  | transfer t => t.members

/-- The members that are written for a reason, with the text given for its details. -/
def Payload.members (p : Payload) (details : List UInt8) : List (String × List UInt8) :=
  ("kind", Json.stringLiteral p.kind) ::
    (Json.givenMember "sender" (senderBytes p.sender) ++ [("details", details)])

/-- A member that a reason does not have. -/
def RawReason.IsStray (m : String × List UInt8) : Prop := m.1 ∉ fieldNames ∧ Json.IsJson m.2

/-- A member that a transfer does not have, whose value can be read. -/
def Transfer.IsStray (m : String × List UInt8) : Prop :=
  m.1 ∉ fieldNames ∧ ∃ v, Json.readAll memberReader m.2 = .ok v

namespace Payload

/-- What is written for a sender is read as its bytes, if it has any. -/
lemma readGiven_senderBytes (sender : Option (List Int8)) :
    (Json.readGiven RawReason.senderReader (senderBytes sender)).map Option.join =
      some (nonempty? sender) := by
  rw [senderBytes]
  rcases nonempty? sender with _ | bs
  · rfl
  · have htext := (plain_senderJson 0 bs).hasText_write
    have hread := Json.readAll_of_readsPadded
      (htext.padded.readsPadded fun _ ht => RawReason.reads_senderJson ht)
    rw [Option.map_some, Json.readGiven, Option.mapM_some, hread]
    rfl

/-- What is written for the bytes of a sender is read as a value. -/
lemma readAll_senderJson (bs : List Int8) :
    Json.readAll Transfer.memberReader (senderJson bs).write = .ok (senderJson bs) := by
  have hplain := plain_senderJson 124 bs
  exact Json.readAll_of_readsPadded (hplain.hasText_write.padded.readsPadded hplain.reads)

/-- The bytes that are written for a sender are taken from their value, if there are any. -/
lemma mapM_senderOf?_senderBytes (sender : Option (List Int8)) :
    ((senderBytes sender).mapM Transfer.senderOf?).map Option.join = some (nonempty? sender) := by
  rw [senderBytes]
  rcases nonempty? sender with _ | bs
  · rfl
  · rw [Option.map_some, Option.mapM_some, Transfer.senderOf?, readAll_senderJson, Except.toOption,
      Option.bind_some, Transfer.senderOfValue_senderJson]
    rfl

/-- What is written for a sender is JSON. -/
lemma isJson_of_mem_senderBytes {sender : Option (List Int8)} :
    ∀ text ∈ senderBytes sender, Json.IsJson text := by
  intro text htext
  obtain ⟨bs, _, rfl⟩ := Option.map_eq_some_iff.1 htext
  exact (Json.Value.recognizes_reader _).isJson (readAll_senderJson bs)

end Payload

namespace Transfer

/-- The amount that is written is read as a value. -/
lemma readAll_natBytes (n : UInt64) :
    Json.readAll memberReader (Decimal.natBytes n.toNat) = .ok (.number (.integer n.toNat)) := by
  have htext : (Json.Value.number (.integer n.toNat)).HasText (Decimal.natBytes n.toNat) :=
    .integer n.toNat
  exact Json.readAll_of_readsPadded (htext.padded.readsPadded fun _ ht =>
    (Json.Value.IsScalar.integer (Json.isExact_uint64 n)).reads ht _)

/-- What is written for a transfer is taken as the transfer without the sender that has no bytes. -/
lemma parts?_senderBytes (t : Transfer) :
    parts? (Payload.senderBytes t.sender) (Decimal.natBytes t.amount.toNat) = some t.canonical := by
  rw [parts?, Payload.mapM_senderOf?_senderBytes, amountOf?, readAll_natBytes, Except.toOption,
    Option.bind_some, amountOfValue_toNat]
  rfl

variable {t : Transfer} {items : List (List UInt8)}

/-- Details with unknown members among their own are a text of their parts. -/
lemma textOf_inserted (h : Json.Inserted (Json.IsMemberOf IsStray)
      (t.members.map Json.memberBytes) items) :
    TextOf (Payload.senderBytes t.sender) (Decimal.natBytes t.amount.toNat)
        (Json.objectBytes items) ∧ Json.IsJson (Json.objectBytes items) := by
  obtain ⟨ms, strays, hms, hperm, hstrays⟩ := h.exists_members
  have hjson : ∀ m ∈ ms, Json.IsJson m.2 := by
    intro m hm
    rcases List.mem_append.1 (hperm.mem_iff.1 hm) with hm | hm
    · rcases List.mem_append.1 hm with hm | hm
      · exact forall_givenMember Payload.isJson_of_mem_senderBytes m hm
      · obtain rfl := List.mem_singleton.1 hm
        exact (Json.Value.recognizes_reader _).isJson (readAll_natBytes t.amount)
    · obtain ⟨_, v, hv⟩ := hstrays m hm
      exact (Json.Value.recognizes_reader _).isJson hv
  have htext := Json.objectText_objectBytes hms
  refine ⟨.object hjson ?_ hstrays (Json.spaced_of htext), Json.spaced_of (htext.wellFormed hjson)⟩
  simpa [members] using hperm

end Transfer

/-! ## The whole reason -/

namespace Payload

/-- A written reason is the text of its members. -/
lemma bytes_eq (p : Payload) : p.bytes =
    Json.objectBytes ((p.members (Json.objectBytes (p.details.members.map Json.memberBytes))).map
      Json.memberBytes) := by
  obtain ⟨kind, sender, ⟨⟨inner, amount⟩⟩⟩ := p
  rcases sender with _ | _ | ⟨b, bs⟩ <;> rcases inner with _ | _ | ⟨b', bs'⟩ <;> rfl

/-- A reason with unknown members among its own is decoded in its canonical form. -/
lemma ofBytes_inserted {p : Payload} (hp : p.kind = transferKind) {details : List UInt8}
    {t : Transfer} {items : List (List UInt8)}
    (hdetails : Transfer.TextOf (senderBytes t.sender) (Decimal.natBytes t.amount.toNat) details)
    (hjson : Json.IsJson details) (ht : p.details = .transfer t)
    (h : Json.Inserted (Json.IsMemberOf RawReason.IsStray)
      ((p.members details).map Json.memberBytes) items) :
    ofBytes (Json.objectBytes items) = .ok p.canonical := by
  obtain ⟨ms, strays, hms, hperm, hstrays⟩ := h.exists_members
  have hkind := hasPaddedText_stringLiteral p.kind
  have hjson : ∀ m ∈ ms, Json.IsJson m.2 := by
    intro m hm
    rcases List.mem_append.1 (hperm.mem_iff.1 hm) with hm | hm
    · rcases List.mem_cons.1 hm with rfl | hm
      · exact isJson_of_string hkind
      · rcases List.mem_append.1 hm with hm | hm
        · exact forall_givenMember isJson_of_mem_senderBytes m hm
        · obtain rfl := List.mem_singleton.1 hm
          exact hjson
    · exact (hstrays m hm).2
  have hraw : RawReason.TextOf (Json.stringLiteral p.kind) (senderBytes p.sender) details
      (Json.objectBytes items) := by
    refine .object hjson ?_ (fun m hm => (hstrays m hm).1)
      (Json.spaced_of (Json.objectText_objectBytes hms))
    simpa [members] using hperm
  rw [hp] at hkind hraw
  have htext : TextOf (senderBytes p.sender) (senderBytes t.sender)
      (Decimal.natBytes t.amount.toNat) (Json.objectBytes items) := .mk hkind hdetails hraw
  rw [htext.ofBytes_eq.1 _ _ (readGiven_senderBytes p.sender) t.parts?_senderBytes,
    nonempty?_nonempty?, canonical, ht, hp]
  rfl

/-- Members of unknown names, put at any place between those of a written reason and those of its
details, do not matter to what is decoded: it is the canonical form of what was written. -/
theorem decode_insert {p : Payload} {b : ByteArray} (h : p.encode = .ok b) :
    b = ⟨(Json.objectBytes ((p.members (Json.objectBytes
        (p.details.members.map Json.memberBytes))).map Json.memberBytes)).toArray⟩ ∧
      decode b = .ok p.canonical ∧
      ∀ detailsItems items,
        Json.Inserted (Json.IsMemberOf Transfer.IsStray)
          (p.details.members.map Json.memberBytes) detailsItems →
        Json.Inserted (Json.IsMemberOf RawReason.IsStray)
          ((p.members (Json.objectBytes detailsItems)).map Json.memberBytes) items →
        decode ⟨(Json.objectBytes items).toArray⟩ = decode b := by
  obtain ⟨hkind, rfl⟩ := encode_eq_ok_iff.1 h
  have hread : decode ⟨p.bytes.toArray⟩ = .ok p.canonical := ofBytes_bytes hkind
  refine ⟨by rw [bytes_eq], hread, fun detailsItems items hdetails hitems => ?_⟩
  obtain ⟨t, ht⟩ : ∃ t, p.details = .transfer t := by
    obtain ⟨t⟩ := p.details
    exact ⟨t, rfl⟩
  rw [ht] at hdetails
  obtain ⟨htext, hjson⟩ := Transfer.textOf_inserted hdetails
  rw [hread]
  exact ofBytes_inserted hkind htext hjson ht hitems

/-- A reason for the transfer of seven, without senders. -/
def seven : Payload := ofTransfer none ⟨none, 7⟩

/-- The text of half a pair of units, which stands for no string. -/
def loneUnit : List UInt8 :=
  Json.Byte.quote :: ([92, 117, 100, 56, 48, 48] ++ [Json.Byte.quote])

/-- The text is JSON all the same. -/
lemma isJson_loneUnit : Json.IsJson loneUnit := by
  have hunit : Json.HexUnit [100, 56, 48, 48] 0xd800 :=
    .mk (.lower (d := 3) (by decide)) (.decimal (d := 8) (by decide))
      (.decimal (d := 0) (by decide)) (.decimal (d := 0) (by decide))
  exact Json.spaced_of (.string (.escaped (.unit hunit) .nil))

/-- Half a pair may be put in front of the kind and behind the details, and `null` between the
members of the details. -/
theorem decode_insert_seven :
    ∃ b, seven.encode = .ok b ∧
      decode ⟨(Json.objectBytes ([("note", loneUnit), ("kind", Json.stringLiteral transferKind),
        ("details", Json.objectBytes ([("memo", Json.Byte.n :: Json.Byte.ull),
          ("amount", Decimal.natBytes 7)].map Json.memberBytes)),
        ("note", loneUnit)].map Json.memberBytes)).toArray⟩ = decode b ∧
      decode b = .ok seven := by
  have hnote : Json.IsMemberOf RawReason.IsStray (Json.memberBytes ("note", loneUnit)) :=
    ⟨_, ⟨by simp [RawReason.fieldNames], isJson_loneUnit⟩, Json.memberText_memberBytes _⟩
  have hnull : Json.readAll Transfer.memberReader (Json.Byte.n :: Json.Byte.ull) = .ok .null :=
    Json.readAll_of_readsPadded (Json.Value.HasText.null.padded.readsPadded fun _ ht =>
      Json.Value.IsScalar.null.reads ht _)
  have hmemo : Json.IsMemberOf Transfer.IsStray
      (Json.memberBytes ("memo", Json.Byte.n :: Json.Byte.ull)) :=
    ⟨_, ⟨by simp [Transfer.fieldNames], .null, hnull⟩, Json.memberText_memberBytes _⟩
  obtain ⟨_, hread, hinserted⟩ := decode_insert (encode_eq_ok (p := seven) rfl)
  refine ⟨_, encode_eq_ok rfl, hinserted _ _ (.insert hmemo (Json.inserted_self _ _))
    (.insert hnote ?_), hread⟩
  exact .keep _ (.keep _ (.insert hnote .nil))

end Payload

end ContractHost
