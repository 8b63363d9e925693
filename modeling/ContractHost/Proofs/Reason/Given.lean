import Mathlib.Tactic.Common
import ContractHost.Json.Access
import ContractHost.Proofs.Json.Members
import ContractHost.Reason.Decode

/-!
# Reasons that a text gives

A text gives a reason if it is an object with the members of the reason, in any order and with
blanks between all parts; a sender that is not there may be left out or be given as `null`
(`Payload.IsGivenBy`).  The members of the reason itself are read one after the other, straight from
the text, and the state that they lead to depends on each by its name alone
(`RawReason.takes_draftOf`).  The details are read as a value first, in which the members are looked
up by their names.  So neither depends on how the text is laid out
(`RawReason.ofBytes_of_hasPaddedText`, `Transfer.IsGivenBy.ofValue_eq`).
-/

namespace ContractHost

/-! ## Senders -/

/-- A sender is as it should be unless it is there without bytes. -/
lemma Payload.nonempty?_eq_self_iff (sender : Option (List Int8)) :
    nonempty? sender = sender ↔ sender ≠ some [] := by
  rcases sender with _ | _ | ⟨b, bs⟩ <;> simp [nonempty?]

/-- The bytes of a sender as JSON. -/
def Payload.senderJson (bs : List Int8) : Json.Value :=
  .array (bs.map fun b => .number (.integer b.toInt))

/-- The values that give a sender: an array of its bytes or, if there is none, `null`. -/
inductive SenderJson : Option (List Int8) → Json.Value → Prop
  | bytes (bs : List Int8) : SenderJson (some bs) (Payload.senderJson bs)
  | null : SenderJson none .null

/-- The members that give a sender: one with a value for it or, if there is none, no member. -/
inductive SenderMembers : Option (List Int8) → List (String × Json.Value) → Prop
  | given {sender : Option (List Int8)} {v : Json.Value} : SenderJson sender v →
      SenderMembers sender [("sender", v)]
  | leftOut : SenderMembers none []

/-- A signed byte lies in its range. -/
lemma mem_range_int8 (b : Int8) :
    Json.IntegerRange.i8.least ≤ b.toInt ∧ b.toInt ≤ Json.IntegerRange.i8.greatest :=
  ⟨Int8.le_toInt b, Int8.toInt_le b⟩

/-- A signed byte is exact. -/
lemma isExact_int8 (b : Int8) : Json.IsExact b.toInt := by
  obtain ⟨hlow, hhigh⟩ := mem_range_int8 b
  simp only [Json.IntegerRange.i8] at hlow hhigh
  constructor <;> simp only [Json.leastMagnitude, UInt64.size] <;> omega

/-- The bytes of a sender nest one level deep. -/
lemma Payload.plain_senderJson (n : Nat) (bs : List Int8) :
    Json.Value.Plain (n + 1) (senderJson bs) := by
  refine .array fun v hv => ?_
  obtain ⟨b, _, rfl⟩ := List.mem_map.1 hv
  exact .scalar (.integer (isExact_int8 b))

/-- The bytes of a sender are read from their texts. -/
lemma RawReason.reads_senderJson {bs : List Int8} {text : List UInt8}
    (h : (Payload.senderJson bs).HasText text) : senderReader.Reads text (some bs) := by
  obtain _ | _ | _ | _ | _ | @⟨_, _, items, hws, hitems⟩ | _ := h
  rw [List.forall₂_map_left_iff] at hitems
  have hread : List.Forall₂ ((Json.Reader.integer .i8).map Int8.ofInt).ReadsPadded items bs := by
    refine (hitems.imp fun b item hitem => hitem.readsPadded fun text ht => ?_).flip
    obtain ⟨hlow, hhigh⟩ := mem_range_int8 b
    have hbyte := (Json.reads_intBytes (isExact_int8 b) hlow hhigh).map Int8.ofInt
    rw [Int8.ofInt_toInt] at hbyte
    cases ht
    exact hbyte
  exact (Json.Reader.Reads.list hws hread).optional (by simp [Json.Byte.openBracket, Json.Byte.n])

/-- The bytes of a sender are taken from their value. -/
lemma Transfer.senderOfValue_senderJson (bs : List Int8) :
    senderOfValue (Payload.senderJson bs) = .ok (some bs) := by
  have hbytes : (bs.map fun b => Json.Value.number (.integer b.toInt)).mapM
      (fun v => (Json.IntegerRange.i8.ofValue v).map Int8.ofInt) = Except.ok (ε := Json.Mismatch) bs
      := by
    induction bs with
    | nil => rfl
    | cons b bs ih =>
      have hb : (Json.IntegerRange.i8.ofValue (.number (.integer b.toInt))).map Int8.ofInt =
          .ok b := by
        simp only [Json.IntegerRange.ofValue, Json.IntegerRange.ofNumber, if_pos (mem_range_int8 b),
          Except.map, Int8.ofInt_toInt]
      rw [List.map_cons, List.mapM_cons, hb, ih]
      rfl
  simp only [senderOfValue, Payload.senderJson, Json.Value.toOption, Json.Value.toList, hbytes]
  rfl

namespace SenderJson

variable {sender : Option (List Int8)} {v : Json.Value}

/-- A sender is read from every text of a value that gives it. -/
lemma reads (h : SenderJson sender v) {text : List UInt8} (ht : v.HasText text) :
    RawReason.senderReader.Reads text sender := by
  rcases h with bs | _
  · exact RawReason.reads_senderJson ht
  · cases ht
    exact Json.Reader.reads_optional_null _

/-- A sender is taken from every value that gives it. -/
lemma senderOfValue_eq (h : SenderJson sender v) : Transfer.senderOfValue v = .ok sender := by
  rcases h with bs | _
  · exact Transfer.senderOfValue_senderJson bs
  · rfl

/-- A value that gives a sender nests one level deep. -/
lemma plain (h : SenderJson sender v) (n : Nat) : v.Plain (n + 1) := by
  rcases h with bs | _
  · exact Payload.plain_senderJson n bs
  · exact .scalar .null

end SenderJson

/-- A member that gives a sender has a value for it. -/
lemma SenderMembers.exists_of_mem {sender : Option (List Int8)}
    {given : List (String × Json.Value)} {m : String × Json.Value}
    (h : SenderMembers sender given) (hm : m ∈ given) :
    ∃ v, SenderJson sender v ∧ m = ("sender", v) := by
  rcases h with hv | _
  · exact ⟨_, hv, List.mem_singleton.1 hm⟩
  · cases hm

/-! ## The members of a reason -/

namespace RawReason

/-- A member that gives a field of a reason. -/
inductive GivesField : String × Json.Value → Prop
  | kind (k : String) : GivesField ("kind", .string k)
  | sender {sender : Option (List Int8)} {v : Json.Value} : SenderJson sender v →
      GivesField ("sender", v)
  | details {v : Json.Value} : v.Plain detailsDepth → GivesField ("details", v)

/-- The fields that members give, each by the member of its name. -/
def draftOf (ms : List (String × Json.Value)) : Draft where
  kind := (Json.Value.member? ms "kind").bind Json.Value.text?
  sender := (Json.Value.member? ms "sender").bind fun v => (Transfer.senderOfValue v).toOption
  details := Json.Value.member? ms "details"

/-- A member of a new name is read into the field of that name. -/
lemma GivesField.takes_singleton {m : String × Json.Value} (hm : GivesField m)
    {done : List (String × Json.Value)} (hnew : m.1 ∉ done.map Prod.fst) :
    ∃ field update, fields.find? (·.name == m.1) = some field ∧
      field.given (draftOf done) = false ∧
      (∀ text, m.2.HasText text → field.reader.Reads text update) ∧
      update (draftOf done) = draftOf (done ++ [m]) := by
  have hnone := Json.Value.member?_eq_none_iff.2 hnew
  rcases hm with k | hs | hd
  · exact Json.Field.exists_ofReader rfl (by simp [draftOf, hnone]) (fun _ => Json.reads_string)
      (by simp [draftOf, Json.Value.member?_append_singleton, Json.Value.text?])
  · exact Json.Field.exists_ofReader rfl (by simp [draftOf, hnone]) (fun _ => hs.reads)
      (by simp [draftOf, Json.Value.member?_append_singleton, hs.senderOfValue_eq,
        Except.toOption])
  · exact Json.Field.exists_ofReader rfl (by simp [draftOf, hnone]) hd.reads
      (by simp [draftOf, Json.Value.member?_append_singleton])

/-- Members of different names are read into the fields of their names. -/
lemma takes_draftOf (done : List (String × Json.Value)) {ms : List (String × Json.Value)}
    (hms : ∀ m ∈ ms, GivesField m) (h : ((done ++ ms).map Prod.fst).Nodup) :
    Json.Field.Takes fields (draftOf done) ms (draftOf (done ++ ms)) :=
  Json.Field.takes_append draftOf (fun _ _ hm hnew => hm.takes_singleton hnew) done hms h

/-- The fields that members of different names give do not depend on their order. -/
lemma draftOf_perm {ms ms' : List (String × Json.Value)} (h : (ms.map Prod.fst).Nodup)
    (hp : ms.Perm ms') : draftOf ms = draftOf ms' := by
  simp only [draftOf, Json.Value.member?_perm h hp]

/-- A reason is made of what its members give. -/
lemma ofDraft_draftOf {sender : Option (List Int8)} {given : List (String × Json.Value)}
    (h : SenderMembers sender given) (kind : String) (details : Json.Value) :
    ofDraft (draftOf (("kind", .string kind) :: (given ++ [("details", details)]))) =
      .ok ⟨kind, sender, details⟩ := by
  rcases h with hs | _
  · simp [draftOf, ofDraft, Json.Value.member?, Json.Value.text?, hs.senderOfValue_eq,
      Except.toOption]
  · simp [draftOf, ofDraft, Json.Value.member?, Json.Value.text?]

/-- The members of a reason are read into its fields, whatever their order and whatever plain value
stands for the details, and the reason is made of them. -/
lemma takes_of_perm {kind : String} {sender : Option (List Int8)} {details : Json.Value}
    {given ms : List (String × Json.Value)} (hs : SenderMembers sender given)
    (hd : details.Plain detailsDepth)
    (hp : ms.Perm (("kind", .string kind) :: (given ++ [("details", details)]))) :
    (∀ m ∈ ms, GivesField m) ∧ Json.Field.Takes shape.fields shape.start ms (draftOf ms) ∧
      shape.finish (draftOf ms) = .ok ⟨kind, sender, details⟩ := by
  have hnames : (ms.map Prod.fst).Nodup := by
    refine (hp.map Prod.fst).nodup_iff.2 ?_
    rcases hs with _ | _ <;> simp
  have hgives : ∀ m ∈ ms, GivesField m := by
    intro m hm
    rcases List.mem_cons.1 (hp.mem_iff.1 hm) with rfl | hm
    · exact .kind kind
    · rcases List.mem_append.1 hm with hm | hm
      · obtain ⟨v, hv, rfl⟩ := hs.exists_of_mem hm
        exact .sender hv
      · obtain rfl := List.mem_singleton.1 hm
        exact .details hd
  have hfinish : shape.finish (draftOf ms) = .ok ⟨kind, sender, details⟩ := by
    rw [draftOf_perm hnames hp]
    exact ofDraft_draftOf hs kind details
  exact ⟨hgives, takes_draftOf [] hgives hnames, hfinish⟩

/-- A reason is read as far as its kind from every text of an object with its members, whatever
their order and whatever plain value stands for the details. -/
theorem ofBytes_of_hasPaddedText {kind : String} {sender : Option (List Int8)}
    {details : Json.Value} {given ms : List (String × Json.Value)} {s : List UInt8}
    (hs : SenderMembers sender given) (hd : details.Plain detailsDepth)
    (hp : ms.Perm (("kind", .string kind) :: (given ++ [("details", details)])))
    (ht : (Json.Value.object ms).HasPaddedText s) : ofBytes s = .ok ⟨kind, sender, details⟩ := by
  obtain ⟨_, htakes, hfinish⟩ := takes_of_perm hs hd hp
  exact Json.readAll_of_readsPadded
    (ht.readsPadded fun text h => Json.RecordShape.reads_of_takes htakes hfinish h)

end RawReason

/-! ## Details -/

namespace Transfer

/-- An amount is taken from its value. -/
lemma amountOfValue_toNat (n : UInt64) :
    amountOfValue (.number (.integer n.toNat)) = .ok n := by
  have hin : Json.IntegerRange.u64.least ≤ (n.toNat : Int) ∧
      (n.toNat : Int) ≤ Json.IntegerRange.u64.greatest := by
    have hlt := n.toNat_lt_size
    simp only [Json.IntegerRange.u64, UInt64.size] at hlt ⊢
    omega
  simp only [amountOfValue, Json.IntegerRange.ofValue, Json.IntegerRange.ofNumber, if_pos hin,
    Except.map, Int.toNat_natCast, UInt64.ofNat_toNat]

/-- An object that gives a transfer: a sender, or none, and an amount, in any order. -/
inductive IsGivenBy (t : Transfer) : Json.Value → Prop
  | mk {given ms : List (String × Json.Value)} : SenderMembers t.sender given →
      ms.Perm (given ++ [("amount", .number (.integer t.amount.toNat))]) →
      IsGivenBy t (.object ms)

variable {t : Transfer} {v : Json.Value}

/-- The transfer that members give does not depend on their order, if no name occurs twice. -/
lemma ofMembers_perm {ms ms' : List (String × Json.Value)} (h : (ms.map Prod.fst).Nodup)
    (hp : ms.Perm ms') : ofMembers ms = ofMembers ms' := by
  simp only [ofMembers, Json.Value.member?_perm h hp]

/-- A transfer is taken from every object that gives it. -/
lemma IsGivenBy.ofValue_eq (h : t.IsGivenBy v) : ofValue v = .ok t := by
  obtain ⟨hs, hp⟩ := h
  obtain ⟨sender, amount⟩ := t
  have hamount := amountOfValue_toNat amount
  have hnames := (hp.map Prod.fst).nodup_iff
  rw [ofValue]
  rcases hs with hs | _
  · rw [ofMembers_perm (hnames.2 (by simp)) hp]
    simp [ofMembers, Json.Value.member?, hamount, hs.senderOfValue_eq, bind, Except.bind,
      Functor.map, Except.map]
  · rw [ofMembers_perm (hnames.2 (by simp)) hp]
    simp [ofMembers, Json.Value.member?, hamount, bind, Except.bind, pure, Except.pure]

/-- An object that gives a transfer nests two levels deep. -/
lemma IsGivenBy.plain (h : t.IsGivenBy v) (n : Nat) : Json.Value.Plain (n + 2) v := by
  obtain ⟨hs, hp⟩ := h
  refine .object fun m hm => ?_
  rcases List.mem_append.1 (hp.mem_iff.1 hm) with hm | hm
  · obtain ⟨v, hv, rfl⟩ := hs.exists_of_mem hm
    exact hv.plain n
  · obtain rfl := List.mem_singleton.1 hm
    exact .scalar (.integer (Json.isExact_uint64 t.amount))

end Transfer

/-- A value that gives details. -/
def Details.IsGivenBy : Details → Json.Value → Prop
  | transfer t, v => t.IsGivenBy v

/-! ## The whole reason -/

namespace Payload

/-- An object that gives a reason: its kind, a sender, or none, and its details, in any order. -/
inductive IsGivenBy (p : Payload) : Json.Value → Prop
  | mk {given ms : List (String × Json.Value)} {details : Json.Value} :
      SenderMembers p.sender given → p.details.IsGivenBy details →
      ms.Perm (("kind", .string p.kind) :: (given ++ [("details", details)])) →
      IsGivenBy p (.object ms)

/-- A reason of the known kind is read from every text of an object that gives it; of a sender
without bytes nothing is left. -/
theorem ofBytes_of_isGivenBy {p : Payload} {v : Json.Value} {s : List UInt8}
    (hkind : p.kind = transferKind) (hv : p.IsGivenBy v) (ht : v.HasPaddedText s) :
    ofBytes s = .ok { p with sender := nonempty? p.sender } := by
  obtain ⟨kind, sender, ⟨t⟩⟩ := p
  obtain ⟨hs, hd, hp⟩ := hv
  have hd : t.IsGivenBy _ := hd
  have hraw := RawReason.ofBytes_of_hasPaddedText hs (hd.plain 124) hp ht
  obtain rfl : kind = transferKind := hkind
  simp only [ofBytes, hraw, ofRaw, if_true, hd.ofValue_eq]

/-- A text that gives a reason of the known kind is decoded as this reason, whatever the order of
the members and the blanks between them, and whether a sender that is not there is left out or given
as `null`; only a sender without bytes would be lost. -/
theorem decode_of_isGivenBy {p : Payload} {v : Json.Value} {b : ByteArray}
    (hkind : p.kind = transferKind) (hsender : p.sender ≠ some []) (hv : p.IsGivenBy v)
    (hb : v.HasPaddedText b.data.toList) : decode b = .ok p := by
  have hread := ofBytes_of_isGivenBy hkind hv hb
  rwa [(nonempty?_eq_self_iff p.sender).2 hsender] at hread

/-- A text of a reason with the details first, blanks, an escape in a name, and `null` for the
sender of the details. -/
def spacedText : String :=
  "\n\x7b \"details\" : \x7b\"amount\":7,\"sender\":null\x7d ,\"k\\u0069nd\":\"transfer\"," ++
    "\"sender\":[ -1 ] \x7d "

/-- The value that the text stands for. -/
def spacedValue : Json.Value :=
  .object [("details", .object [("amount", .number (.integer 7)), ("sender", .null)]),
    ("kind", .string transferKind), ("sender", .array [.number (.integer (-1))])]

/-- The text is one of its value. -/
lemma hasPaddedText_spacedText : spacedValue.HasPaddedText (Json.textBytes spacedText) := by
  have hblank : Json.Blank [32] := by
    intro b hb
    obtain rfl := List.mem_singleton.1 hb
    rfl
  have hline : Json.Blank [10] := by
    intro b hb
    obtain rfl := List.mem_singleton.1 hb
    rfl
  have hunit : Json.HexUnit [48, 48, 54, 57] 105 :=
    .mk (.decimal (d := 0) (by decide)) (.decimal (d := 0) (by decide))
      (.decimal (d := 6) (by decide)) (.decimal (d := 9) (by decide))
  have hkind : Json.Spells [107, 92, 117, 48, 48, 54, 57, 110, 100] (Json.textBytes "kind") :=
    .plain (by decide) (by decide) (by decide)
      (.escaped (c := 'i') (.unit (by decide) hunit) (Json.spells_flatMap [110, 100]))
  have hname : ∀ name : String,
      Json.Spells ((Json.textBytes name).flatMap Json.escapedByte) (Json.textBytes name) :=
    fun name => Json.spells_flatMap (Json.textBytes name)
  have hdetails : (Json.Value.object [("amount", .number (.integer 7)),
      ("sender", .null)]).HasText _ :=
    .object Json.blank_nil
      (.cons (.mk Json.blank_nil (hname _) Json.blank_nil (Json.Value.HasText.integer 7).padded)
        (.cons (.mk Json.blank_nil (hname _) Json.blank_nil Json.Value.HasText.null.padded) .nil))
  have hsender : (Json.Value.array [.number (.integer (-1))]).HasText _ :=
    .array Json.blank_nil (.cons (.mk hblank (.integer (-1)) hblank) .nil)
  have htext : spacedValue.HasPaddedText _ :=
    .mk hline
      (.object Json.blank_nil
        (.cons (.mk hblank (hname _) hblank (.mk hblank hdetails hblank))
          (.cons (.mk Json.blank_nil hkind Json.blank_nil
              (Json.Value.HasText.string (hname _)).padded)
            (.cons (.mk Json.blank_nil (hname _) Json.blank_nil (.mk Json.blank_nil hsender hblank))
              .nil))))
      hblank
  -- The numerals are put in by hand: their digits are not computed by deciding.
  have hseven : Decimal.intBytes 7 = [55] :=
    congrArg (List.map Decimal.digitByte) (Decimal.digits_of_lt (by decide))
  have hminus : Decimal.intBytes (-1) = [45, 49] :=
    congrArg (fun ds => 45 :: List.map Decimal.digitByte ds) (Decimal.digits_of_lt (by decide))
  convert htext using 1
  rw [hseven, hminus]
  decide

/-- The reason is decoded from the text. -/
theorem decode_spacedText :
    (ofTransfer (some [-1]) ⟨none, 7⟩).IsGivenBy spacedValue ∧
      spacedValue.HasPaddedText (Json.textBytes spacedText) ∧
      decode spacedText.toUTF8 = .ok (ofTransfer (some [-1]) ⟨none, 7⟩) := by
  have hdetails : (Details.transfer ⟨none, 7⟩).IsGivenBy
      (.object [("amount", .number (.integer 7)), ("sender", .null)]) :=
    Transfer.IsGivenBy.mk (.given .null) (.swap _ _ _)
  have hgiven : (ofTransfer (some [-1]) ⟨none, 7⟩).IsGivenBy spacedValue :=
    .mk (.given (.bytes [-1])) hdetails (@List.perm_append_comm _ [_] [_, _])
  exact ⟨hgiven, hasPaddedText_spacedText,
    decode_of_isGivenBy rfl (by decide) hgiven hasPaddedText_spacedText⟩

end Payload

end ContractHost
