import Mathlib.Tactic.Common
import ContractHost.Proofs.Checks
import ContractHost.Proofs.Json.Literal
import ContractHost.Proofs.Json.Lookup
import ContractHost.Proofs.Reason.Given

/-!
# Reasons by the texts of their parts

The text of a reason, or of a transfer's details, is given by the texts of its parts: it is an
object whose members have them, once each, in any order and among any unknown members, or an array
of them in their fixed order (`RawReason.TextOf`, `Transfer.TextOf`).  Whether such a text is read,
and as what, depends on nothing but what is read of the parts (`RawReason.TextOf.toOption_ofBytes`,
`Transfer.TextOf.toOption_ofValue`).

The members of the reason itself are taken one after the other, so this goes by induction on those
that were taken (`RawReason.toOption_foldlM_take`).  The details are looked up.
-/

namespace ContractHost.Json

variable {α : Type} {p : Reader α} {ms known strays : List (String × List UInt8)}
  {key name : String} {text : List UInt8}

/-- What is read of a text that need not be there. -/
def readGiven (p : Reader α) (text : Option (List UInt8)) : Option (Option α) :=
  text.mapM fun t => (readAll p t).toOption

/-- A member of another name does not matter to what is read. -/
lemma readGiven_append_of_ne (h : key ≠ name) :
    readGiven p ((ms ++ [(key, text)]).lookup name) = readGiven p (ms.lookup name) := by
  rw [lookup_append_singleton, if_neg h, Option.or_none]

/-- The first member of a name is what is read. -/
lemma readGiven_append_self (h : ms.lookup name = none) :
    readGiven p ((ms ++ [(name, text)]).lookup name) = (readAll p text).toOption.map some := by
  rw [lookup_append_singleton, if_pos rfl, h, Option.none_or, readGiven, Option.mapM_some]
  rfl

/-- The member for a text that need not be there. -/
def givenMember (name : String) (text : Option (List UInt8)) : List (String × List UInt8) :=
  (text.map (Prod.mk name)).toList

end ContractHost.Json

namespace ContractHost

namespace RawReason

/-! ## The members of a reason -/

/-- The names of the fields of a reason. -/
def fieldNames : List String := ["kind", "sender", "details"]

/-- The draft of the fields, if all that are there were read. -/
def draft? (kind : Option (Option String)) (sender : Option (Option (Option (List Int8))))
    (details : Option (Option Json.Value)) : Option Draft :=
  kind.bind fun kind => sender.bind fun sender => details.map fun details =>
    ⟨kind, sender, details⟩

/-- The draft of the fields that members give, each by the member of its name. -/
def draftOf? (ms : List (String × List UInt8)) : Option Draft :=
  draft? (Json.readGiven .string (ms.lookup "kind"))
    (Json.readGiven senderReader (ms.lookup "sender"))
    (Json.readGiven (Json.Value.reader detailsDepth) (ms.lookup "details"))

/-- A member is read into its field, if that was not given before. -/
lemma toOption_take {α : Type} {name : String} {get : Draft → Option α} {set : α → Draft → Draft}
    {p : Json.Reader α} {d : Draft}
    (hfind : fields.find? (·.name == name) = some (.ofReader name get set p))
    (hget : get d = none) (text : List UInt8) :
    (Json.Field.take fields d (name, text)).toOption =
      (Json.readAll p text).toOption.map fun a => set a d := by
  simp only [Json.Field.take, hfind, Json.Field.ofReader, hget, Option.isSome_none,
    Bool.false_eq_true, if_false, Json.readAll_map, Json.toOption_map, Option.map_map]
  rfl

section

variable {ms : List (String × List UInt8)} {text : List UInt8}

/-- The kind is taken behind the members in front of it. -/
lemma draftOf?_append_kind (h : ms.lookup "kind" = none) :
    draftOf? (ms ++ [("kind", text)]) = (draftOf? ms).bind fun d =>
      (Json.Field.take fields d ("kind", text)).toOption := by
  simp only [draftOf?, Json.readGiven_append_self h,
    Json.readGiven_append_of_ne (show "kind" ≠ "sender" by decide),
    Json.readGiven_append_of_ne (show "kind" ≠ "details" by decide), h]
  rcases Json.readGiven senderReader (ms.lookup "sender") with _ | sender
  · simp [draft?]
  rcases Json.readGiven (Json.Value.reader detailsDepth) (ms.lookup "details") with _ | details
  · simp [draft?]
  have htake := @toOption_take _ "kind" _ _ _ ⟨none, sender, details⟩ rfl rfl text
  simp only [Json.readGiven, Option.mapM_none, draft?, Option.pure_def, Option.bind_some,
    Option.map_some, htake]
  rcases Json.readAll .string text with e | kind <;> rfl

/-- The sender is taken behind the members in front of it. -/
lemma draftOf?_append_sender (h : ms.lookup "sender" = none) :
    draftOf? (ms ++ [("sender", text)]) = (draftOf? ms).bind fun d =>
      (Json.Field.take fields d ("sender", text)).toOption := by
  simp only [draftOf?, Json.readGiven_append_self h,
    Json.readGiven_append_of_ne (show "sender" ≠ "kind" by decide),
    Json.readGiven_append_of_ne (show "sender" ≠ "details" by decide), h]
  rcases Json.readGiven .string (ms.lookup "kind") with _ | kind
  · simp [draft?]
  rcases Json.readGiven (Json.Value.reader detailsDepth) (ms.lookup "details") with _ | details
  · simp [draft?]
  have htake := @toOption_take _ "sender" _ _ _ ⟨kind, none, details⟩ rfl rfl text
  simp only [Json.readGiven, Option.mapM_none, draft?, Option.pure_def, Option.bind_some,
    Option.map_some, htake]
  rcases Json.readAll senderReader text with e | sender <;> rfl

/-- The details are taken behind the members in front of them. -/
lemma draftOf?_append_details (h : ms.lookup "details" = none) :
    draftOf? (ms ++ [("details", text)]) = (draftOf? ms).bind fun d =>
      (Json.Field.take fields d ("details", text)).toOption := by
  simp only [draftOf?, Json.readGiven_append_self h,
    Json.readGiven_append_of_ne (show "details" ≠ "kind" by decide),
    Json.readGiven_append_of_ne (show "details" ≠ "sender" by decide), h]
  rcases Json.readGiven .string (ms.lookup "kind") with _ | kind
  · simp [draft?]
  rcases Json.readGiven senderReader (ms.lookup "sender") with _ | sender
  · simp [draft?]
  have htake := @toOption_take _ "details" _ _ _ ⟨kind, sender, none⟩ rfl rfl text
  simp only [Json.readGiven, Option.mapM_none, draft?, Option.pure_def, Option.bind_some,
    Option.map_some, htake]
  rcases Json.readAll (Json.Value.reader detailsDepth) text with e | details <;> rfl

/-- An unknown member is passed over. -/
lemma draftOf?_append_stray {key : String} (h : key ∉ fieldNames) :
    draftOf? (ms ++ [(key, text)]) = (draftOf? ms).bind fun d =>
      (Json.Field.take fields d (key, text)).toOption := by
  simp only [fieldNames, List.mem_cons, List.not_mem_nil, or_false, not_or] at h
  have hfind : fields.find? (·.name == key) = none := by
    simp [fields, Json.Field.ofReader, Ne.symm h.1, Ne.symm h.2.1, Ne.symm h.2.2]
  simp only [draftOf?, Json.readGiven_append_of_ne h.1, Json.readGiven_append_of_ne h.2.1,
    Json.readGiven_append_of_ne h.2.2, Json.Field.take, hfind]
  simp [Except.toOption]

end

/-- The members of a reason, each of a known name at most once, are read into its fields. -/
lemma toOption_foldlM_take (ms : List (String × List UInt8))
    (h : ∀ name ∈ fieldNames, (ms.filter (·.1 == name)).length ≤ 1) :
    (ms.foldlM (Json.Field.take fields) shape.start).toOption = draftOf? ms := by
  induction ms using List.reverseRecOn with
  | nil => rfl
  | append_singleton ms m ih =>
    have hms : ∀ name ∈ fieldNames, (ms.filter (·.1 == name)).length ≤ 1 := by
      intro name hname
      have hlen := h name hname
      rw [List.filter_append, List.length_append] at hlen
      omega
    have hnew : m.1 ∈ fieldNames → ms.lookup m.1 = none := by
      intro hname
      have hlen := h m.1 hname
      rw [List.filter_append, List.filter_cons_of_pos (by simp), List.length_append,
        List.filter_nil, List.length_singleton] at hlen
      have hnil : ms.filter (·.1 == m.1) = [] := List.eq_nil_of_length_eq_zero (by omega)
      rw [Json.lookup_eq_head?, hnil]
      rfl
    have hstep : ((ms ++ [m]).foldlM (Json.Field.take fields) shape.start).toOption =
        (draftOf? ms).bind fun d => (Json.Field.take fields d m).toOption := by
      rw [List.foldlM_append, ← ih hms]
      rcases ms.foldlM (Json.Field.take fields) shape.start with e | d
      · rfl
      · simp only [List.foldlM_cons, List.foldlM_nil, bind_pure]
        rfl
    obtain ⟨key, text⟩ := m
    rw [hstep]
    by_cases hkey : key ∈ fieldNames
    · have hnone := hnew hkey
      simp only [fieldNames, List.mem_cons, List.not_mem_nil, or_false] at hkey
      rcases hkey with rfl | rfl | rfl
      · exact (draftOf?_append_kind hnone).symm
      · exact (draftOf?_append_sender hnone).symm
      · exact (draftOf?_append_details hnone).symm
    · exact (draftOf?_append_stray hkey).symm

/-! ## The whole reason -/

/-- The text of a reason, given by the texts of its parts. -/
inductive TextOf (kind : List UInt8) (sender : Option (List UInt8)) (details : List UInt8) :
    List UInt8 → Prop
  | object {ms strays : List (String × List UInt8)} {s : List UInt8} :
      (∀ m ∈ ms, Json.IsJson m.2) →
      ms.Perm (("kind", kind) :: (Json.givenMember "sender" sender ++ ("details", details) ::
        strays)) →
      (∀ m ∈ strays, m.1 ∉ fieldNames) → Json.Spaced (Json.ObjectText ms) s →
      TextOf kind sender details s
  | array {text s : List UInt8} : sender = some text →
      (∀ item ∈ [kind, text, details], Json.IsJson item) →
      Json.Spaced (Json.ArrayText [kind, text, details]) s → TextOf kind sender details s

/-- A signed byte is read locally. -/
lemma isLocal_byteReader : ((Json.Reader.integer .i8).map Int8.ofInt).IsLocal :=
  (Json.Reader.isLocal_integer .i8).map Int8.ofInt

/-- The fields of a reason are read locally. -/
lemma isLocal_of_mem_fields : ∀ field ∈ shape.fields, field.reader.IsLocal := by
  have hsender : senderReader.IsLocal := isLocal_byteReader.list.optional
  simp only [shape, fields, Json.Field.ofReader, List.mem_cons, List.not_mem_nil, or_false]
  rintro field (rfl | rfl | rfl)
  · exact Json.Reader.isLocal_string.map _
  · exact hsender.map _
  · exact (Json.Value.isLocal_reader _).map _

/-- What is made of the parts of a reason that were read. -/
def parts? (kind : List UInt8) (sender : Option (List UInt8)) (details : List UInt8) :
    Option RawReason :=
  (Json.readAll .string kind).toOption.bind fun kind =>
    ((Json.readGiven senderReader sender).map Option.join).bind fun sender =>
      (Json.readAll (Json.Value.reader detailsDepth) details).toOption.map fun details =>
        ⟨kind, sender, details⟩

/-- The reason that is made of the fields, if they were read. -/
lemma bind_made_draft? (missing : Nat → Json.Mismatch) (kind : List UInt8)
    (sender : Option (List UInt8)) (details : List UInt8) :
    ((draft? (Json.readGiven .string (some kind)) (Json.readGiven senderReader sender)
        (Json.readGiven (Json.Value.reader detailsDepth) (some details))).bind fun d =>
      (shape.made missing d).toOption) = parts? kind sender details := by
  simp only [parts?, Json.readGiven, Option.mapM_some]
  rcases Json.readAll .string kind with e | k
  · rfl
  rcases sender.mapM fun t => (Json.readAll senderReader t).toOption with _ | sender
  · rfl
  rcases Json.readAll (Json.Value.reader detailsDepth) details with e | d <;> rfl

/-- A reason is read from its text as what is read of the parts. -/
theorem TextOf.toOption_ofBytes {kind details s : List UInt8} {sender : Option (List UInt8)}
    (h : TextOf kind sender details s) :
    (ofBytes s).toOption = parts? kind sender details := by
  rcases h with @⟨ms, strays, _, hjson, hperm, hstrays, hs⟩ | @⟨text, _, rfl, hjson, hs⟩
  · let known := ("kind", kind) :: (Json.givenMember "sender" sender ++ [("details", details)])
    have hperm : ms.Perm (known ++ strays) := by simpa [known] using hperm
    have hnodup : (known.map Prod.fst).Nodup := by
      rcases sender with _ | sender <;> simp [known, Json.givenMember]
    have hne : ∀ name ∈ fieldNames, ∀ m ∈ strays, m.1 ≠ name := by
      rintro name hname m hm rfl
      exact hstrays m hm hname
    have honce : ∀ name ∈ fieldNames, (ms.filter (·.1 == name)).length ≤ 1 := by
      intro name hname
      rw [Json.filter_of_perm hperm hnodup (hne name hname)]
      exact Json.length_filter_le_one hnodup name
    have hdraft : draftOf? ms = draft? (Json.readGiven .string (some kind))
        (Json.readGiven senderReader sender)
        (Json.readGiven (Json.Value.reader detailsDepth) (some details)) := by
      have hlookup : ∀ name ∈ fieldNames, ms.lookup name = known.lookup name := fun name hname =>
        Json.lookup_of_perm hperm hnodup (hne name hname)
      simp only [draftOf?, hlookup "kind" (by simp [fieldNames]),
        hlookup "sender" (by simp [fieldNames]), hlookup "details" (by simp [fieldNames])]
      rcases sender with _ | sender <;> rfl
    rw [ofBytes, Json.RecordShape.readAll_object isLocal_of_mem_fields hjson hs,
      Json.toOption_bind]
    rw [show shape.fields = fields from rfl, toOption_foldlM_take ms honce, hdraft,
      bind_made_draft?]
  · rw [ofBytes, Json.RecordShape.readAll_array isLocal_of_mem_fields rfl hjson hs,
      Json.toOption_bind]
    have hput : ((shape.fields.zip [kind, text, details]).foldlM Json.Field.put
        shape.start).toOption = draft? (Json.readGiven .string (some kind))
          (Json.readGiven senderReader (some text))
          (Json.readGiven (Json.Value.reader detailsDepth) (some details)) := by
      simp only [shape, fields, Json.Field.ofReader, List.zip_cons_cons, List.zip_nil_right,
        List.foldlM_cons, List.foldlM_nil, Json.Field.put, Json.readAll_map, Json.readGiven,
        Option.mapM_some]
      rcases Json.readAll .string kind with e | kind
      · rfl
      rcases Json.readAll senderReader text with e | sender
      · rfl
      rcases Json.readAll (Json.Value.reader detailsDepth) details with e | details <;> rfl
    rw [hput, bind_made_draft?]

end RawReason

/-! ## Details -/

namespace Transfer

/-- The names of the fields of a transfer. -/
def fieldNames : List String := ["sender", "amount"]

/-- Reads a member of the details, which are one level deeper than its own. -/
def memberReader : Json.Reader Json.Value := Json.Value.reader (RawReason.detailsDepth - 1)

/-- The text of a transfer's details, given by the texts of its parts. -/
inductive TextOf (sender : Option (List UInt8)) (amount : List UInt8) : List UInt8 → Prop
  | object {ms strays : List (String × List UInt8)} {s : List UInt8} :
      (∀ m ∈ ms, Json.IsJson m.2) →
      ms.Perm (Json.givenMember "sender" sender ++ ("amount", amount) :: strays) →
      (∀ m ∈ strays, m.1 ∉ fieldNames ∧ ∃ v, Json.readAll memberReader m.2 = .ok v) →
      Json.Spaced (Json.ObjectText ms) s → TextOf sender amount s
  | array {text s : List UInt8} : sender = some text →
      (∀ item ∈ [text, amount], Json.IsJson item) →
      Json.Spaced (Json.ArrayText [text, amount]) s → TextOf sender amount s

/-- The sender that is taken from the value of a text. -/
def senderOf? (text : List UInt8) : Option (Option (List Int8)) :=
  (Json.readAll memberReader text).toOption.bind fun v => (senderOfValue v).toOption

/-- The amount that is taken from the value of a text. -/
def amountOf? (text : List UInt8) : Option UInt64 :=
  (Json.readAll memberReader text).toOption.bind fun v => (amountOfValue v).toOption

/-- What is made of the parts of a transfer that were read. -/
def parts? (sender : Option (List UInt8)) (amount : List UInt8) : Option Transfer :=
  (amountOf? amount).bind fun amount =>
    ((sender.mapM senderOf?).map Option.join).map fun sender => ⟨sender, amount⟩

/-- A transfer is made of the members that give its parts. -/
lemma toOption_ofMembers {vs : List (String × Json.Value)} {sender : Option Json.Value}
    {amount : Json.Value} (hsender : Json.Value.member? vs "sender" = sender)
    (hamount : Json.Value.member? vs "amount" = some amount) :
    (ofMembers vs).toOption = (amountOfValue amount).toOption.bind fun amount =>
      ((sender.mapM fun v => (senderOfValue v).toOption).map Option.join).map fun sender =>
        ⟨sender, amount⟩ := by
  simp only [ofMembers, hsender, hamount, Option.mapM_some]
  rcases amountOfValue amount with e | n
  · rfl
  rcases sender with _ | v
  · rfl
  rw [Option.mapM_some, Option.mapM_some]
  rcases senderOfValue v with e | s <;> rfl

/-- The value of a text, if it has one. -/
def valueOf (text : List UInt8) : Json.Value :=
  (Json.readAll memberReader text).toOption.getD .null

/-- A text that has a value is read as it. -/
lemma readAll_valueOf {text : List UInt8} (h : ∃ v, Json.readAll memberReader text = .ok v) :
    Json.readAll memberReader text = .ok (valueOf text) := by
  obtain ⟨v, hv⟩ := h
  rw [valueOf, hv]
  rfl

/-- Nothing is made of the parts if one of them has no value. -/
lemma parts?_eq_none {sender : Option (List UInt8)} {amount : List UInt8} {m : String × List UInt8}
    {e : Json.ReadError} (hm : m ∈ Json.givenMember "sender" sender ++ [("amount", amount)])
    (he : Json.readAll memberReader m.2 = .error e) : parts? sender amount = none := by
  rcases List.mem_append.1 hm with hm | hm
  · obtain ⟨text, rfl, rfl⟩ : ∃ text, sender = some text ∧ m = ("sender", text) := by
      simpa [Json.givenMember, eq_comm] using hm
    have hnone : senderOf? text = none := by
      rw [senderOf?, he]
      rfl
    simp [parts?, hnone]
  · obtain rfl := List.mem_singleton.1 hm
    have hnone : amountOf? amount = none := by
      rw [amountOf?, he]
      rfl
    simp [parts?, hnone]

/-- A transfer is taken from an object if it is from the members that give its parts. -/
lemma toOption_ofMembers_valueOf {ms strays : List (String × List UInt8)}
    {sender : Option (List UInt8)} {amount : List UInt8}
    (hperm : ms.Perm ((Json.givenMember "sender" sender ++ [("amount", amount)]) ++ strays))
    (hstrays : ∀ m ∈ strays, m.1 ∉ fieldNames)
    (hread : ∀ m ∈ ms, ∃ v, Json.readAll memberReader m.2 = .ok v) :
    (ofMembers (ms.map fun m => (m.1, valueOf m.2))).toOption = parts? sender amount := by
  let f : String × List UInt8 → String × Json.Value := fun m => (m.1, valueOf m.2)
  have hperm' := hperm.map f
  rw [List.map_append] at hperm'
  have hnodup : (((Json.givenMember "sender" sender ++ [("amount", amount)]).map f).map
      Prod.fst).Nodup := by
    rcases sender with _ | sender <;> simp [Json.givenMember, f]
  have hne : ∀ name ∈ fieldNames, ∀ m ∈ strays.map f, m.1 ≠ name := by
    rintro name hname m hm rfl
    obtain ⟨m', hm', rfl⟩ := List.mem_map.1 hm
    exact hstrays m' hm' hname
  have hamount : Json.Value.member? (ms.map f) "amount" = some (valueOf amount) := by
    rw [Json.Value.member?_of_perm hperm' hnodup (hne "amount" (by simp [fieldNames]))]
    rcases sender with _ | sender <;> rfl
  have hsender : Json.Value.member? (ms.map f) "sender" = sender.map valueOf := by
    rw [Json.Value.member?_of_perm hperm' hnodup (hne "sender" (by simp [fieldNames]))]
    rcases sender with _ | sender <;> rfl
  have hamount' := readAll_valueOf (hread ("amount", amount) (hperm.mem_iff.2 (by simp)))
  rw [toOption_ofMembers hsender hamount, parts?, amountOf?, hamount']
  rcases sender with _ | text
  · rfl
  · have hsender' :=
      readAll_valueOf (hread ("sender", text) (hperm.mem_iff.2 (by simp [Json.givenMember])))
    simp only [Option.map_some, Option.mapM_some, senderOf?, hsender', Except.toOption,
      Option.bind_some]

/-- A transfer is taken from the value of its text as what is read of the parts. -/
theorem TextOf.toOption_ofValue {sender : Option (List UInt8)} {amount s : List UInt8}
    (h : TextOf sender amount s) :
    ((Json.readAll (Json.Value.reader RawReason.detailsDepth) s).toOption.bind fun v =>
      (ofValue v).toOption) = parts? sender amount := by
  rcases h with @⟨ms, strays, _, hjson, hperm, hstrays, hs⟩ | @⟨text, _, rfl, hjson, hs⟩
  · have hread : Json.readAll (Json.Value.reader RawReason.detailsDepth) s =
        (ms.mapM (Json.readMember memberReader)).map .object :=
      Json.Value.readAll_object 125 hjson hs
    have hperm :
        ms.Perm ((Json.givenMember "sender" sender ++ [("amount", amount)]) ++ strays) := by
      simpa using hperm
    rw [hread, Json.toOption_map]
    by_cases hall : ∀ m ∈ ms, ∃ v, Json.readAll memberReader m.2 = .ok v
    · have hmapM : ms.mapM (Json.readMember memberReader) =
          .ok (ms.map fun m => (m.1, valueOf m.2)) := by
        rw [mapM_eq_ok_iff, List.forall₂_map_right_iff, List.forall₂_same]
        intro m hm
        rw [Json.readMember, readAll_valueOf (hall m hm)]
        rfl
      rw [hmapM]
      exact toOption_ofMembers_valueOf hperm (fun m hm => (hstrays m hm).1) hall
    · -- Then it is a part that has no value, as every unknown member has one.
      push Not at hall
      obtain ⟨m, hm, hno⟩ := hall
      rcases hvalue : Json.readAll memberReader m.2 with e | v
      · have hmem : m ∈ Json.givenMember "sender" sender ++ [("amount", amount)] := by
          rcases List.mem_append.1 (hperm.mem_iff.1 hm) with hm | hm
          · exact hm
          · obtain ⟨v, hv⟩ := (hstrays m hm).2
            exact absurd hv (hno v)
        have hmember : Json.readMember memberReader m = .error e := by
          rw [Json.readMember, hvalue]
          rfl
        obtain ⟨e', he'⟩ := exists_mapM_eq_error hm hmember
        rw [he', parts?_eq_none hmem hvalue]
        rfl
      · exact absurd hvalue (hno v)
  · have hread : Json.readAll (Json.Value.reader RawReason.detailsDepth) s =
        ([text, amount].mapM (Json.readAll memberReader)).map .array :=
      Json.Value.readAll_array 125 hjson hs
    rw [hread]
    simp only [parts?, senderOf?, amountOf?, Option.mapM_some, List.mapM_cons, List.mapM_nil]
    rcases Json.readAll memberReader text with e | sender
    · rcases Json.readAll memberReader amount with e' | amount
      · rfl
      · simp only [Except.toOption, Option.bind_some]
        rcases amountOfValue amount with e' | n <;> rfl
    rcases Json.readAll memberReader amount with e | amount
    · rfl
    change (ofElements [sender, amount]).toOption = _
    simp only [ofElements, Except.toOption, Option.bind_some]
    rcases senderOfValue sender with e | s
    · rcases amountOfValue amount with e' | n <;> rfl
    · rcases amountOfValue amount with e' | n <;> rfl

end Transfer

/-! ## Transfers -/

/-- Members with JSON texts are those of a text that need not be there, if that is JSON. -/
lemma forall_givenMember {name : String} {text : Option (List UInt8)}
    (h : ∀ t ∈ text, Json.IsJson t) : ∀ m ∈ Json.givenMember name text, Json.IsJson m.2 := by
  rcases text with _ | text
  · exact fun m hm => absurd hm List.not_mem_nil
  · intro m hm
    obtain rfl := List.mem_singleton.1 hm
    exact h text rfl

/-- Details without blanks are a text of their parts. -/
lemma Transfer.textOf_objectBytes {sender : Option (List UInt8)} {amount : List UInt8}
    (hsender : ∀ text ∈ sender, Json.IsJson text) (hamount : Json.IsJson amount) :
    TextOf sender amount (Json.objectBytes
      ((Json.givenMember "sender" sender ++ [("amount", amount)]).map Json.memberBytes)) := by
  refine @TextOf.object _ _ _ [] _ ?_ (.refl _) (fun m hm => absurd hm List.not_mem_nil)
    (Json.spaced_of (Json.objectText_map_memberBytes _))
  rw [List.forall_mem_append, List.forall_mem_singleton]
  exact ⟨forall_givenMember hsender, hamount⟩

/-- A reason without blanks is a text of its parts. -/
lemma RawReason.textOf_objectBytes {kind details : List UInt8} {sender : Option (List UInt8)}
    (hkind : Json.IsJson kind) (hsender : ∀ text ∈ sender, Json.IsJson text)
    (hdetails : Json.IsJson details) :
    TextOf kind sender details (Json.objectBytes ((("kind", kind) ::
      (Json.givenMember "sender" sender ++ [("details", details)])).map Json.memberBytes)) := by
  refine @TextOf.object _ _ _ _ [] _ ?_ (.refl _) (fun m hm => absurd hm List.not_mem_nil)
    (Json.spaced_of (Json.objectText_map_memberBytes _))
  rw [List.forall_mem_cons, List.forall_mem_append, List.forall_mem_singleton]
  exact ⟨hkind, forall_givenMember hsender, hdetails⟩

namespace Payload

/-- The text of a reason for a transfer, given by the texts of its parts: the sender of the reason,
and the sender and the amount of the details. -/
inductive TextOf (sender inner : Option (List UInt8)) (amount s : List UInt8) : Prop
  | mk {kind details : List UInt8} : (Json.Value.string transferKind).HasPaddedText kind →
      Transfer.TextOf inner amount details → RawReason.TextOf kind sender details s →
      TextOf sender inner amount s

/-- The text of a string is read as the string. -/
lemma readAll_string {k : String} {s : List UInt8} (h : (Json.Value.string k).HasPaddedText s) :
    Json.readAll .string s = .ok k :=
  Json.readAll_of_readsPadded (h.readsPadded fun _ ht => Json.reads_string ht)

/-- Once its parts are read a reason is made of them, and if they are not it is refused as JSON. -/
lemma ofBytes_of_textOf {kind details s : List UInt8} {sender : Option (List UInt8)}
    (h : RawReason.TextOf kind sender details s) :
    (∀ raw, RawReason.parts? kind sender details = some raw → ofBytes s = ofRaw raw) ∧
      (RawReason.parts? kind sender details = none → ∃ e, ofBytes s = .error (.json e)) := by
  rw [← h.toOption_ofBytes, ofBytes]
  rcases RawReason.ofBytes s with e | raw
  · refine ⟨fun raw hraw => ?_, fun _ => ⟨e, rfl⟩⟩
    cases hraw
  · refine ⟨fun raw' hraw => ?_, fun hraw => ?_⟩
    · cases hraw
      rfl
    · cases hraw

/-- A reason for a transfer is made of what is read of its parts, and if they are not read it is
refused as JSON. -/
theorem TextOf.ofBytes_eq {sender inner : Option (List UInt8)} {amount s : List UInt8}
    (h : TextOf sender inner amount s) :
    (∀ bs t, (Json.readGiven RawReason.senderReader sender).map Option.join = some bs →
        Transfer.parts? inner amount = some t →
        ofBytes s = .ok ⟨transferKind, nonempty? bs, .transfer t⟩) ∧
      ((Json.readGiven RawReason.senderReader sender).map Option.join = none ∨
        Transfer.parts? inner amount = none → ∃ e, ofBytes s = .error (.json e)) := by
  obtain @⟨kind, details, hkind, hdetails, hs⟩ := h
  obtain ⟨hmade, hrefused⟩ := ofBytes_of_textOf hs
  have hparts := hdetails.toOption_ofValue
  have hraw : RawReason.parts? kind sender details =
      ((Json.readGiven RawReason.senderReader sender).map Option.join).bind fun bs =>
        (Json.readAll (Json.Value.reader RawReason.detailsDepth) details).toOption.map fun v =>
          ⟨transferKind, bs, v⟩ := by
    rw [RawReason.parts?, readAll_string hkind]
    rfl
  rcases hvalue : Json.readAll (Json.Value.reader RawReason.detailsDepth) details with e | v
  · rw [hvalue] at hparts hraw
    refine ⟨fun bs t _ ht => ?_, fun _ => hrefused ?_⟩
    · rw [← hparts] at ht
      cases ht
    · rw [hraw]
      simp [Except.toOption]
  · rw [hvalue] at hparts hraw
    have hvalue : (Transfer.ofValue v).toOption = Transfer.parts? inner amount := hparts
    rw [← hvalue]
    rcases hsender : (Json.readGiven RawReason.senderReader sender).map Option.join with _ | bs
    · refine ⟨fun bs t hbs _ => ?_, fun _ => hrefused (by rw [hraw, hsender]; rfl)⟩
      cases hbs
    · have hofRaw := hmade ⟨transferKind, bs, v⟩ (by rw [hraw, hsender]; rfl)
      simp only [hofRaw, ofRaw, if_true]
      rcases Transfer.ofValue v with m | t
      · refine ⟨fun bs t _ ht => ?_, fun _ => ⟨_, rfl⟩⟩
        cases ht
      · refine ⟨fun bs' t' hbs ht => ?_, fun hnone => ?_⟩
        · cases hbs
          cases ht
          rfl
        · rcases hnone with hnone | hnone <;> cases hnone

/-- The text of a reason for a transfer without blanks, its members in their order. -/
def plainBytes (sender inner : Option (List UInt8)) (amount : List UInt8) : List UInt8 :=
  Json.objectBytes ((("kind", Json.stringLiteral transferKind) ::
    (Json.givenMember "sender" sender ++ [("details", Json.objectBytes
      ((Json.givenMember "sender" inner ++ [("amount", amount)]).map Json.memberBytes))])).map
        Json.memberBytes)

/-- What is written for a string is a text of it. -/
lemma hasPaddedText_stringLiteral (k : String) :
    (Json.Value.string k).HasPaddedText (Json.stringLiteral k) :=
  (Json.Value.HasText.string (Json.spells_flatMap (Json.textBytes k))).padded

/-- A string is JSON, however it is spelled. -/
lemma isJson_of_string {k : String} {s : List UInt8} (h : (Json.Value.string k).HasPaddedText s) :
    Json.IsJson s :=
  Json.Reader.recognizes_string.isJson (readAll_string h)

/-- A reason for a transfer without blanks is a text of its parts. -/
lemma textOf_plainBytes {sender inner : Option (List UInt8)} {amount : List UInt8}
    (hsender : ∀ text ∈ sender, Json.IsJson text) (hinner : ∀ text ∈ inner, Json.IsJson text)
    (hamount : Json.IsJson amount) :
    TextOf sender inner amount (plainBytes sender inner amount) := by
  have hdetails : Json.IsJson (Json.objectBytes
      ((Json.givenMember "sender" inner ++ [("amount", amount)]).map Json.memberBytes)) := by
    refine Json.spaced_of ((Json.objectText_map_memberBytes _).wellFormed ?_)
    rw [List.forall_mem_append, List.forall_mem_singleton]
    exact ⟨forall_givenMember hinner, hamount⟩
  have hkind := hasPaddedText_stringLiteral transferKind
  exact .mk hkind (Transfer.textOf_objectBytes hinner hamount)
    (RawReason.textOf_objectBytes (isJson_of_string hkind) hsender hdetails)

end Payload

end ContractHost
