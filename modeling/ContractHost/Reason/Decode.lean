import ContractHost.Json.Record
import ContractHost.Reason.Payload

/-!
# Reading reasons

The whole text is read first: kind and sender in their shapes, the details as a value of any shape
that nests no deeper than the text may.  Then the kind decides whether the details are looked at.
The details give their amount first and their sender second, wherever they stand in the text.
-/

namespace ContractHost

namespace Transfer

/-- A list of signed bytes, or nothing. -/
def senderOfValue : Json.Value → Except Json.Mismatch (Option (List Int8)) :=
  Json.Value.toOption (Json.Value.toList fun v => (Json.IntegerRange.i8.ofValue v).map Int8.ofInt)

/-- An amount. -/
def amountOfValue (v : Json.Value) : Except Json.Mismatch UInt64 :=
  (Json.IntegerRange.u64.ofValue v).map fun z => UInt64.ofNat z.toNat

/-- The name of a transfer's details in errors. -/
def shapeName : String := "struct TransferActivation"

/-- The transfer that an object describes. -/
def ofMembers (members : List (String × Json.Value)) : Except Json.Mismatch Transfer := do
  let amount ← (Json.Value.member? members "amount").mapM amountOfValue
  let sender ← (Json.Value.member? members "sender").mapM senderOfValue
  match amount with
  | some amount => .ok ⟨sender.join, amount⟩
  | none => .error (.missingField "amount")

/-- The transfer that an array of sender and amount describes. -/
def ofElements (vs : List Json.Value) : Except Json.Mismatch Transfer := do
  match vs with
  | [] => .error (.invalidLength 1 s!"{shapeName} with 2 elements")
  | sender :: vs' =>
    let sender ← senderOfValue sender
    match vs' with
    | [] => .error (.invalidLength 1 s!"{shapeName} with 2 elements")
    | amount :: more =>
      let amount ← amountOfValue amount
      if more.isEmpty then .ok ⟨sender, amount⟩
      else .error (.invalidLength vs.length "fewer elements in array")

/-- The transfer that a value describes. -/
def ofValue : Json.Value → Except Json.Mismatch Transfer
  | .object members => ofMembers members
  | .array vs => ofElements vs
  | v => .error (.invalidType v.found shapeName)

end Transfer

/-- A reason whose details have not been looked at. -/
structure RawReason where
  kind : String
  sender : Option (List Int8)
  details : Json.Value

namespace RawReason

/-- The fields of a reason that have been read so far. -/
structure Draft where
  kind : Option String
  sender : Option (Option (List Int8))
  details : Option Json.Value

/-- Reads a list of signed bytes, or nothing. -/
def senderReader : Json.Reader (Option (List Int8)) :=
  .optional (.list ((Json.Reader.integer .i8).map Int8.ofInt))

/-- How deep the details may nest, inside the object that they are part of. -/
def detailsDepth : Nat := Json.greatestDepth - 1

/-- The fields of a reason in their order. -/
def fields : List (Json.Field Draft) :=
  [.ofReader "kind" Draft.kind (fun x d => { d with kind := some x }) .string,
   .ofReader "sender" Draft.sender (fun x d => { d with sender := some x }) senderReader,
   .ofReader "details" Draft.details (fun x d => { d with details := some x })
    (Json.Value.reader detailsDepth)]

/-- The reason made of what was read: kind and details must have been given. -/
def ofDraft (d : Draft) : Except Nat RawReason :=
  match d.kind, d.details with
  | none, _ => .error 0
  | some _, none => .error 2
  | some kind, some details => .ok ⟨kind, d.sender.join, details⟩

/-- How a reason is written. -/
def shape : Json.RecordShape Draft RawReason :=
  ⟨"struct RawReason", fields, ⟨none, none, none⟩, ofDraft⟩

/-- The reason that the text describes, as far as its kind. -/
def ofBytes (s : List UInt8) : Except Json.ReadError RawReason := Json.readAll shape.reader s

end RawReason

namespace Payload

/-- A sender without bytes is none. -/
def nonempty? : Option (List Int8) → Option (List Int8)
  | some [] => none
  | sender => sender

/-- The reason of a text that was read as far as its kind. -/
def ofRaw (raw : RawReason) : Except EncodingError Payload :=
  if raw.kind = transferKind then
    match Transfer.ofValue raw.details with
    | .ok t => .ok ⟨raw.kind, nonempty? raw.sender, .transfer t⟩
    | .error m => .error (.json (.mismatch m))
  else .error (.unknownKind raw.kind)

/-- The reason that the bytes of a JSON text describe. -/
def ofBytes (s : List UInt8) : Except EncodingError Payload :=
  match RawReason.ofBytes s with
  | .error e => .error (.json e)
  | .ok raw => ofRaw raw

/-- The reason that was serialized. -/
def decode (serialized : ByteArray) : Except EncodingError Payload :=
  ofBytes serialized.data.toList

end Payload

end ContractHost
