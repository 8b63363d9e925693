import ContractHost.Json.Printer

/-!
# Reasons

Why a contract is invoked: a kind, an optional sender, and details of that kind.  The only kind is
the transfer of an amount.  `Payload.encode` writes a reason as JSON: kind, sender and details in
this order, without blanks, and a sender only if it has bytes.
-/

namespace ContractHost

/-- The transfer of an amount. -/
structure Transfer where
  sender : Option (List Int8)
  amount : UInt64
  deriving DecidableEq, Repr

/-- What a reason says beyond its kind and sender. -/
inductive Details where
  | transfer (t : Transfer)
  deriving DecidableEq, Repr

/-- The kind of a transfer. -/
def transferKind : String := "transfer"

/-- The kind that the details belong to. -/
def Details.kind : Details → String
  | transfer _ => transferKind

/-- A reason. -/
structure Payload where
  kind : String
  sender : Option (List Int8)
  details : Details
  deriving DecidableEq, Repr

/-- Why a reason cannot be written or read. -/
inductive EncodingError where
  | kindMismatch (kind details : String)
  | unknownKind (kind : String)
  | json (e : Json.ReadError)

/-- The text of the error. -/
def EncodingError.message : EncodingError → String
  | kindMismatch kind details =>
    s!"reason kind '{kind}' does not match details of kind '{details}'"
  | unknownKind kind => s!"unknown reason kind '{kind}'"
  | json e => s!"reason json: {e.message}"

namespace Payload

/-- A reason for a transfer. -/
def ofTransfer (sender : Option (List Int8)) (t : Transfer) : Payload :=
  ⟨transferKind, sender, .transfer t⟩

/-- A reason can be written if its kind is known and is that of its details. -/
def validate (p : Payload) : Except EncodingError Unit :=
  if p.kind = transferKind then
    if p.details.kind = transferKind then .ok ()
    else .error (.kindMismatch p.kind p.details.kind)
  else .error (.unknownKind p.kind)

/-- The member for a sender: none if there are no bytes. -/
def senderMember : Option (List Int8) → List (String × Json.Value)
  | none => []
  | some [] => []
  | some (b :: bs) =>
    [("sender", .array ((b :: bs).map fun b => .number (.integer b.toInt)))]

/-- The transfer as JSON. -/
def transferJson (t : Transfer) : Json.Value :=
  .object (senderMember t.sender ++ [("amount", .number (.integer t.amount.toNat))])

/-- The details as JSON. -/
def detailsJson : Details → Json.Value
  | .transfer t => transferJson t

/-- The reason as JSON. -/
def toJson (p : Payload) : Json.Value :=
  .object (("kind", .string p.kind) :: senderMember p.sender ++
    [("details", detailsJson p.details)])

/-- The reason as the bytes of its JSON text. -/
def bytes (p : Payload) : List UInt8 := p.toJson.write

/-- The serialized reason. -/
def encode (p : Payload) : Except EncodingError ByteArray :=
  p.validate.map fun _ => ⟨p.bytes.toArray⟩

end Payload

end ContractHost
