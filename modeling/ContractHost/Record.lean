import ContractHost.Bytes
import ContractHost.Text.Quoted
import ContractHost.Text.Utf8

/-!
# Records

What a guest can emit: a transaction with a tag and a payload, or a diagnostic message.  The size
of a record is the number of bytes of its text and payload.  A transaction is printed with tag and
payload quoted, a diagnostic with its message as it is.
-/

namespace ContractHost

/-- One thing that a guest emitted. -/
inductive Record where
  | transaction (tag : String) (payload : ByteArray)
  | diagnostic (message : String)
  deriving DecidableEq

namespace Record

/-- The bytes that the record counts for against a byte limit. -/
def size : Record → Nat
  | transaction tag payload => tag.utf8ByteSize + payload.size
  | diagnostic message => message.utf8ByteSize

/-- The line that stands for the record in printed output. -/
def line : Record → String
  | transaction tag payload =>
    "tag = " ++ Text.quoted tag ++ "; payload = " ++ Text.quoted (Utf8.lossy payload)
  | diagnostic message => "error: " ++ message

/-- The tag, if the record is a transaction. -/
def tag? : Record → Option String
  | transaction tag _ => some tag
  | diagnostic _ => none

/-- The message, if the record is a diagnostic. -/
def message? : Record → Option String
  | transaction _ _ => none
  | diagnostic message => some message

/-- Whether the record is a transaction. -/
def isTransaction : Record → Bool
  | transaction _ _ => true
  | diagnostic _ => false

end Record

end ContractHost
