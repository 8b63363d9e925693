/-!
# Reading text from bytes

`Utf8.strict` accepts exactly the well-formed UTF-8 encodings.  `Utf8.lossy` accepts every byte
string: a well-formed character is kept, and each maximal ill-formed part is replaced by one
`U+FFFD`.  The part that is replaced is the longest beginning of some character's encoding, or one
byte if no character begins that way, so a broken character never swallows the one behind it.
-/

namespace ContractHost.Utf8

/-- The text whose UTF-8 encoding the bytes are, if there is one. -/
def strict (bytes : ByteArray) : Option String :=
  String.fromUTF8? bytes

/-- Bytes are accepted just if they are the encoding of a text, and then as that text. -/
theorem strict_eq_some_iff {bytes : ByteArray} {text : String} :
    strict bytes = some text ↔ bytes = text.toUTF8 := by
  unfold strict String.fromUTF8?
  constructor
  · intro h
    split at h
    · cases h
      rfl
    · cases h
  · rintro rfl
    rw [String.toUTF8_eq_toByteArray, dif_pos text.isValidUTF8]
    rfl

/-- The character that stands for bytes that encode nothing. -/
def replacement : Char := '\ufffd'

/-- A byte that continues a character. -/
def isContinuation (b : UInt8) : Bool :=
  0x80 ≤ b && b ≤ 0xBF

/-- Whether `second` may follow `first` in the encoding of a character of three or four bytes. -/
def startsLong (first second : UInt8) : Bool :=
  if first = 0xE0 then 0xA0 ≤ second && second ≤ 0xBF
  else if first = 0xED then 0x80 ≤ second && second ≤ 0x9F
  else if 0xE1 ≤ first && first ≤ 0xEF then isContinuation second
  else if first = 0xF0 then 0x90 ≤ second && second ≤ 0xBF
  else if 0xF1 ≤ first && first ≤ 0xF3 then isContinuation second
  else if first = 0xF4 then 0x80 ≤ second && second ≤ 0x8F
  else false

/-- How many bytes an ill-formed part takes that begins with `first`: all of them would begin a
character if other bytes followed. -/
def illFormedLength (first : UInt8) (second third : Option UInt8) : Nat :=
  match second with
  | none => 1
  | some s =>
    if startsLong first s then
      match third with
      | none => 2
      | some t => if 0xF0 ≤ first && isContinuation t then 3 else 2
    else 1

theorem illFormedLength_pos (first : UInt8) (second third : Option UInt8) :
    0 < illFormedLength first second third := by
  unfold illFormedLength
  split
  · decide
  · split
    · split
      · decide
      · split <;> decide
    · decide

/-- The characters read from position `i` on. -/
def lossyFrom (bytes : ByteArray) (i : Nat) : List Char :=
  if h : i < bytes.size then
    match bytes.utf8DecodeChar? i with
    | some c => c :: lossyFrom bytes (i + c.utf8Size)
    | none =>
      replacement :: lossyFrom bytes (i + illFormedLength bytes[i] bytes[i + 1]? bytes[i + 2]?)
  else []
termination_by bytes.size - i
decreasing_by
  · have := Char.utf8Size_pos c
    omega
  · have := illFormedLength_pos bytes[i] bytes[i + 1]? bytes[i + 2]?
    omega

/-- The text of the bytes, with `U+FFFD` in place of each ill-formed part. -/
def lossy (bytes : ByteArray) : String :=
  String.ofList (lossyFrom bytes 0)

end ContractHost.Utf8
