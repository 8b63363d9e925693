import ContractHost.Json.Printer
import ContractHost.Json.Record
import ContractHost.Limits
import ContractHost.Memory

/-!
# Configuration

How much memory and fuel a guest gets, how large logs may grow, whether each iteration of a
repeated run starts on a new instance, and which entry point is called.  A configuration file is a
JSON record in which every field may be left out; an unnamed field keeps its default, also one
inside the limits of a log, whose defaults are those of a single invocation for either log.
-/

namespace ContractHost

/-- Whether the iterations of a repeated run share an instance. -/
inductive InstancePolicy where
  | reuse
  | fresh
  deriving DecidableEq, Repr

/-- The settings of a host. -/
structure Config where
  maxMemoryPages : UInt32
  fuelLimit : UInt64
  logLimits : LogLimits
  runLogLimits : LogLimits
  instancePolicy : InstancePolicy
  entryPoint : String
  deriving DecidableEq, Repr

/-- Why a configuration cannot be used. -/
inductive ConfigError where
  | unreadable
  | json (e : Json.ReadError)
  | tooManyPages (pages : UInt32)

namespace Config

/-- The largest number of pages that a signed 32-bit offset can address. -/
def greatestPages : Nat := 32768

/-- The settings where nothing is said. -/
def standard : Config where
  maxMemoryPages := 256
  fuelLimit := 100000000
  logLimits := .standard
  runLogLimits := ⟨1048576, 67108864⟩
  instancePolicy := .reuse
  entryPoint := "contract_main"

/-- The largest memory of a guest in bytes. -/
def maxMemoryBytes (c : Config) : Nat := c.maxMemoryPages.toNat * pageSize

/-- The settings, if all memory that they allow can be addressed. -/
def validate (c : Config) : Except ConfigError Config :=
  if c.maxMemoryPages.toNat ≤ greatestPages then .ok c else .error (.tooManyPages c.maxMemoryPages)

end Config

/-- The text of the error. -/
def ConfigError.message : ConfigError → String
  | unreadable => "the file cannot be read"
  | json e => e.message
  | tooManyPages pages =>
    s!"max_memory_pages {pages} exceeds the i32-addressable limit of {Config.greatestPages}"

/-! ## Files -/

/-- Reads an unsigned word of 64 bits. -/
def Json.Reader.word (r : Json.IntegerRange) : Json.Reader UInt64 :=
  (Json.Reader.integer r).map fun z => UInt64.ofNat z.toNat

namespace LogLimits

/-- The limits that have been read so far. -/
structure Draft where
  maxRecords : Option UInt64
  maxBytes : Option UInt64

/-- The limits made of what was read. -/
def ofDraft (d : Draft) : LogLimits :=
  ⟨d.maxRecords.getD standard.maxRecords, d.maxBytes.getD standard.maxBytes⟩

/-- How the limits of a log are written. -/
def shape : Json.RecordShape Draft LogLimits where
  name := "struct LogLimits"
  fields :=
    [.ofReader "max_records" Draft.maxRecords (fun x d => { d with maxRecords := some x })
      (.word .usize),
     .ofReader "max_bytes" Draft.maxBytes (fun x d => { d with maxBytes := some x })
      (.word .usize)]
  start := ⟨none, none⟩
  finish d := .ok (ofDraft d)

end LogLimits

namespace InstancePolicy

/-- The names of the policies. -/
def names : List String := ["reuse", "fresh"]

/-- The policy of a name. -/
def ofName (name : String) : Except Json.Mismatch InstancePolicy :=
  if name = "reuse" then .ok reuse
  else if name = "fresh" then .ok fresh
  else .error (.unknownVariant name names)

/-- Reads the value that stands behind a policy's name: it must be `null`. -/
def readUnit (s : List UInt8) : Except Json.ReadError (List UInt8) :=
  match Json.skipBlanks s with
  | [] => .error .endOfInput
  | b :: rest =>
    if b = Json.Byte.n then Json.keyword Json.Byte.ull rest
    else .error (Json.wrongKind "unit" b rest)

/-- Reads a name behind its quote. -/
def readName (s : List UInt8) : Except Json.ReadError (InstancePolicy × List UInt8) :=
  match Json.stringBody s with
  | .error e => .error e
  | .ok (name, rest) =>
    match ofName name with
    | .ok policy => .ok (policy, rest)
    | .error m => .error (.mismatch m)

/-- Reads an object of one member, whose name is the policy, behind its brace. -/
def readObject (s : List UInt8) : Except Json.ReadError (InstancePolicy × List UInt8) :=
  match Json.skipBlanks s with
  | [] => .error .endOfInput
  | b :: rest =>
    if b = Json.Byte.quote then
      match readName rest with
      | .error e => .error e
      | .ok (policy, s₁) =>
        match Json.colon s₁ with
        | .error e => .error e
        | .ok s₂ =>
          match readUnit s₂ with
          | .error e => .error e
          | .ok s₃ =>
            match Json.keyword [Json.Byte.closeBrace] (Json.skipBlanks s₃) with
            | .error e => .error e
            | .ok s₄ => .ok (policy, s₄)
    else .error .malformed

/-- Reads a policy from its first byte on. -/
def readFrom (b : UInt8) (s : List UInt8) : Except Json.ReadError (InstancePolicy × List UInt8) :=
  if b = Json.Byte.quote then readName s
  else if b = Json.Byte.openBrace then readObject s
  else .error .malformed

theorem length_readUnit_le {s rest : List UInt8} (h : readUnit s = .ok rest) :
    rest.length ≤ s.length := by
  unfold readUnit at h
  split at h
  · cases h
  next hs =>
    split at h
    · have := Json.length_keyword_le h
      have := Json.length_tail_skipBlanks hs
      omega
    · cases h

theorem length_readName_le {s rest : List UInt8} {p : InstancePolicy}
    (h : readName s = .ok (p, rest)) : rest.length ≤ s.length := by
  unfold readName at h
  split at h
  · cases h
  next hb =>
    split at h <;> cases h
    exact Nat.le_of_lt (Json.length_stringBody_lt hb)

theorem length_readObject_le {s rest : List UInt8} {p : InstancePolicy}
    (h : readObject s = .ok (p, rest)) : rest.length ≤ s.length := by
  unfold readObject at h
  split at h
  · cases h
  next hs =>
    split at h
    · split at h
      · cases h
      next h₁ =>
        split at h
        · cases h
        next h₂ =>
          split at h
          · cases h
          next h₃ =>
            split at h
            · cases h
            next h₄ =>
              cases h
              have := Json.length_tail_skipBlanks hs
              have := length_readName_le h₁
              have := Json.length_colon_le h₂
              have := length_readUnit_le h₃
              have := Nat.le_trans (Json.length_keyword_le h₄) (Json.length_skipBlanks_le _)
              omega
    · cases h

/-- Reads a policy. -/
def reader : Json.Reader InstancePolicy :=
  Json.Reader.byFirst readFrom fun {b s a rest} h => by
    unfold readFrom at h
    split at h
    · exact length_readName_le h
    · split at h
      · exact length_readObject_le h
      · cases h

end InstancePolicy

namespace Config

/-- The settings that have been read so far. -/
structure Draft where
  maxMemoryPages : Option UInt32
  fuelLimit : Option UInt64
  logLimits : Option LogLimits
  runLogLimits : Option LogLimits
  instancePolicy : Option InstancePolicy
  entryPoint : Option String

/-- The settings made of what was read. -/
def ofDraft (d : Draft) : Config where
  maxMemoryPages := d.maxMemoryPages.getD standard.maxMemoryPages
  fuelLimit := d.fuelLimit.getD standard.fuelLimit
  logLimits := d.logLimits.getD standard.logLimits
  runLogLimits := d.runLogLimits.getD standard.runLogLimits
  instancePolicy := d.instancePolicy.getD standard.instancePolicy
  entryPoint := d.entryPoint.getD standard.entryPoint

/-- Reads a number of pages. -/
def pagesReader : Json.Reader UInt32 :=
  (Json.Reader.integer .u32).map fun z => UInt32.ofNat z.toNat

/-- The fields of a configuration in their order. -/
def fields : List (Json.Field Draft) :=
  [.ofReader "max_memory_pages" Draft.maxMemoryPages
    (fun x d => { d with maxMemoryPages := some x }) pagesReader,
   .ofReader "fuel_limit" Draft.fuelLimit (fun x d => { d with fuelLimit := some x })
    (.word .u64),
   .ofReader "log_limits" Draft.logLimits (fun x d => { d with logLimits := some x })
    LogLimits.shape.reader,
   .ofReader "run_log_limits" Draft.runLogLimits (fun x d => { d with runLogLimits := some x })
    LogLimits.shape.reader,
   .ofReader "instance_policy" Draft.instancePolicy
    (fun x d => { d with instancePolicy := some x }) InstancePolicy.reader,
   .ofReader "entry_point" Draft.entryPoint (fun x d => { d with entryPoint := some x })
    .string]

/-- How a configuration is written. -/
def shape : Json.RecordShape Draft Config where
  name := "struct SandboxConfig"
  fields := fields
  start := ⟨none, none, none, none, none, none⟩
  finish d := .ok (ofDraft d)

/-- The settings that a JSON text gives, whether they can be used or not. -/
def ofText (text : String) : Except Json.ReadError Config :=
  Json.readAll shape.reader (Json.textBytes text)

/-- The settings in a file of the given content; a file that is not there has none. -/
def ofFile (content : Option ByteArray) : Except ConfigError Config :=
  match content.bind Utf8.strict with
  | none => .error .unreadable
  | some text =>
    match ofText text with
    | .error e => .error (.json e)
    | .ok config => config.validate

end Config

end ContractHost
