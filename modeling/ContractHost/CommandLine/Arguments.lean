import ContractHost.Config

/-!
# Arguments of the command line

Options have a long name, and some a short one of one letter.  The value of an option follows it as
the next argument, or in the same argument behind `=`; behind a short name it may also follow at
once, and letters of options without a value may be bundled.  Behind `--` nothing is an option.
An argument that starts with a dash is no value, unless it is a negative number and follows
`--sender`.  Only `--sender` and `--verbose` may be repeated.

Arguments are looked at from left to right.  The first that is refused ends the reading, and so
does the first that asks for the version or for help.
-/

namespace ContractHost.CommandLine

/-- What a run was asked to do. -/
structure Options where
  module : Option String
  entry : Option String
  iterations : Option UInt64
  freshInstance : Bool
  fuel : Option UInt64
  maxMemoryPages : Option UInt32
  amount : Option UInt64
  sender : Option (List Int8)
  config : Option String
  listExports : Bool
  verbosity : Nat
  deriving DecidableEq, Repr

namespace Options

/-- Nothing was asked for. -/
def none : Options :=
  ⟨.none, .none, .none, false, .none, .none, .none, .none, .none, false, 0⟩

/-- The module file where none is named. -/
def standardModule : String := "transfer_back.wasm"

/-- The number of iterations where none is given. -/
def standardIterations : UInt64 := 1000

/-- The amount where none is given. -/
def standardAmount : UInt64 := 100000

/-- The sender where none is given. -/
def standardSender : List Int8 := [0, 1, 2, 3]

end Options

/-- What the arguments ask for. -/
inductive Request where
  | run (o : Options)
  | version
  | help
  deriving DecidableEq, Repr

/-- Why the arguments are refused. -/
inductive ArgumentError where
  | unknown (argument : String)
  | missingValue (option : String)
  | unexpectedValue (option : String)
  | invalidValue (option value : String)
  | repeated (option : String)
  deriving DecidableEq, Repr

/-- The text of the error. -/
def ArgumentError.message : ArgumentError → String
  | unknown a => s!"unexpected argument '{a}' found"
  | missingValue o => s!"a value is required for '{o}' but none was supplied"
  | unexpectedValue o => s!"unexpected value for '{o}' found; no more were expected"
  | invalidValue o v => s!"invalid value '{v}' for '{o}'"
  | repeated o => s!"the argument '{o}' cannot be used multiple times"

/-! ## Values -/

/-- The number that decimal digits stand for. -/
def digits? (cs : List Char) : Option Nat :=
  if cs.isEmpty || !cs.all Char.isDigit then none
  else some (Decimal.ofDigits (cs.map fun c => c.toNat - 48))

/-- An integer with an optional sign. -/
def integer? (value : String) : Option Int :=
  match value.toList with
  | '-' :: cs => (digits? cs).map fun n => -(n : Int)
  | '+' :: cs => (digits? cs).map Int.ofNat
  | cs => (digits? cs).map Int.ofNat

/-- A word of 64 bits, which has no minus sign. -/
def word? (value : String) : Option UInt64 :=
  match value.toList with
  | '-' :: _ => none
  | _ => (integer? value).bind fun z =>
    if z.toNat < UInt64.size then some (UInt64.ofNat z.toNat) else none

/-- A number of pages. -/
def pages? (value : String) : Option UInt32 :=
  (integer? value).bind fun z =>
    if 0 ≤ z ∧ z.toNat < UInt32.size then some (UInt32.ofNat z.toNat) else none

/-- A signed byte. -/
def byte? (value : String) : Option Int8 :=
  (integer? value).bind fun z => if -128 ≤ z ∧ z ≤ 127 then some (Int8.ofInt z) else none

/-- Signed bytes with commas between them. -/
def bytes? (value : String) : Option (List Int8) :=
  (value.splitOn ",").mapM byte?

/-- The name of a file, which is not empty. -/
def path? (value : String) : Option String := if value = "" then none else some value

/-- Whether the text behind a dash makes it a negative number: digits, and perhaps a point behind
the first and an exponent behind that. -/
def isNumber (cs : List Char) : Bool :=
  scan false false cs && !(cs.getLast?.any isE) && !cs.isEmpty && (cs.head?.any Char.isDigit)
where
  /-- The letter of an exponent. -/
  isE (c : Char) : Bool := c = 'e' || c = 'E'
  /-- At most one point, and none behind an exponent; at most one exponent. -/
  scan (point exponent : Bool) : List Char → Bool
    | [] => true
    | c :: cs =>
      if c.isDigit then scan point exponent cs
      else if c = '.' && !point && !exponent then scan true exponent cs
      else if isE c && !exponent then scan point true cs
      else false

/-! ## Options by name -/

/-- The options that take a value. -/
inductive Valued where
  | entry
  | iterations
  | fuel
  | maxMemoryPages
  | amount
  | sender
  | config
  deriving DecidableEq, Repr

/-- The options that take none. -/
inductive Switch where
  | freshInstance
  | listExports
  | verbose
  | version
  | help
  deriving DecidableEq, Repr

/-- An option. -/
inductive Known where
  | valued (v : Valued)
  | switch (s : Switch)
  deriving DecidableEq, Repr

/-- The options by their long names. -/
def longNames : List (String × Known) :=
  [("entry", .valued .entry), ("iterations", .valued .iterations), ("fuel", .valued .fuel),
   ("max-memory-pages", .valued .maxMemoryPages), ("amount", .valued .amount),
   ("sender", .valued .sender), ("config", .valued .config),
   ("fresh-instance", .switch .freshInstance), ("list-exports", .switch .listExports),
   ("verbose", .switch .verbose), ("version", .switch .version), ("help", .switch .help)]

/-- The options by their short names. -/
def shortNames : List (Char × Known) :=
  [('e', .valued .entry), ('n', .valued .iterations), ('c', .valued .config),
   ('v', .switch .verbose), ('V', .switch .version), ('h', .switch .help)]

/-- The name of an option in errors. -/
def Valued.name : Valued → String
  | entry => "--entry"
  | iterations => "--iterations"
  | fuel => "--fuel"
  | maxMemoryPages => "--max-memory-pages"
  | amount => "--amount"
  | sender => "--sender"
  | config => "--config"

/-- Keeps a value that may be given once. -/
def once {α : Type} (name value : String) (old : Option α) (new : Option α)
    (keep : α → Options) : Except ArgumentError Options :=
  match new with
  | none => .error (.invalidValue name value)
  | some x => if old.isSome then .error (.repeated name) else .ok (keep x)

/-- Takes in the value of an option. -/
def Valued.set (v : Valued) (value : String) (o : Options) : Except ArgumentError Options :=
  match v with
  | entry => once v.name value o.entry (some value) fun x => { o with entry := some x }
  | iterations =>
    once v.name value o.iterations (word? value) fun x => { o with iterations := some x }
  | fuel => once v.name value o.fuel (word? value) fun x => { o with fuel := some x }
  | maxMemoryPages =>
    once v.name value o.maxMemoryPages (pages? value) fun x => { o with maxMemoryPages := some x }
  | amount => once v.name value o.amount (word? value) fun x => { o with amount := some x }
  | config => once v.name value o.config (path? value) fun x => { o with config := some x }
  | sender =>
    match bytes? value with
    | none => .error (.invalidValue v.name value)
    | some xs => .ok { o with sender := some (o.sender.getD [] ++ xs) }

/-- Takes in the name of the module file. -/
def setModule (value : String) (o : Options) : Except ArgumentError Options :=
  if o.module.isSome then .error (.unknown value)
  else
    match path? value with
    | none => .error (.missingValue "[MODULE]")
    | some x => .ok { o with module := some x }

/-- Takes in an option without a value; one that ends the reading gives its request. -/
def Switch.set (s : Switch) (o : Options) : Except ArgumentError (Except Request Options) :=
  match s with
  | version => .ok (.error .version)
  | help => .ok (.error .help)
  | verbose => .ok (.ok { o with verbosity := o.verbosity + 1 })
  | freshInstance =>
    if o.freshInstance then .error (.repeated "--fresh-instance")
    else .ok (.ok { o with freshInstance := true })
  | listExports =>
    if o.listExports then .error (.repeated "--list-exports")
    else .ok (.ok { o with listExports := true })

/-! ## Reading arguments -/

/-- What an argument comes to: options, an option that still waits for its value, or a request that
ends the reading. -/
inductive Taken where
  | options (o : Options)
  | waiting (v : Valued) (o : Options)
  | ended (r : Request)

/-- Takes in an option without a value. -/
def takeSwitch (s : Switch) (o : Options) : Except ArgumentError Taken :=
  (s.set o).map fun
    | .ok o' => .options o'
    | .error r => .ended r

/-- Takes in an option with the value that was attached to it, if there was one. -/
def takeValued (v : Valued) (attached : Option String) (o : Options) :
    Except ArgumentError Taken :=
  match attached with
  | some value => (v.set value o).map .options
  | none => .ok (.waiting v o)

/-- The part before the first `=` and the part behind it. -/
def splitValue (cs : List Char) : String × Option String :=
  let name := cs.takeWhile (· ≠ '=')
  let rest := cs.drop name.length
  (String.ofList name, if rest.isEmpty then none else some (String.ofList rest.tail))

/-- Takes in an argument behind its two dashes. -/
def takeLong (cs : List Char) (o : Options) : Except ArgumentError Taken :=
  let (name, attached) := splitValue cs
  match longNames.lookup name with
  | none => .error (.unknown s!"--{name}")
  | some (.valued v) => takeValued v attached o
  | some (.switch s) =>
    if attached.isSome then .error (.unexpectedValue s!"--{name}") else takeSwitch s o

/-- The value that follows a short name at once. -/
def attachedShort : List Char → Option String
  | [] => none
  | '=' :: cs => some (String.ofList cs)
  | cs => some (String.ofList cs)

/-- Takes in an argument behind its one dash. -/
def takeShort : List Char → Options → Except ArgumentError Taken
  | [], o => .ok (.options o)
  | c :: cs, o =>
    match shortNames.lookup c with
    | none => .error (.unknown (String.ofList ['-', c]))
    | some (.valued v) => takeValued v (attachedShort cs) o
    | some (.switch s) =>
      match takeSwitch s o with
      | .ok (.options o') => takeShort cs o'
      | other => other

/-- Reads arguments behind `--`. -/
def readPlain : List String → Options → Except ArgumentError Request
  | [], o => .ok (.run o)
  | a :: as, o =>
    match setModule a o with
    | .error e => .error e
    | .ok o' => readPlain as o'

/-- How an argument looks. -/
inductive Form where
  | escape
  | long (cs : List Char)
  | short (cs : List Char)
  | plain

/-- The form of an argument. -/
def Form.of (a : String) : Form :=
  match a.toList with
  | ['-', '-'] => escape
  | '-' :: '-' :: cs => long cs
  | '-' :: c :: cs => short (c :: cs)
  | _ => plain

/-- Whether an option takes the argument as its value. -/
def Valued.accepts (v : Valued) (a : String) : Bool :=
  match Form.of a with
  | .plain => true
  | .short cs => v = sender && isNumber cs
  | _ => false

/-- Reads arguments up to the first that ends the reading. -/
def read : List String → Options → Except ArgumentError Request
  | [], o => .ok (.run o)
  | a :: as, o =>
    match Form.of a with
    | .escape => readPlain as o
    | .plain =>
      match setModule a o with
      | .error e => .error e
      | .ok o' => read as o'
    | .long cs => continueWith (takeLong cs o) as
    | .short cs => continueWith (takeShort cs o) as
where
  /-- Goes on behind an argument, at its value if it waits for one. -/
  continueWith (taken : Except ArgumentError Taken) (as : List String) :
      Except ArgumentError Request :=
    match taken, as with
    | .error e, _ => .error e
    | .ok (.ended r), _ => .ok r
    | .ok (.options o), as => read as o
    | .ok (.waiting v _), [] => .error (.missingValue v.name)
    | .ok (.waiting v o), a :: as =>
      if v.accepts a then
        match v.set a o with
        | .error e => .error e
        | .ok o' => read as o'
      else .error (.missingValue v.name)

/-- What the arguments ask for. -/
def Request.ofArguments (arguments : List String) : Except ArgumentError Request :=
  read arguments .none

end ContractHost.CommandLine
