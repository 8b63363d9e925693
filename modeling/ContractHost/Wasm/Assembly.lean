import ContractHost.Wasm.Instr

/-!
# Instructions as text

A line holds an instruction's name and perhaps one number.  Lines that open, divide or close a
block are kept as marks until `nest` puts what stands between them into the tree.
-/

namespace ContractHost.Wasm

/-- A line of a body. -/
inductive Line where
  | plain (i : Instr)
  | openBlock
  | openLoop
  | openBranch
  | otherwise
  | close

/-! ## Numbers -/

/-- The value of a digit, also of a hexadecimal one. -/
def digitValue? (c : Char) : Option Nat :=
  if '0' ≤ c ∧ c ≤ '9' then some (c.toNat - '0'.toNat)
  else if 'a' ≤ c ∧ c ≤ 'f' then some (c.toNat - 'a'.toNat + 10)
  else if 'A' ≤ c ∧ c ≤ 'F' then some (c.toNat - 'A'.toNat + 10)
  else none

/-- The number that digits stand for in a base; there must be at least one. -/
def digitsValue? (base : Nat) (cs : List Char) : Option Nat :=
  if cs.isEmpty then none
  else cs.foldlM (fun n c => do
    let d ← digitValue? c
    if d < base then some (base * n + d) else none) 0

/-- A natural number, decimal or hexadecimal. -/
def natural? : List Char → Option Nat
  | '0' :: 'x' :: cs => digitsValue? 16 cs
  | cs => digitsValue? 10 cs

/-- A number with an optional sign: whether it is negative, and what follows the sign. -/
def signed : List Char → Bool × List Char
  | '-' :: cs => (true, cs)
  | '+' :: cs => (false, cs)
  | cs => (false, cs)

/-- A word, written as a signed or an unsigned number. -/
def word? (cs : List Char) : Option UInt32 := do
  let (negative, cs) := signed cs
  let n ← natural? cs
  if negative then
    if n ≤ 0x80000000 then some (UInt32.ofNat (UInt32.size - n)) else none
  else if n < UInt32.size then some (UInt32.ofNat n) else none

/-- A decimal exponent. -/
def decimalExponent? (cs : List Char) : Option Int := do
  let (negative, cs) := signed cs
  let n ← digitsValue? 10 cs
  some (if negative then -n else n)

/-- A floating-point number without sign. -/
def magnitude? (cs : List Char) : Option Float32 := do
  if cs = ['i', 'n', 'f'] then some (Float32.ofBits 0x7f800000)
  else if cs = ['n', 'a', 'n'] then some (Float32.ofBits 0x7fc00000)
  else
    let mantissa := cs.takeWhile fun c => c ≠ 'e' ∧ c ≠ 'E'
    let tail := cs.drop (mantissa.length + 1)
    let exponent ← if mantissa.length < cs.length then decimalExponent? tail else some 0
    let whole := mantissa.takeWhile (· ≠ '.')
    let fraction := mantissa.drop (whole.length + 1)
    if whole.isEmpty then none
    let digits ← digitsValue? 10 (whole ++ fraction)
    let power := exponent - fraction.length
    some (Float32.ofScientific digits (power < 0) power.natAbs)

/-- The bits of a floating-point number. -/
def floatBits? (cs : List Char) : Option UInt32 := do
  let (negative, cs) := signed cs
  let x ← magnitude? cs
  let bits := x.toBits
  some (if negative then bits ||| 0x80000000 else bits)

/-! ## Lines -/

/-- The instructions without a number, by their names. -/
def plainNames : List (String × Line) :=
  [("i32.add", .plain (.binary .add)), ("i32.sub", .plain (.binary .sub)),
   ("i32.div_s", .plain (.binary .divS)), ("i32.div_u", .plain (.binary .divU)),
   ("i32.rem_s", .plain (.binary .remS)), ("i32.rem_u", .plain (.binary .remU)),
   ("i32.eq", .plain (.binary .eq)), ("i32.ne", .plain (.binary .ne)),
   ("i32.gt_u", .plain (.binary .gtU)), ("i32.lt_u", .plain (.binary .ltU)),
   ("i32.load", .plain .load), ("i32.load8_u", .plain .loadByte),
   ("i32.store", .plain .store), ("i32.store8", .plain .storeByte),
   ("memory.size", .plain .memorySize), ("memory.grow", .plain .memoryGrow),
   ("return", .plain .ret), ("drop", .plain .drop), ("nop", .plain .nop),
   ("unreachable", .plain .unreachable), ("f32.div", .plain .floatDiv),
   ("i32.reinterpret_f32", .plain .reinterpret), ("block", .openBlock), ("loop", .openLoop),
   ("if", .openBranch), ("else", .otherwise), ("end", .close)]

/-- The instructions with an index, by their names. -/
def indexedNames : List (String × (Nat → Instr)) :=
  [("local.get", .localGet), ("local.set", .localSet), ("local.tee", .localTee), ("br", .br),
   ("br_if", .brIf), ("call", .call)]

/-- The words of a line. -/
def lineWords (s : String) : List String :=
  (s.splitOn " ").filter (· ≠ "")

/-- The line of a text, if it is an instruction or a mark. -/
def Line.ofText (s : String) : Option Line :=
  match lineWords s with
  | [name] => plainNames.lookup name
  | [name, operand] =>
    if name = "i32.const" then (word? operand.toList).map fun w => .plain (.const w)
    else if name = "f32.const" then (floatBits? operand.toList).map fun w => .plain (.floatConst w)
    else do
      let make ← indexedNames.lookup name
      let n ← natural? operand.toList
      some (.plain (make n))
  | _ => none

/-! ## Nesting -/

/-- What is open around a line: its kind, and the instructions before it in reverse. -/
inductive Opened where
  | block (before : List Instr)
  | loop (before : List Instr)
  | whenTrue (before : List Instr)
  | whenFalse (before whenTrue : List Instr)

/-- Puts the lines into a tree.  `done` holds the instructions of the innermost body in reverse. -/
def nestFrom (opened : List Opened) (done : List Instr) : List Line → Option (List Instr)
  | [] => if opened.isEmpty then some done.reverse else none
  | .plain i :: ls => nestFrom opened (i :: done) ls
  | .openBlock :: ls => nestFrom (.block done :: opened) [] ls
  | .openLoop :: ls => nestFrom (.loop done :: opened) [] ls
  | .openBranch :: ls => nestFrom (.whenTrue done :: opened) [] ls
  | .otherwise :: ls =>
    match opened with
    | .whenTrue before :: outer => nestFrom (.whenFalse before done.reverse :: outer) [] ls
    | _ => none
  | .close :: ls =>
    match opened with
    | [] => none
    | .block before :: outer => nestFrom outer (.block done.reverse :: before) ls
    | .loop before :: outer => nestFrom outer (.loop done.reverse :: before) ls
    | .whenTrue before :: outer => nestFrom outer (.branch done.reverse [] :: before) ls
    | .whenFalse before whenTrue :: outer =>
      nestFrom outer (.branch whenTrue done.reverse :: before) ls

/-- The instructions of a body, if each line is known and each block is closed. -/
def assemble (body : List String) : Option (List Instr) := do
  let ls ← body.mapM Line.ofText
  nestFrom [] [] ls

end ContractHost.Wasm
