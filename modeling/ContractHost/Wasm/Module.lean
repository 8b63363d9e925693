import ContractHost.SandboxError
import ContractHost.Wasm.Assembly
import ContractHost.Wasm.Typing

/-!
# Modules

A description becomes a module if it is valid as WebAssembly without vectors and with at most one
memory; `Module.ofSource` then also demands that it exports a memory under the name `memory`,
through which every imported function reads and writes.
-/

namespace ContractHost.Wasm

/-- A function that a module defines, ready to run. -/
structure Function where
  params : Nat
  results : Nat
  locals : Nat
  body : List Instr

/-- A valid module. -/
structure Module where
  description : Description
  functions : Array Function

/-- The name under which a module must export its memory. -/
def memoryExportName : String := "memory"

/-- The largest number of pages of any memory. -/
def addressablePages : Nat := 65536

namespace Description

/-- All value types that the module names. -/
def valueTypes (d : Description) : List ValueType :=
  d.functionTypes.flatMap (fun t => t.params ++ t.results) ++
    d.functions.flatMap FunctionText.locals

/-- Whether a memory may have the extent. -/
def isMemoryExtent (e : Extent) : Bool :=
  e.isOrdered && e.least ≤ addressablePages && e.greatest.all (· ≤ addressablePages)

/-- Whether what is exported exists. -/
def hasExported (d : Description) (e : Export) : Bool :=
  match e.kind with
  | .function => e.index < d.functionTypes.length
  | .memory => e.index < d.allMemories.length
  | .table => e.index < d.allTables.length
  | .global => e.index < d.globalCount

/-- Whether a list of names has none twice. -/
def areDistinct : List String → Bool
  | [] => true
  | n :: ns => !ns.contains n && areDistinct ns

/-- Whether the function to start with exists and neither takes nor gives a value. -/
def isStart (d : Description) (index : Nat) : Bool :=
  d.functionTypes[index]? == some ⟨[], []⟩

/-- Whether the module is valid, its bodies apart. -/
def isValid (d : Description) : Bool :=
  !d.valueTypes.contains .v128 &&
  d.allMemories.length ≤ 1 && d.allMemories.all isMemoryExtent &&
  d.allTables.all Extent.isOrdered &&
  areDistinct (d.exports.map Export.name) && d.exports.all d.hasExported &&
  (d.data.isEmpty || !d.allMemories.isEmpty) &&
  d.start.all d.isStart

/-- What is known where the body of a function stands. -/
def scope (d : Description) (f : FunctionText) : Scope :=
  ⟨d.functionTypes, !d.allMemories.isEmpty, f.type.params ++ f.locals, f.type.results⟩

/-- The function ready to run, if its body is well typed. -/
def compileFunction (d : Description) (f : FunctionText) : Option Function := do
  let body ← assemble f.body
  if isWellTyped (d.scope f) body then
    some ⟨f.type.params.length, f.type.results.length, f.locals.length, body⟩
  else none

/-- The module that is described, if it is valid. -/
def compile (d : Description) : Option Module :=
  if d.isValid then (d.functions.mapM d.compileFunction).map fun fs => ⟨d, fs.toArray⟩
  else none

/-- What a host knows of an export. -/
def declaredExport (d : Description) (e : Export) : DeclaredType :=
  match e.kind with
  | .function =>
    match d.functionTypes[e.index]? with
    | some t => t.declared
    | none => .unsupported ""
  | .memory => .unsupported "memory"
  | .table => .unsupported "table"
  | .global => .unsupported "global"

end Description

namespace Source

/-- The text of a module without parts. -/
def emptyModuleText : ByteArray := "(module)".toUTF8

/-- The binary form of a module without parts. -/
def emptyModuleBinary : ByteArray := ⟨#[0x00, 0x61, 0x73, 0x6d, 0x01, 0x00, 0x00, 0x00]⟩

/-- The description that a file holds.  Of the files in text or binary form only those of the empty
module are read. -/
def description? : Source → Option Description
  | description d => some d
  | bytes b =>
    if b = emptyModuleText || b = emptyModuleBinary then some .empty else none

end Source

namespace Module

/-- The imports in order. -/
def imports (m : Module) : List ImportDecl :=
  m.description.imports.map fun i => ⟨i.space, i.name, i.type.declared⟩

/-- The exports in order. -/
def exports (m : Module) : List ExportDecl :=
  m.description.exports.map fun e => ⟨e.name, m.description.declaredExport e⟩

/-- Whether a memory is exported under the name that hosts rely on. -/
def exportsMemory (m : Module) : Bool :=
  m.description.exports.any fun e => e.name = memoryExportName && e.kind = .memory

/-- The exported function of a name, by its index among all functions. -/
def exportedFunction? (m : Module) (name : String) : Option Nat :=
  (m.description.exports.find? fun e => e.name = name && e.kind = .function).map Export.index

/-- The module in a file, if it is valid and exports its memory. -/
def ofSource (s : Source) : Except SandboxError Module :=
  match s.description?.bind Description.compile with
  | none => .error (.engine "the module is not valid")
  | some m =>
    if m.exportsMemory then .ok m
    else .error (.validation s!"module must export '{memoryExportName}'")

end Module

end ContractHost.Wasm
