import ContractHost.Bytes
import ContractHost.Wasm.Types

/-!
# Module descriptions

A module as its author wrote it: what it imports, defines and exports, with each body as lines of
text, one instruction a line.  Nothing is checked here.
-/

namespace ContractHost.Wasm

/-- What an import has to be. -/
inductive ImportType where
  | function (type : FunctionType)
  | memory (extent : Extent)
  | table (extent : Extent)
  | global
  deriving DecidableEq, Repr

/-- What a host knows of an import of the type. -/
def ImportType.declared : ImportType → DeclaredType
  | function t => t.declared
  | memory _ => .unsupported "memory"
  | table _ => .unsupported "table"
  | global => .unsupported "global"

/-- Something that the module asks of its host. -/
structure Import where
  space : String
  name : String
  type : ImportType
  deriving DecidableEq, Repr

/-- A function that the module defines. -/
structure FunctionText where
  type : FunctionType
  locals : List ValueType
  body : List String
  deriving DecidableEq, Repr

/-- The kinds of things that a module can export. -/
inductive ExportKind where
  | function
  | memory
  | table
  | global
  deriving DecidableEq, Repr

/-- Something that the module offers: a thing of its kind, by index. -/
structure Export where
  name : String
  kind : ExportKind
  index : Nat
  deriving DecidableEq, Repr

/-- Bytes that are put into the memory of a new instance. -/
structure DataSegment where
  offset : UInt32
  bytes : ByteArray
  deriving DecidableEq

/-- A module in its author's form. -/
structure Description where
  imports : List Import
  memories : List Extent
  tables : List Extent
  globals : List Int32
  functions : List FunctionText
  exports : List Export
  data : List DataSegment
  start : Option Nat
  deriving DecidableEq

namespace Description

/-- A module without parts. -/
def empty : Description := ⟨[], [], [], [], [], [], [], none⟩

/-- The types of the imported functions in order. -/
def importedFunctions (d : Description) : List FunctionType :=
  d.imports.filterMap fun i => match i.type with
    | .function t => some t
    | _ => none

/-- The types of all functions: the imported ones come first. -/
def functionTypes (d : Description) : List FunctionType :=
  d.importedFunctions ++ d.functions.map FunctionText.type

/-- The extents of all memories: the imported ones come first. -/
def allMemories (d : Description) : List Extent :=
  (d.imports.filterMap fun i => match i.type with
    | .memory e => some e
    | _ => none) ++ d.memories

/-- The extents of all tables: the imported ones come first. -/
def allTables (d : Description) : List Extent :=
  (d.imports.filterMap fun i => match i.type with
    | .table e => some e
    | _ => none) ++ d.tables

/-- The number of globals, imported ones included. -/
def globalCount (d : Description) : Nat :=
  (d.imports.filter (·.type = .global)).length + d.globals.length

end Description

/-- The content of a module file: a description, or bytes that are none. -/
inductive Source where
  | description (d : Description)
  | bytes (b : ByteArray)
  deriving DecidableEq

end ContractHost.Wasm
