import ContractHost.Json.Access
import ContractHost.Wasm.Description

/-!
# Reading module descriptions

A module description is a JSON object with a member for each part of the module; parts that are
left out are empty.  A file that holds no such object is kept as its bytes.
-/

namespace ContractHost.Wasm

/-- The value types by their names. -/
def valueTypeNames : List (String × ValueType) :=
  [("i32", .i32), ("i64", .i64), ("f32", .f32), ("f64", .f64), ("v128", .v128),
   ("funcref", .funcref), ("externref", .externref)]

/-- A value type. -/
def ValueType.ofJson? (v : Json.Value) : Option ValueType :=
  v.text?.bind fun name => valueTypeNames.lookup name

/-- A function type: parameters and results. -/
def FunctionType.ofJson? (v : Json.Value) : Option FunctionType := do
  match ← v.array? with
  | [params, results] =>
    let params ← (← params.array?).mapM ValueType.ofJson?
    let results ← (← results.array?).mapM ValueType.ofJson?
    some ⟨params, results⟩
  | _ => none

/-- An extent: the least size, and perhaps the greatest. -/
def Extent.ofJson? (v : Json.Value) : Option Extent := do
  match ← v.array? with
  | [least] => some ⟨← least.natural?, none⟩
  | [least, .null] => some ⟨← least.natural?, none⟩
  | [least, greatest] => some ⟨← least.natural?, some (← greatest.natural?)⟩
  | _ => none

/-- The type of an import. -/
def ImportType.ofJson? (v : Json.Value) : Option ImportType :=
  match v.get? "func", v.get? "memory", v.get? "table", v.get? "global" with
  | some t, _, _, _ => (FunctionType.ofJson? t).map .function
  | none, some e, _, _ => (Extent.ofJson? e).map .memory
  | none, none, some e, _ => (Extent.ofJson? e).map .table
  | none, none, none, some _ => some .global
  | none, none, none, none => none

/-- An import. -/
def Import.ofJson? (v : Json.Value) : Option Import := do
  let space ← (← v.get? "ns").text?
  let name ← (← v.get? "name").text?
  let type ← ImportType.ofJson? (← v.get? "type")
  some ⟨space, name, type⟩

/-- The initial value of a global. -/
def globalOfJson? (v : Json.Value) : Option Int32 := do
  some (Int32.ofInt (← (← v.get? "init").integer?))

/-- A function. -/
def FunctionText.ofJson? (v : Json.Value) : Option FunctionText := do
  let params ← v.listOf? "params" ValueType.ofJson?
  let results ← v.listOf? "results" ValueType.ofJson?
  let locals ← v.listOf? "locals" ValueType.ofJson?
  let body ← v.listOf? "body" Json.Value.text?
  some ⟨⟨params, results⟩, locals, body⟩

/-- The kinds of exports by their names. -/
def exportKindNames : List (String × ExportKind) :=
  [("func", .function), ("memory", .memory), ("table", .table), ("global", .global)]

/-- An export. -/
def Export.ofJson? (v : Json.Value) : Option Export := do
  let name ← (← v.get? "name").text?
  let kind ← exportKindNames.lookup (← (← v.get? "kind").text?)
  let index ← (← v.get? "index").natural?
  some ⟨name, kind, index⟩

/-- A data segment. -/
def DataSegment.ofJson? (v : Json.Value) : Option DataSegment := do
  let offset ← (← v.get? "offset").integer?
  let bytes ← v.bytes?
  some ⟨(Int32.ofInt offset).toUInt32, bytes⟩

/-- A module description. -/
def Description.ofJson? (v : Json.Value) : Option Description := do
  let imports ← v.listOf? "imports" Import.ofJson?
  let memories ← v.listOf? "memories" Extent.ofJson?
  let tables ← v.listOf? "tables" Extent.ofJson?
  let globals ← v.listOf? "globals" globalOfJson?
  let functions ← v.listOf? "funcs" FunctionText.ofJson?
  let declared ← v.listOf? "exports" Export.ofJson?
  let data ← v.listOf? "data" DataSegment.ofJson?
  some ⟨imports, memories, tables, globals, functions, declared, data,
    (v.get? "start").bind Json.Value.natural?⟩

/-- The description in a file, or the file's bytes if it holds none. -/
def Source.ofFile (content : ByteArray) : Source :=
  match Json.Value.ofBytes content.data.toList with
  | .ok (.object members) =>
    match Description.ofJson? (.object members) with
    | some d => .description d
    | none => .bytes content
  | _ => .bytes content

end ContractHost.Wasm
