import ContractHost.Import.Handler
import ContractHost.Import.Signature
import ContractHost.Text.Quoted

/-!
# The import registry

A finite map from names (a namespace and a name in it) to host functions.  A later registration
replaces an earlier one of the same name.  `Registry.link` resolves the imports of a module one by
one and stops at the first that is not registered, is no function, or has another signature.
-/

namespace ContractHost

/-- A host function under its name. -/
structure Binding where
  space : String
  name : String
  signature : Signature
  handler : Handler

/-- The name that a binding is looked up by. -/
def Binding.key (b : Binding) : String × String := (b.space, b.name)

/-- Why an import cannot be linked. -/
inductive LinkError where
  | unresolved (space name : String)
  | signatureMismatch (space name : String) (declared : String) (provided : Signature)
  | notAFunction (space name : String) (declared : String)
  deriving DecidableEq, Repr

/-- The text of the error. -/
def LinkError.message : LinkError → String
  | unresolved space name => s!"unresolved import {space}::{name}"
  | signatureMismatch space name declared provided =>
    s!"import {space}::{name} declared as {declared}, host provides {provided.text}"
  | notAFunction space name declared =>
    s!"import {space}::{name} has unsupported type {declared}"

/-- Host functions under pairwise different names. -/
structure Registry where
  bindings : List Binding
  keys_nodup : (bindings.map Binding.key).Nodup

namespace Registry

/-- No host functions. -/
def empty : Registry := ⟨[], List.nodup_nil⟩

/-- The number of names that have a host function. -/
def size (r : Registry) : Nat := r.bindings.length

/-- The bindings under other names than `key`. -/
def others (r : Registry) (key : String × String) : List Binding :=
  r.bindings.filter (·.key != key)

/-- Puts a host function under its name, in place of any earlier one. -/
def register (r : Registry) (b : Binding) : Registry where
  bindings := b :: r.others b.key
  keys_nodup := by
    simp only [List.map_cons, List.nodup_cons, List.mem_map, not_exists, not_and]
    refine ⟨fun c hc => ?_, ?_⟩
    · have := (List.mem_filter.1 hc).2
      simpa using this
    · exact r.keys_nodup.sublist ((List.filter_sublist).map Binding.key)

/-- The host function under a name. -/
def resolve? (r : Registry) (space name : String) : Option Binding :=
  r.bindings.find? (·.key == (space, name))

/-- The host function under a name, or the error that says which name has none. -/
def resolve (r : Registry) (space name : String) : Except LinkError Binding :=
  match r.resolve? space name with
  | some b => .ok b
  | none => .error (.unresolved space name)

/-- The host function for one declared import. -/
def linkOne (r : Registry) (decl : ImportDecl) : Except LinkError Binding :=
  match r.resolve? decl.space decl.name with
  | none => .error (.unresolved decl.space decl.name)
  | some b =>
    match decl.type with
    | .function s =>
      if s = b.signature then .ok b
      else .error (.signatureMismatch decl.space decl.name s.text b.signature)
    | .unsupported d => .error (.notAFunction decl.space decl.name d)

/-- The host functions for declared imports, in order, or the error of the first that has none. -/
def link (r : Registry) (imports : List ImportDecl) : Except LinkError (List Binding) :=
  imports.mapM r.linkOne

/-- The registered names in the order of their joined text. -/
def names (r : Registry) : List String :=
  (r.bindings.map fun b => b.space ++ "::" ++ b.name).mergeSort (· ≤ ·)

/-- The registry for a reader: its names, quoted and in order. -/
def description (r : Registry) : String :=
  "ImportRegistry \x7b bindings: [" ++ ", ".intercalate (r.names.map Text.quoted) ++ "] \x7d"

end Registry

/-- The binding for a reader: all of it but the handler. -/
def Binding.description (b : Binding) : String :=
  "ImportBinding \x7b namespace: " ++ Text.quoted b.space ++ ", name: " ++ Text.quoted b.name ++
    ", signature: Signature \x7b params: " ++ toString b.signature.params ++ ", results: " ++
    toString b.signature.results ++ " \x7d, .. \x7d"

end ContractHost
