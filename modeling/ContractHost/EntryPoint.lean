import ContractHost.SandboxError

/-!
# Entry points

A guest is called through an exported function without parameters and results.  Exports are
searched in order, so the first of a name counts.
-/

namespace ContractHost

/-- The type of an entry point. -/
def entrySignature : Signature := ⟨0, 0⟩

/-- Accepts the name of an exported function that can be an entry point. -/
def checkEntryPoint (declared : List ExportDecl) (name : String) : Except SandboxError Unit :=
  match declared.find? (·.name == name) with
  | none => .error (.exportNotFound name)
  | some found =>
    if found.type = .function entrySignature then .ok ()
    else .error (.entryPointSignature name found.type.text)

end ContractHost
