import ContractHost.Bridge
import ContractHost.CommandLine.Arguments
import ContractHost.Driver.Basic
import ContractHost.Wasm.Instance

/-!
# Runs from the command line

A run takes its settings from the defaults, a file and the arguments, in this order of precedence
from low to high; loads and links a module with the bridge's functions; and either lists what the
module exports or calls its entry point a number of times on behalf of a transfer.  Every record
that the guest emits is printed on its own, in order, and so are those of a call that fails.
-/

namespace ContractHost.CommandLine

open ContractHost.Wasm (Source)

/-- A driver for WebAssembly modules. -/
abbrev HostDriver := Driver Source Wasm.Module Wasm.Instance

/-- Why a run ended early: its settings cannot be used, or a stage of it failed. -/
inductive Failure where
  | config (e : ConfigError)
  | stage (activity : String) (e : SandboxError)

namespace Failure

/-- What failed. -/
def headline : Failure → String
  | config e => (SandboxError.ofConfig e).message
  | stage activity _ => activity

/-- Why it failed, where that is another matter. -/
def cause? : Failure → Option String
  | config _ => none
  | stage _ e => some e.message

end Failure

/-- What a run prints, and whether it ended early; `timed` says whether calls were made and their
duration is of interest. -/
structure Outcome where
  lines : Array String
  timed : Bool
  failure : Option Failure

/-- A run that printed lines and ended early. -/
def Outcome.failed (lines : Array String) (f : Failure) : Outcome := ⟨lines, false, some f⟩

namespace Options

/-- The module file. -/
def moduleName (o : Options) : String := o.module.getD standardModule

/-- The settings with those that the arguments give in place of others. -/
def override (o : Options) (c : Config) : Config :=
  { c with
    entryPoint := o.entry.getD c.entryPoint
    instancePolicy := if o.freshInstance then .fresh else c.instancePolicy
    fuelLimit := o.fuel.getD c.fuelLimit
    maxMemoryPages := o.maxMemoryPages.getD c.maxMemoryPages }

/-- The settings of the run.  `file` is the content of the file that the arguments name. -/
def settings (o : Options) (file : Option ByteArray) : Except ConfigError Config :=
  match o.config with
  | .none => (o.override .standard).validate
  | some _ =>
    match Config.ofFile file with
    | .error e => .error e
    | .ok c => (o.override c).validate

/-- The reason for the run's calls: a transfer with the same sender inside and outside. -/
def reason (o : Options) : Payload :=
  let sender := match o.sender.getD standardSender with
    | [] => Option.none
    | bytes => some bytes
  .ofTransfer sender ⟨sender, o.amount.getD standardAmount⟩

end Options

/-- The lines for the records of a log. -/
def logLines (log : Log) : Array String := log.records.map Record.line

/-- Calls the entry point and prints the records of every iteration. -/
def callEntry (o : Options) (d : HostDriver) (entry : String) : Outcome :=
  let run := d.runRepeatedWith entry (o.iterations.getD Options.standardIterations)
    (fun lines log => lines ++ logLines log) #[]
  match run.result with
  | .ok () => ⟨run.sink, true, none⟩
  | .error e =>
    let left := (run.driver.currentLog.map logLines).getD #[]
    .failed (run.sink ++ left) (.stage s!"Failed to run '{entry}'" e)

/-- Links the module, makes an instance for the reason, and calls the entry point. -/
def callModule (o : Options) (d : HostDriver) (entry : String) : Outcome :=
  match d.link with
  | (.error e, _) => .failed #[] (.stage "Failed to link imports" e)
  | (.ok (), d) =>
    match d.instantiate o.reason with
    | (.error e, _) => .failed #[] (.stage "Failed to instantiate module" e)
    | (.ok (), d) => callEntry o d entry

/-- The line for an export. -/
def exportLine (e : ExportDecl) : String := s!"{e.name}: {e.type.text}"

/-- Loads the module, and lists its exports or calls its entry point. -/
def withConfig (o : Options) (file : Option Source) (c : Config) : Outcome :=
  match Wasm.engineFor c with
  | .error e => .failed #[] (.stage "Failed to create engine" (.ofConfig e))
  | .ok engine =>
    match (Driver.new engine Bridge.registry c).loadFile file with
    | (.error e, _) => .failed #[] (.stage s!"Failed to load {o.moduleName}" e)
    | (.ok (), d) =>
      if o.listExports then ⟨(d.declared.map exportLine).toArray, false, none⟩
      else callModule o d c.entryPoint

/-- Does what the options ask for, with the contents of the settings file and the module file. -/
def execute (o : Options) (config : Option ByteArray) (file : Option Source) : Outcome :=
  match o.settings config with
  | .error e => .failed #[] (.config e)
  | .ok c => withConfig o file c

/-- The name and version that are printed on request. -/
def versionLine : String := "contract-run 0.1.0"

/-- What is printed where help is asked for. -/
def helpLines : List String :=
  ["Usage: contract-run [OPTIONS] [MODULE]", "",
   "Loads a contract module, binds a transfer reason and times repeated calls of its entry point.",
   "", "Options:",
   "  -e, --entry <ENTRY>            entry point to call",
   "  -n, --iterations <N>           number of calls [default: 1000]",
   "      --fresh-instance           make a new instance for every call",
   "      --fuel <FUEL>              fuel of one call",
   "      --max-memory-pages <N>     greatest memory in pages",
   "      --amount <AMOUNT>          amount of the transfer [default: 100000]",
   "      --sender <BYTES>           sender of the transfer [default: 0,1,2,3]",
   "  -c, --config <FILE>            settings file",
   "      --list-exports             list what the module exports",
   "  -v, --verbose...               print more about the run",
   "  -h, --help                     print help",
   "  -V, --version                  print version"]

end ContractHost.CommandLine
