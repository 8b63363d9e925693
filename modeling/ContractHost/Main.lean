import ContractHost.CommandLine.Run
import ContractHost.Wasm.DescriptionReader

/-!
# The command line

Reads the files that the arguments name, does what is asked for, and prints what comes of it.
-/

namespace ContractHost

/-- The content of a file, if it can be read. -/
def readFile? (path : String) : IO (Option ByteArray) := do
  try
    return some (← IO.FS.readBinFile path)
  catch _ =>
    return none

/-- Prints a failed run's errors. -/
def reportFailure (f : CommandLine.Failure) : IO Unit := do
  IO.eprintln s!"Error: {f.headline}"
  match f.cause? with
  | some cause => IO.eprintln s!"\nCaused by:\n    {cause}"
  | none => pure ()

/-- Does a run, and gives its exit code. -/
def runOptions (o : CommandLine.Options) : IO UInt32 := do
  let config ← match o.config with
    | some path => readFile? path
    | none => pure none
  let file ← readFile? o.moduleName
  let start ← IO.monoMsNow
  let outcome := CommandLine.execute o config (file.map Wasm.Source.ofFile)
  for line in outcome.lines do
    IO.println line
  match outcome.failure with
  | some f =>
    reportFailure f
    return 1
  | none =>
    if outcome.timed then
      let elapsed := (← IO.monoMsNow) - start
      IO.println s!"duration = {elapsed}ms"
    return 0

end ContractHost

/-- Runs a contract as the arguments ask. -/
def main (arguments : List String) : IO UInt32 := do
  match ContractHost.CommandLine.Request.ofArguments arguments with
  | .error e =>
    IO.eprintln s!"error: {e.message}"
    return 2
  | .ok .version =>
    IO.println ContractHost.CommandLine.versionLine
    return 0
  | .ok .help =>
    for line in ContractHost.CommandLine.helpLines do
      IO.println line
    return 0
  | .ok (.run o) => ContractHost.runOptions o
