import ScriptHost.Cli.Report

/-!
# The program

Reads what a command needs from the system, runs it, and writes what it leaves behind. Dumps that
cannot be written are skipped.
-/

namespace ScriptHost.Cli

/-- The environment variables that the options are read from. -/
def optionVariables : List String :=
  [Options.getThresholdVariable, Options.callThresholdVariable, Options.dumpDirVariable]

def readFault : IO.Error → Files.ReadFault
  | .noFileOrDirectory .. => .missing
  | e => .other (toString e)

def readFile (path : String) : IO (Except Files.ReadFault (List UInt8)) := do
  try return .ok (← IO.FS.readBinFile path).toList
  catch e => return .error (readFault e)

def writeDump (dir : Option String) (dump : String × List UInt8) : IO Unit := do
  if let some path := Dump.pathFor dir dump.1 then
    try
      let parent := Dump.parentOf path.toList
      unless parent.isEmpty do IO.FS.createDirAll (String.ofList parent)
      IO.FS.writeBinFile path ⟨dump.2.toArray⟩
    catch _ => pure ()

end ScriptHost.Cli

open ScriptHost ScriptHost.Cli in
def main (args : List String) : IO UInt32 := do
  let found ← optionVariables.mapM fun name => do return (name, ← IO.getEnv name)
  let content ← match (Command.ofArguments? args).bind Command.configPath? with
    | some path => readFile path
    | none => pure (.error .missing)
  let outcome := Cli.run args (fun name => (found.lookup name).join) content
  outcome.dumps.forM (writeDump outcome.dumpDir)
  IO.print outcome.stdout
  IO.eprint outcome.stderr
  return outcome.code.toUInt32
