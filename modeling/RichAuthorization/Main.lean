import RichAuthorization.Command.Run
import RichAuthorization.Json.Printer

/-!
The command line of the tool: its arguments, the environment and one file go in, and the output, the
error line and the status come out.
-/

namespace RichAuthorization.Command

def readVariables : IO (NameMap String) := do
  let text ← try IO.FS.readFile "/proc/self/environ" catch _ => pure ""
  let pairs := (text.splitOn "\x00").filterMap fun entry =>
    match entry.splitOn "=" with
    | name :: first :: rest => some (name, "=".intercalate (first :: rest))
    | _ => none
  pure (NameMap.ofList pairs)

def readConfig (args : List String) : IO (Option String) := do
  match readArguments args with
  | .ok { config := some path, .. } =>
    try pure (some (← IO.FS.readFile path)) catch _ => pure none
  | _ => pure none

def usageLine : String :=
  "Usage: rar-tool [--config FILE] [--tenant NAME] [--organization ID] "
    ++ "<validate|introspect|processors|public-client> [OPTIONS]"

def Report.write : Report → IO Unit
  | .printed output => IO.println output.indented
  | .failed message => IO.eprintln ("Error: " ++ message)
  | .halted .shown => IO.println usageLine
  | .halted .usage => IO.eprintln usageLine

end RichAuthorization.Command

def main (args : List String) : IO UInt32 := do
  let file ← RichAuthorization.Command.readConfig args
  let environment ← RichAuthorization.Command.readVariables
  let report := RichAuthorization.Command.run ⟨fun _ => file, environment⟩ args
  report.write
  pure (UInt32.ofNat report.status)
