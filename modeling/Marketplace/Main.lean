import Marketplace.Server.Running
import Marketplace.Server.Startup
set_option autoImplicit false

/-!
# The server

Starts the server with the variables of its surroundings and of a file `.env`, and answers requests.
They come in as JSON, one per line, each with the time of its arrival; the answers go out in the
same way.  The log is written to standard error.
-/

open Marketplace

/-- The variables of the surroundings. -/
def environment : IO Variables := do
  let found ← Settings.variableNames.mapM fun name => do
    return (← IO.getEnv name).map fun value => (name, value)
  return found.filterMap fun v => v

/-- The variables of the surroundings and of the file beside the server. -/
def allVariables : IO Variables := do
  let vars ← environment
  try
    return VariableFile.load vars (← IO.FS.readFile ".env")
  catch _ =>
    return vars

/-- Answers the requests that come in, one after the other. -/
partial def answerAll (input output : IO.FS.Stream) (secret : String) (s : Shift World) :
    IO Unit := do
  let line ← input.getLine
  if line.isEmpty then return ()
  let (answer, s) : HttpResponse × Shift World := match Arrival.decoder.run line with
    | .error f => (⟨400, .text f.message⟩, s)
    | .ok a => (s.receive World.site secret a).getD (.bare 503, s)
  output.putStrLn answer.toJson.render
  output.flush
  answerAll input output secret s

/-- Runs the server. -/
def main : IO UInt32 := do
  let startup := Startup.run (← allVariables)
  let showLog (l : Log) (known : Nat) : IO Unit :=
    (l.lines.drop known).forM fun l => IO.eprintln l.text
  showLog startup.log 0
  match startup.outcome with
  | .error f =>
    IO.eprint f.report
    return 1
  | .ok settings =>
    let server := settings.server (settings.world ⟨0, 0⟩)
    answerAll (← IO.getStdin) (← IO.getStdout) settings.secret server
    showLog startup.stop startup.log.lines.length
    return 0
