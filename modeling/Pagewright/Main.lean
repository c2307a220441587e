import Pagewright.Server.Options
import Pagewright.Server.Service

/-!
The program: answers requests from standard input, one a line as a method and a target, with the
pages of the configured directory.
-/
open Pagewright Pagewright.Server

def variableNames : List String :=
  ["COMPONENTS", "TEMPLATE_DIR", "LISTEN_HTTP", "LISTEN_LIVERELOAD", "LIVERELOAD", "CONTEXT_REUSE"]

def readEnvironment : IO Environment := do
  let values ← variableNames.filterMapM fun name => do
    return (← IO.getEnv name).map fun value => (name, Bytes.ofText value)
  return ⟨values⟩

/-- The files at and below a location of the working directory. -/
partial def filesBelow (place : Location) : IO (List (String × Bytes)) := do
  let here := place.foldl (fun path name => path / name) (← IO.currentDir)
  if ← here.isDir then
    let below ← (← here.readDir).toList.mapM fun child => filesBelow (place ++ [child.fileName])
    return below.flatten
  else if ← here.pathExists then
    return [("/".intercalate place, (← IO.FS.readBinFile here).data.toList)]
  else return []

def readFiles (c : Config) : IO Files := do
  let paths := c.templateDir :: c.components.map (·.path)
  return Files.ofList (← paths.mapM fun path => filesBelow (Files.location path)).flatten

def configure (args : List String) : IO Config := do
  let options ← IO.ofExcept ((Options.empty.parse args).mapError (·.message))
  let config ← IO.ofExcept ((Config.ofEnvironment (← readEnvironment)).mapError (·.message))
  IO.ofExcept ((options.applyTo config).mapError (·.message))

/-- Answers requests until there are no more. -/
partial def serve (c : Config) (s : State) : IO Unit := do
  let line ← (← IO.getStdin).getLine
  match (line.trimAscii.toString.splitOn " ").filter (!·.isEmpty) with
  | [method, target] =>
    let files ← readFiles c
    let app := Application.ofConfig c files none
    let (response, s) := (app.respond files "stdin" ⟨method, target⟩).run (.ofPool s.pool)
    for record in s.log do IO.eprintln record.line
    IO.println (Decimal.intText response.status.code)
    for (name, value) in response.headers do IO.println (name ++ ": " ++ value)
    IO.println ""
    IO.println response.body
    serve c s
  | _ => unless line.isEmpty do serve c s

def main (args : List String) : IO Unit := do
  let c ← configure args
  for record in c.registryLog (← readFiles c) do IO.eprintln record.line
  serve c (.ofPool (.new c.contextReuse))
