import ReversePolish.CommandLine.Run

/-!
The command line program: it reads the files and the input that a run asks for and writes what the
run comes to.
-/

namespace ReversePolish.CommandLine

/-- Read a file. -/
def readFile (name : String) : IO (Except FileError String) := do
  if let some problem := nameProblem? name then
    return .error ⟨name, problem⟩
  if (components name).any (componentLimit < ·.utf8ByteSize) then
    return .error ⟨name, .nameTooLong⟩
  try
    return .ok (← IO.FS.readFile name)
  catch
    | .noFileOrDirectory .. => return .error ⟨name, .notFound⟩
    -- Only an error of opening names the file; directories can be opened, but not read.
    | .inappropriateType (some _) _ _ => return .error ⟨name, .notDirectory⟩
    | .inappropriateType none _ _ => return .error ⟨name, .isDirectory⟩
    | e => throw e

/-- The environment with the files that it wants. -/
def fetchFiles (env : Environment) (o : Options) : IO Environment := do
  let found ← (wantedFiles env o).mapM (fun name => return (name, ← readFile name))
  return { env with read := fun name => (found.lookup name).getD (.error ⟨name, .notFound⟩) }

/-- Write output. -/
def writeOutput (o : Output) : IO Unit := do
  (← IO.getStderr).putStr o.err
  let out ← IO.getStdout
  out.putStr o.out
  out.flush

/-- Ask for lines and answer each, after those that have been entered already. -/
partial def converse (p : Prompt) (entered : List Text.Fragment) : IO Prompt := do
  writeOutput ⟨promptText, ""⟩
  let lines ← match entered with
    | [] => pure (Prompt.lines (← (← IO.getStdin).getLine))
    | lines => pure lines
  match lines with
  | [] => return p
  | line :: rest =>
    let (p, output, leave) := p.answer line
    writeOutput output
    if leave then return p else converse p rest

/-- Write the history file, if there is a place for it. -/
def saveHistory (env : Environment) (text : String) : IO Unit := do
  match env.inHome? historyName with
  | none => return
  | some path => try IO.FS.writeFile path text catch _ => return

/-- What the program finds around it. -/
def findEnvironment (arguments : List String) : IO Environment := do
  let env : Environment :=
    { input := ""
      terminal := ← (← IO.getStdin).isTty
      colours := (← IO.getEnv "NO_COLOR").getD "" = "" && (← IO.getEnv "TERM") ≠ some "dumb" &&
        (← (← IO.getStdout).isTty)
      home := (← IO.getEnv "HOME").filter (· ≠ "")
      read := fun name => .error ⟨name, .notFound⟩ }
  match Options.parse arguments with
  | .error _ => return env
  | .ok o =>
    let env ← fetchFiles (← fetchFiles env o) o
    let batch := o.file = "-" || (o.file = "" && o.expressions.isEmpty && !env.terminal)
    if batch && !o.help then
      return { env with input := ← (← IO.getStdin).readToEnd }
    return env

end ReversePolish.CommandLine

open ReversePolish ReversePolish.CommandLine in
/-- Run the program on the arguments of the command line. -/
def main (arguments : List String) : IO UInt32 := do
  let env ← findEnvironment arguments
  match start env arguments with
  | .finished r =>
    writeOutput r.output
    return r.code.toUInt32
  | .ready s .prompt =>
    writeOutput ⟨s.palette.notice welcome, ""⟩
    let p ← converse ⟨s, loadHistory env⟩ []
    saveHistory env p.history.render
    return 0
  | .ready s source =>
    let r := evaluateSource env s source
    writeOutput r.output
    return r.code.toUInt32
