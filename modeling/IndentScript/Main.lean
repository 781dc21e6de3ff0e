import IndentScript.Launch

/-!
The command line: runs the program of the file that is its one argument. The input is read at
the start, and only if the program can ask for it.
-/

namespace IndentScript.CommandLine

def readSystemFile (path : String) : IO (Except FileTree.ReadFault String) := do
  try
    let content ← IO.FS.readBinFile path
    return FileTree.textOfBytes content.toList
  catch failure =>
    match failure with
    | .noFileOrDirectory _ _ _ => return .error (.path ⟨.missing, path⟩)
    | other => throw other

/-- The remaining lines of a stream, without their line ends. -/
partial def remainingLines (stream : IO.FS.Stream) : IO (List (Option String)) := do
  let line ← stream.getLine
  if line.isEmpty then return []
  let rest ← remainingLines stream
  return some (line.dropEndWhile (· = '\n')).toString :: rest

end IndentScript.CommandLine

open IndentScript in
/-- Runs the program of a file. -/
def main (arguments : List String) : IO UInt32 := do
  let source ← match arguments with
    | [path] => CommandLine.readSystemFile path
    | _ => pure (.ok "")
  let input ← match source with
    | .ok text =>
      if Launch.readsInput text then CommandLine.remainingLines (← IO.getStdin) else pure []
    | .error _ => pure []
  let (failure, console) := Launch.launch (fun _ => source) arguments { input := input }
  (← IO.getStdout).putStr console.output.displayed
  match failure with
  | none => return 0
  | some failure =>
    (← IO.getStderr).putStr (Launch.failureText failure)
    return 1
