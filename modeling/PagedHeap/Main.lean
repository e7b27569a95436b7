import PagedHeap.CommandLine

/-!
# The program

Reads the file that a command names, runs the command on it and brings the directory to the state in
which the command left it.
-/

namespace PagedHeap.Program

/-- The path of a file in a directory. -/
def pathIn (dir name : String) : String := dir ++ "/" ++ name

/-- The files of a directory that a command on `name` can touch. -/
def readDirectory (dir name : String) : IO Directory := do
  if FileName.isValid name then
    try
      let bytes ← IO.FS.readBinFile (pathIn dir name)
      return [(name, FileImage.ofBytes bytes.data.toList)]
    catch _ => return []
  else return []

/-- Writes or removes a file of the directory, if a command changed it. -/
def writeDirectory (dir name : String) (before after : Directory) : IO Unit := do
  if before.find? name ≠ after.find? name then
    match after.find? name with
    | some image => IO.FS.writeBinFile (pathIn dir name) ⟨image.bytes.toArray⟩
    | none => IO.FS.removeFile (pathIn dir name)

/-- Runs a command, given by the arguments that follow the directory, and answers its exit code. -/
def runIn (dir : String) (args : List String) : IO UInt32 := do
  let name := args.getD 1 ""
  if 2 ≤ args.length then IO.FS.createDirAll dir
  let before ← readDirectory dir name
  let (outcome, after) := CommandLine.run before args
  writeDirectory dir name before after
  (← IO.getStdout).putStr outcome.out
  (← IO.getStderr).putStr outcome.err
  return UInt32.ofNat outcome.code

end PagedHeap.Program

/-- Runs the command that the arguments describe; the first of them is the directory. -/
def main (args : List String) : IO UInt32 :=
  match args with
  | dir :: rest => PagedHeap.Program.runIn dir rest
  | [] => do
    (← IO.getStderr).putStr PagedHeap.CommandLine.usage
    return 1
