import Enclosure.Tool.CommandLine

/-!
# The program

Loads the files below the working directory and the standard input, runs the command on them, and
prints and writes what comes of it. No other program is started, so git answers nothing here: a diff
has to be given as a file.
-/

namespace Enclosure

/-- What is said about git, which cannot be run. -/
def noGit : Git := fun _ =>
  .error ⟨"exec: \"git\": executable file not found in $PATH", []⟩

/-- The files and directories at and below an entry of a directory. What git keeps for itself is
left out. -/
partial def loadEntry (above : List Text) (entry : IO.FS.DirEntry) :
    IO (List (List Text × Option Text)) := do
  let elements := above ++ [Text.ofString entry.fileName]
  if ← entry.path.isDir then
    if entry.fileName == ".git" then return [(elements, none)]
    let children ← entry.path.readDir
    let below ← children.toList.mapM (loadEntry elements)
    return (elements, none) :: below.flatten
  else
    let content ← IO.FS.readBinFile entry.path
    return [(elements, some content.data.toList)]

/-- The files and directories below the working directory. -/
def loadTree : IO FileTree := do
  let directory ← IO.currentDir
  let home := Path.destination [] (Text.ofString directory.toString)
  let entries ← directory.readDir
  return ⟨home, (← entries.toList.mapM (loadEntry home)).flatten⟩

/-- The rest of a stream. -/
partial def readAll (stream : IO.FS.Stream) (acc : ByteArray) : IO ByteArray := do
  let chunk ← stream.read 65536
  if chunk.isEmpty then return acc else readAll stream (acc ++ chunk)

/-- The standard input, unless a person sits at it. -/
def loadInput : IO (Option Text) := do
  let stdin ← IO.getStdin
  if ← stdin.isTty then return none
  return some (← readAll stdin ByteArray.empty).data.toList

/-- Prints a text. -/
def printText (stream : IO.FS.Stream) (t : Text) : IO Unit := do
  stream.write ⟨t.toArray⟩
  stream.flush

/-- Writes the files of a tree that are not in another one. -/
def saveChanges (before after : FileTree) : IO Unit := do
  for (elements, content) in after.entries do
    match content with
    | some c =>
      if before.content? elements != some c then
        let names := elements.map Text.toDisplay
        IO.FS.createDirAll ("/" ++ "/".intercalate names.dropLast)
        IO.FS.writeBinFile ("/" ++ "/".intercalate names) ⟨c.toArray⟩
    | none => pure ()

end Enclosure

/-- Runs the command with the arguments given. -/
def main (arguments : List String) : IO UInt32 := do
  let tree ← Enclosure.loadTree
  let input ← Enclosure.loadInput
  let outcome := Enclosure.runCommand ⟨tree, input, Enclosure.noGit⟩
    (arguments.map Enclosure.Text.ofString)
  Enclosure.saveChanges tree outcome.tree
  Enclosure.printText (← IO.getStdout) outcome.output
  Enclosure.printText (← IO.getStderr) outcome.reports
  return outcome.exit.toUInt32
