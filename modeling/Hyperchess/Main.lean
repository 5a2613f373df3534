import Hyperchess.CommandLine

/-!
# The program

Reads the files that the arguments call for, carries the arguments out, writes what has changed, and shows the outcome.
-/

namespace Hyperchess

/-- The files and directories, with those at the given paths that exist. -/
def loadFiles (fs : Files) (paths : List FilePath) : IO Files :=
  paths.foldlM (fun fs p => do
    let at_ := p.collapsed
    try
      let bytes ← IO.FS.readBinFile p.text.string
      return ⟨Files.assign fs.contents at_ bytes, fs.directories ++ at_.above⟩
    catch _ =>
      try
        let there ← (← IO.FS.realPath p.text.string).isDir
        return if there then { fs with directories := fs.directories ++ at_ :: at_.above } else fs
      catch _ => return fs) fs

/-- The line of a log for an entry. -/
def Entry.line (e : Entry) : String :=
  e.source.string ++ " - " ++ e.level.name ++ " - " ++ e.message.string ++ "\n"

/-- Writes the files that a run has added, and adds to its log files. -/
def storeFiles (before : Files) (o : CommandLine.Outcome) : IO Unit := do
  for dir in o.files.directories do
    IO.FS.createDirAll dir.text.string
  for (p, bytes) in o.files.contents do
    if o.logging.isLogFile p then
      let log ← IO.FS.Handle.mk p.text.string .append
      log.putStr (String.join ((o.logging.fileEntries p o.journal).map Entry.line))
    else if !before.isFile p then
      IO.FS.writeBinFile p.text.string bytes

end Hyperchess

open Hyperchess in
/-- Runs the command that the arguments stand for, and leaves the files, the output and the exit code that it has. -/
def main (args : List String) : IO UInt32 := do
  let args := args.map Text.ofString
  let host := CommandLine.Host.unlimited
  let known ← loadFiles {} (CommandLine.lookedAt host {} args)
  let files ← loadFiles known (CommandLine.lookedAt host known args)
  let o := CommandLine.run host files args
  storeFiles files o
  for line in o.lines do
    IO.println line.string
  for e in o.console do
    IO.print e.line
  for shown in o.shown do
    IO.print shown.render.string
  match o.ending with
  | .exit code => return code.toUInt32
  | .misuse =>
    IO.eprintln "Usage: hika [--debug] [--config-dir DIR] [--version] (show | moves | check MOVE | info) [OPTIONS]"
    return 2
  | .crash fault =>
    IO.eprintln ((fault.text?.map Text.string).getD (repr fault).pretty)
    return 1
