import Stencil.Command.Program

/-!
The program on a machine: its files are read into a tree, the program runs on that, and what it
has changed is written back.
-/

namespace Stencil.Main

/-- What commands work on here: files, and what judges remember. -/
structure Desk where
  tree : Files.Tree
  own : Judgment.Cache := { ttl := Judgment.Cache.standardTtl }
  shared : Judgment.Cache := { ttl := Judgment.Cache.standardTtl }
  spare : Judgment.Cache := { ttl := Judgment.Cache.standardTtl }

/-- A clock that stands still: a run is over before a judgment is too old. -/
def clock (_ : Desk) : Double := .zero false

/-- There is no connection here, so context references stay without content. -/
def noStore (_ : StoreSettings) : Context.Resolver Desk :=
  ⟨fun paths => pure (.ok (Context.unavailable paths "no connection"))⟩

def host (workingDirectory home : Files.Path) (environment : List (String × String)) :
    Command.Host Desk where
  disk := ⟨Desk.tree, fun t d => { d with tree := t }⟩
  workingDirectory
  home
  environment
  store := noStore
  memories :=
    { own := ⟨Desk.own, fun c d => { d with own := c }, clock⟩
      shared := ⟨Desk.shared, fun c d => { d with shared := c }, clock⟩ }
  spare := ⟨Desk.spare, fun c d => { d with spare := c }, clock⟩
  time := "1970-01-01T00:00:00+00:00"

def pathOf (s : String) : Files.Path := Files.Path.resolve [] s

/-- The files of a tree that are not as they were. -/
def changed (before after : Files.Tree) : List Files.Entry :=
  after.entries.filter fun e => (before.find? e.path).map (·.content) != some e.content

/-- The names of the variables of the environment that a run may ask for. -/
def namesToRead (tree : Files.Tree) (workingDirectory : Files.Path) : List String :=
  let path := Files.Path.joined workingDirectory.text Command.environmentFile
  let more := match tree.readAt path with
    | .ok s => Settings.Env.names (Settings.Env.lines s)
    | .error _ => []
  (Command.modelVariable :: Settings.variableNames ++ more).eraseDups

/-- The paths that an argument may be or have behind an equals sign. -/
def pathsIn (arg : String) : List String :=
  let given := (Command.splitEquals arg.toList).2
  arg :: (given.map String.ofList).toList

/-- Put a file into a tree, if there is one. -/
def addFile (t : Files.Tree) (path : String) : IO Files.Tree := do
  try
    let bytes ← IO.FS.readBinFile ((← IO.currentDir) / path)
    return t.write (pathOf path) bytes.toList
  catch _ => return t

/-- Put the files below a directory into a tree, but for directories that are never searched. -/
partial def addBelow (t : Files.Tree) (directory : String) : IO Files.Tree := do
  let entries ← try ((← IO.currentDir) / directory).readDir catch _ => pure #[]
  let mut t := { t with directories := t.directories ++ [pathOf directory] }
  for e in entries do
    let path := directory ++ "/" ++ e.fileName
    if ← e.path.isDir then
      if !Command.unsearched.contains e.fileName then t ← addBelow t path
    else t ← addFile t path
  return t

/-- The files below a directory, and those that paths name. -/
def readTree (directory : String) (paths : List String) : IO Files.Tree := do
  let here := pathOf directory
  let mut t ← addBelow { entries := [], here } directory
  for p in paths do
    let q := Files.Path.resolve here p
    if !t.isFile q then t ← addFile t q.text
  return t

def writeFile (e : Files.Entry) : IO Unit := do
  let here ← IO.currentDir
  IO.FS.createDirAll (here / (Files.Path.parent e.path).text)
  IO.FS.writeBinFile (here / e.path.text) ⟨e.content.toArray⟩

def readVariables (names : List String) : IO (List (String × String)) :=
  names.filterMapM fun n => do return (← IO.getEnv n).map (n, ·)

end Stencil.Main

open Stencil in
/-- Run the program with the arguments of the command line. -/
def main (args : List String) : IO UInt32 := do
  let directory := (← IO.currentDir).toString
  let here := Main.pathOf directory
  let home := Main.pathOf ((← IO.getEnv "HOME").getD "/")
  let userFile := Files.Path.joined home.text Settings.userFile
  let tree ← Main.readTree directory (userFile :: args.flatMap Main.pathsIn)
  let environment ← Main.readVariables (Main.namesToRead tree here)
  let (ending, desk) := (Command.run (Main.host here home environment) args).run { tree }
  (Main.changed tree desk.tree).forM Main.writeFile
  IO.print ending.screen.out
  (← IO.getStdout).flush
  IO.eprint ending.screen.err
  if let some f := ending.failure then IO.eprintln (f.kind ++ ": " ++ f.message)
  return ending.exitCode.toUInt32
