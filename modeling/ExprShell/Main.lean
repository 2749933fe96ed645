/-
The program. It takes a picture of the files below the working directory and of the variables
that matter, runs the command line on that machine, and writes what the machine wrote.
-/
import ExprShell.Cli

namespace ExprShell.Program

/-- Variables that the machine is given. -/
def variableNames : List String := ["PATH", "HOME", "EXPRSH_MAX_DEPTH"]

/-- Levels of directories that the picture reaches down to. -/
def maxLevels : Nat := 6

/-- Adds a file. It is taken for a program if it names an interpreter. -/
def addFile (files : Machine.Files) (place : Machine.Location) (content : ByteArray) :
    Machine.Files :=
  let start := Text.octetsOfBytes (content.extract 0 256)
  files.add place (.file content (Machine.interpreter? start).isSome)

/-- Adds the files below a directory. -/
def picture (place : Machine.Location) : Nat → Machine.Files → IO Machine.Files
  | 0, files => return files
  | levels + 1, files => do
    let directory ← IO.FS.realPath (Machine.Files.path place)
    let mut files := files
    for entry in ← directory.readDir do
      let here := place ++ [entry.fileName]
      if ← entry.path.isDir then
        files ← picture here levels (files.add here .directory)
      else
        files := addFile files here (← IO.FS.readBinFile entry.path)
    return files

/-- The machine that the program finds itself on. -/
def machine : IO Machine := do
  let directory := (Machine.Files.names (← IO.currentDir).toString).filter (!·.isEmpty)
  let files := Machine.Files.add Machine.fresh.files directory .directory
  let mut entries := []
  for name in variableNames do
    if let some value ← IO.getEnv name then
      entries := entries ++ [(name, value)]
  return { Machine.fresh with files := ← picture directory maxLevels files, directory, entries }

/-- Writes what the machine wrote, and gives the machine with its outputs empty. -/
def flush (m : Machine) : IO Machine := do
  let output ← IO.getStdout
  output.write m.output
  output.flush
  let errors ← IO.getStderr
  errors.write m.errors
  errors.flush
  return { m with output := .empty, errors := .empty }

/-- All of the input. -/
partial def readAll (input : IO.FS.Stream) (read : ByteArray) : IO ByteArray := do
  let chunk ← input.read 65536
  if chunk.isEmpty then return read else readAll input (read ++ chunk)

/-- The interactive loop, a line at a time. -/
partial def interact (setup : Setup Machine) (input : IO.FS.Stream) (r : Repl Machine) :
    IO UInt32 := do
  let asked := r.ask setup
  let m ← flush asked.state.host
  let r := { asked with state := { asked.state with host := m } }
  let line ← input.getLine
  match Text.lines line.toUTF8 with
  | some text :: _ =>
    match r.feed setup text with
    | .more r => interact setup input r
    | .quit s => do
      let _ ← flush (s.tell setup.host "\n").host
      return 0
    | .exit status s => do
      let _ ← flush s.host
      return UInt32.ofNat (exitStatus status)
  | _ => do
    let _ ← flush (r.state.tell setup.host "\n").host
    return 0

end ExprShell.Program

open ExprShell in
def main (args : List String) : IO UInt32 := do
  let m ← Program.machine
  let input ← IO.getStdin
  if args.isEmpty && (← input.isTty) then
    Program.interact (Cli.setup Machine.host m) input { state := Session.start m }
  else
    let bytes ← if ← input.isTty then pure ByteArray.empty else Program.readAll input .empty
    let (status, m) := Cli.runOn m args bytes
    let _ ← Program.flush m
    return UInt32.ofNat status
