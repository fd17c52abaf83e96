import TapeMachine.CommandLine.Run

/-! The command-line program: gathers what surrounds it, runs, and hands over what is left behind.
Standard input is read to its end before anything runs, and time is counted instead of measured:
each reading of the clock is a microsecond after the one before. -/

namespace TapeMachine.Main

/-- More turns than any loop can make. -/
def fuel : Nat := 4611686018427387904

partial def readAll (stream : IO.FS.Stream) (sofar : ByteArray) : IO ByteArray := do
  let more ← stream.read 65536
  if more.isEmpty then return sofar else readAll stream (sofar ++ more)

def opens (path : String) : IO Bool := do
  try
    let _ ← IO.FS.Handle.mk path .read
    return true
  catch _ => return false

/-- What a path leads to. Only in a directory can its own entry be opened. -/
def nodeAt (path : String) : IO (Option Node) := do
  if ← opens (path ++ "/.") then return some .directory
  if ← opens path then return some (.file (← IO.FS.readBinFile path).toList)
  return none

/-- The files and directories that are met on the way along paths. -/
def gather (paths : List String) : IO Files := do
  let mut files : Files := {}
  for names in paths.flatMap Files.stations do
    if let some n ← nodeAt (Files.display names) then files := files.put names n
  return files

/-- Writes the files that have changed. -/
def scatter (before after : Files) : IO Unit := do
  for (names, bytes) in after.regular do
    if before.node? names ≠ some (.file bytes) then
      IO.FS.writeBinFile (Files.display names) ⟨bytes.toArray⟩

def surroundings (o : Options) : IO Surroundings := do
  let stdin ← readAll (← IO.getStdin) .empty
  return {
    stdin := stdin.toList
    files := ← gather ((o.input.toList ++ o.output.toList).filterMap Operand.value?)
    clock := .ticking 0.000001 }

end TapeMachine.Main

open TapeMachine in
def main (argv : List String) : IO UInt32 := do
  let w ←
    match CommandLine.parse argv with
    | .ok o => Main.surroundings o
    | .error _ => pure {}
  match CommandLine.run Main.fuel argv w with
  | none => return 1
  | some e =>
    (← IO.getStdout).write ⟨e.stdout.toArray⟩
    (← IO.getStderr).putStr e.stderr
    Main.scatter w.files e.files
    match e.status with
    | .ok n => return n.toUInt32
    | .error _ => return 130
