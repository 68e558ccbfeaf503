import ResourceFinder.CommandLine.Disk

/-
The command: it reads the part of the disk that a run needs, runs, and writes what the run gives.
-/

namespace ResourceFinder

def writeOctets (stream : IO.FS.Stream) (octets : Bytes) : IO Unit := do
  stream.write ⟨octets.toArray⟩
  stream.flush

/-- Writes a text to a stream; what has no octets is left out. -/
def writeText (stream : IO.FS.Stream) (t : Text) : IO Unit :=
  writeOctets stream ((Utf8.encode (t.filter (·.toChar?.isSome))).toOption.getD [])

/-- The exit code for a failure that nothing in the run answers for. -/
def failureCode : Nat := 1

def runCommand (arguments : List Text) : IO Nat := do
  let fs ← Disk.load arguments
  let r := CommandLine.run fs arguments
  if let some p := CommandLine.outputPath? arguments then Disk.store fs r.fs p
  writeOctets (← IO.getStdout) r.output
  writeText (← IO.getStderr) r.messages
  match r.exit with
  | .ok code => return code
  | .error f =>
    writeText (← IO.getStderr) (f.message ++ "\n")
    return failureCode

end ResourceFinder

def main (arguments : List String) : IO UInt32 := do
  return UInt32.ofNat (← ResourceFinder.runCommand (arguments.map ResourceFinder.Text.ofString))
