import ResourceFinder.Archive.Content
import ResourceFinder.Fault
import ResourceFinder.Text.Encoding

/-
Making roots of paths, and reading what is in them.
-/

namespace ResourceFinder
namespace Root

/-- The root for a directory; `shown` is the path as the caller wrote it. -/
def ofDirectory (fs : FileSystem) (shown : Text) (r : Refusals := {}) : Except Fault Root := do
  let p := Path.ofText shown
  if ← (fs.test r Node.isDirectory p).mapError .path then return ⟨.directory, fs.resolve p⟩
  else throw (.invalidRoot (.notADirectory shown))

/-- The root for an archive, which has to have a directory that can be read. -/
def ofArchive (fs : FileSystem) (shown : Text) (r : Refusals := {}) : Except Fault Root := do
  let p := Path.ofText shown
  if ← (fs.test r Node.isFile p).mapError .path then
    match (fs.open? r p).map (Archive.entries ·) with
    | some (.ok _) => return ⟨.archive, fs.resolve p⟩
    | some (.error (.malformed _)) | none => throw (.invalidRoot (.notAnArchive shown))
    | some (.error f) => throw (.archive f)
  else throw (.invalidRoot (.archiveMissing shown))

/-- The root for a path: a directory, or else an archive. -/
def ofPath (fs : FileSystem) (shown : Text) (r : Refusals := {}) : Except Fault Root := do
  let p := Path.ofText shown
  if ← (fs.test r Node.isDirectory p).mapError .path then ofDirectory fs p.text r
  else if ← (fs.test r Node.isFile p).mapError .path then ofArchive fs p.text r
  else throw (.invalidRoot (.missing shown))

end Root

def archiveEntries (fs : FileSystem) (p : Path) (overlap : Archive.Overlap := .allowed) :
    Except Fault (Bytes × List Archive.Entry) := do
  let octets ← (fs.read p).mapError .path
  return (octets, ← (Archive.entries octets overlap).mapError .archive)

def readEntry (fs : FileSystem) (p : Path) (name : Text) (overlap : Archive.Overlap := .allowed) :
    Except Fault Bytes :=
  let outcome : Except Fault Bytes := do
    let (octets, entries) ← archiveEntries fs p overlap
    match Archive.find? entries name with
    | none => .error (.noEntry name p.text)
    | some e => (Archive.content octets e).mapError .archive
  outcome.mapError fun
    | .archive (.malformed m) => .corruptArchive p.text m
    | f => f

namespace Location

def read (fs : FileSystem) (l : Location) (overlap : Archive.Overlap := .allowed) :
    Except Fault Bytes :=
  match l.root.kind with
  | .directory => (fs.read l.path).mapError .path
  | .archive => readEntry fs l.root.path l.name overlap

end Location

/-- Octets read in an encoding of some name; no octets are no text in any encoding. -/
def decodeNamed (encoding : Text) (octets : Bytes) : Except Fault Text :=
  if octets.isEmpty then .ok []
  else match Encoding.ofName? encoding with
    | none => .error (.unknownEncoding encoding)
    | some e => (e.decode octets).mapError .encoding

def Location.readText (fs : FileSystem) (encoding : Text) (l : Location) : Except Fault Text := do
  decodeNamed encoding (← l.read fs)

end ResourceFinder
