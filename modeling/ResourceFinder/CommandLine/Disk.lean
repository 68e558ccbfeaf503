import ResourceFinder.CommandLine.Run

/-
The part of a disk that a run of the command reads, as a file system value, and the one file that it
writes.

A link is taken over as a link to the end of its way, so what it leads to needs no further links.
What cannot be read is left out, as if it were not there.
-/

namespace ResourceFinder
namespace Disk

/-- The target of a link that leads nowhere: no file has such a name. -/
def nowhere : Text := [.char '\x00']

/-- The name of a place on the disk, if a disk can hold such a name. -/
def nameOf? (place : Place) : Option String := Text.toString? (⟨.root, place⟩ : Path).text

def entryAt? (place : Place) : Option IO.FS.DirEntry := do
  let above ← nameOf? place.dropLast
  let name ← (← place.getLast?).toString?
  return ⟨⟨above⟩, name⟩

def placeOf (name : String) : Place := Path.segmentsOf (Text.ofString name)

partial def readEntry (deep : Bool) (entry : IO.FS.DirEntry) : IO (Option Node) := do
  let path := entry.path
  try
    match (← path.symlinkMetadata).type with
    | .file => return some (.file (← IO.FS.readBinFile path).toList)
    | .other => return some (.link nowhere)
    | .symlink =>
      try return some (.link (Text.ofString (← IO.FS.realPath path).toString))
      catch _ => return some (.link nowhere)
    | .dir =>
      if !deep then return some (.directory [])
      let below ← (← path.readDir).toList.filterMapM fun e => do
        return (← readEntry deep e).map (Text.ofString e.fileName, ·)
      return some (.directory below)
  catch _ => return none

/-- The file system with what the disk has at a place.  The directories above it become part of it,
and what is there already stays unless more of it is wanted. -/
def loadPlace (deep : Bool) (fs : FileSystem) (place : Place) : IO FileSystem := do
  if !deep && (fs.nodeAt? place).isSome then return fs
  let some entry := entryAt? place | return fs
  let some n ← readEntry deep entry | return fs
  match fs.makeDirectories ⟨.root, place.dropLast⟩ with
  | (fs, none) => return fs.set place (some n)
  | (_, some _) => return fs

mutual

def targetsIn : Node → List Text
  | .file _ => []
  | .link target => [target]
  | .directory entries => targetsInAll entries

def targetsInAll : List (Text × Node) → List Text
  | [] => []
  | (_, n) :: rest => targetsIn n ++ targetsInAll rest

end

def loadTargets (fs : FileSystem) : IO FileSystem :=
  ((targetsIn fs.root).filter (· != nowhere)).foldlM (fun fs target =>
    loadPlace false fs (Path.segmentsOf target)) fs

/-- The file system with every name on the way of a path, and, if `deep`, with all that is below its
end. -/
def loadPath (deep : Bool) (fs : FileSystem) (p : Path) : IO FileSystem := do
  let mut fs := fs
  let mut place := fs.startOf p
  for name in p.segments do
    if name != Path.up then
      fs ← loadPlace false fs (place ++ [name])
    let some written := nameOf? (place ++ [name]) | return fs
    try place := placeOf (← IO.FS.realPath written).toString
    catch _ => return fs
  fs ← loadPlace false fs place
  if deep then loadPlace true fs place else return fs

def load (arguments : List Text) : IO FileSystem := do
  let current := placeOf (← IO.FS.realPath ".").toString
  let mut fs : FileSystem := ⟨[], current⟩
  fs ← loadPath false fs ⟨.root, current⟩
  for p in Settings.candidates ⟨.root, current⟩ do
    fs ← loadPath false fs p
  for p in CommandLine.rootPaths fs arguments do
    fs ← loadPath true fs p
  for p in (CommandLine.outputPath? arguments).toList do
    fs ← loadPath false fs p
  loadTargets fs

/-- Writes a file as a whole: under another name first, which then takes the place of its own. -/
def writeWhole (name : String) (octets : Bytes) : IO Unit := do
  let unfinished := name ++ ".partial"
  IO.FS.writeBinFile unfinished ⟨octets.toArray⟩
  IO.FS.rename unfinished name

def store (before after : FileSystem) (p : Path) : IO Unit := do
  if after.isDirectory p.parent && !before.isDirectory p.parent then
    if let some above := p.parent.text.toString? then IO.FS.createDirAll above
  match after.read p, p.text.toString? with
  | .ok octets, some name => if (before.read p).toOption ≠ some octets then writeWhole name octets
  | _, _ => return

end Disk
end ResourceFinder
