import ResourceFinder.Scan.Archive
import ResourceFinder.Scan.Directory

/-
The scanner of directories and archives in a file system.
-/

namespace ResourceFinder
namespace Scanner

/-- The location of an entry of an archive.  A name that is absolute or leads upwards could denote a
place outside of any directory it is joined to. -/
def resolveEntry (root : Root) (c : Candidate) : Except Fault Location :=
  let p := Path.ofText c.raw
  if c.raw.getLast? = some (.char '/') then .error (.unresolvable (.directoryEntry c.raw))
  else if p.isAbsolute || p.segments.contains Path.up then
    .error (.unresolvable (.unsafeName c.raw))
  else .ok ⟨root, c.name⟩

/-- The location of a file, which may have gone since the scan or be a link that leads nowhere. -/
def resolveFile (fs : FileSystem) (root : Root) (c : Candidate) : Except Fault Location :=
  if fs.isFile (Path.ofText c.raw) then .ok ⟨root, c.name⟩
  else .error (.unresolvable (.notAFile c.raw))

def ofFileSystem (config : ScanConfig) (patterns : Ignore.Rules) (fs : FileSystem) : Scanner where
  scan root :=
    match root.kind with
    | .directory => Scan.ofDirectory fs config patterns root.path
    | .archive => Scan.ofArchive fs config patterns root.path
  resolve root c :=
    match root.kind with
    | .directory => resolveFile fs root c
    | .archive => resolveEntry root c

def patternsOf (config : ScanConfig) : Except Fault Ignore.Rules :=
  (Ignore.Rules.ofLines config.effectiveExclude).mapError .ofIgnoreLine

end Scanner
end ResourceFinder
