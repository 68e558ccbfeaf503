import ResourceFinder.Distinct
import ResourceFinder.Root.Read
import ResourceFinder.Scan.Basic
import ResourceFinder.Scan.Config

/-
Scanning an archive root.

Of several entries with one name the first is the one that is read, so it alone decides whether the
name is listed.
-/

namespace ResourceFinder
namespace Scan

def admitsEntry (config : ScanConfig) (patterns : Ignore.Rules) (e : Archive.Entry) : Bool :=
  !patterns.excludes e.name && !config.isTooLarge e.size

def entryCandidates (config : ScanConfig) (patterns : Ignore.Rules) (entries : List Archive.Entry) :
    List Candidate :=
  ((distinctBy Archive.Entry.name entries).filter (admitsEntry config patterns)).map fun e =>
    ⟨e.name, e.name⟩

def ofArchive (fs : FileSystem) (config : ScanConfig) (patterns : Ignore.Rules) (p : Path) : Scan :=
  match archiveEntries fs p with
  | .ok (_, entries) => .ofCandidates (entryCandidates config patterns entries)
  | .error f => .ofFault f

end Scan
end ResourceFinder
