import ResourceFinder.FileSystem.Folder
import ResourceFinder.Scan.Basic
import ResourceFinder.Scan.Exclusion

/-
Scanning a directory root.

An excluded directory is not entered.  In every directory the files come first, and then the
directories below, both in the order of their names.
-/

namespace ResourceFinder
namespace Scan

structure DirectoryScan where
  fs : FileSystem
  config : ScanConfig
  patterns : Ignore.Rules
  base : Path
  toolRules : Option Ignore.Rules

namespace DirectoryScan

def chain (d : DirectoryScan) (cache : RuleCache) (names : List Text) :
    Except Ignore.FileError (RuleChain × RuleCache) :=
  if d.config.respectGitignore then chainTo d.fs d.base cache names else .ok ([], cache)

def exclusion (d : DirectoryScan) (chain : RuleChain) : Exclusion :=
  ⟨d.patterns, d.toolRules, chain⟩

/-- Whether the size of a file keeps it out; a file without a size is for the resolution to
judge. -/
def isTooLarge (d : DirectoryScan) (p : Path) : Bool :=
  match d.fs.size? p with
  | some size => d.config.isTooLarge size
  | none => false

def admits (d : DirectoryScan) (chain : RuleChain) (names : List Text) : Bool :=
  let p := d.base.below names
  p != d.base.joinText d.config.ignoreFileName && !(d.exclusion chain).excludes names false &&
    !d.isTooLarge p

def candidate (d : DirectoryScan) (names : List Text) : Candidate :=
  ⟨Text.join "/" names, (d.base.below names).text⟩

mutual

def scanFolder (d : DirectoryScan) (names : List Text) (cache : RuleCache) :
    Folder → Scan × RuleCache
  | .mk files folders =>
    match d.chain cache names with
    | .error e => (.ofFault (.ofIgnoreFile e), cache)
    | .ok (chain, cache) =>
      let here := ((files.map (names ++ [·])).filter (d.admits chain)).map d.candidate
      let (below, cache) := scanFolders d chain names cache folders
      ((Scan.ofCandidates here).append below, cache)

def scanFolders (d : DirectoryScan) (chain : RuleChain) (names : List Text) (cache : RuleCache) :
    List (Text × Folder) → Scan × RuleCache
  | [] => (.ofCandidates [], cache)
  | (name, folder) :: rest =>
    if (d.exclusion chain).excludes (names ++ [name]) true then
      scanFolders d chain names cache rest
    else
      let (scan, cache) := scanFolder d (names ++ [name]) cache folder
      let (more, cache) := scanFolders d chain names cache rest
      (scan.append more, cache)

end

end DirectoryScan

def ofDirectory (fs : FileSystem) (config : ScanConfig) (patterns : Ignore.Rules) (base : Path) :
    Scan :=
  match Ignore.load fs (base.joinText config.ignoreFileName) with
  | .error e => .ofFault (.ofIgnoreFile e)
  | .ok toolRules =>
    (DirectoryScan.scanFolder ⟨fs, config, patterns, base, toolRules⟩ [] [] (fs.folder base)).1

end Scan
end ResourceFinder
