import ResourceFinder.Fault
import ResourceFinder.Scan.Config

/-
What keeps an entry of a directory root out of a scan: the patterns of the configuration, the ignore
file at the top of the root, and the ignore files in the directories from the top down to the
entry's own.
-/

namespace ResourceFinder
namespace Scan

def gitignoreName : Text := ".gitignore"

/-- The rules of the ignore files met so far, by the names from the root to their directories;
nothing for a directory without such a file. -/
abbrev RuleCache := List (List Text × Option Ignore.Rules)

/-- Ignore files on the way down, each with the names from the root to its directory. -/
abbrev RuleChain := List (List Text × Ignore.Rules)

def rulesIn (fs : FileSystem) (base : Path) (names : List Text) :
    Except Ignore.FileError (Option Ignore.Rules) :=
  Ignore.load fs ((base.below names).child gitignoreName)

def cachedRulesIn (fs : FileSystem) (base : Path) (cache : RuleCache) (names : List Text) :
    Except Ignore.FileError (Option Ignore.Rules × RuleCache) :=
  match cache.lookup names with
  | some rules => .ok (rules, cache)
  | none => (rulesIn fs base names).map fun rules => (rules, (names, rules) :: cache)

/-- The names on the way to a directory, from none of them to all of them. -/
def waysTo (names : List Text) : List (List Text) :=
  (List.range (names.length + 1)).map names.take

def chainOf (fs : FileSystem) (base : Path) (cache : RuleCache) :
    List (List Text) → Except Ignore.FileError (RuleChain × RuleCache)
  | [] => .ok ([], cache)
  | names :: rest => do
    let (rules, cache) ← cachedRulesIn fs base cache names
    let (chain, cache) ← chainOf fs base cache rest
    return ((rules.map (names, ·)).toList ++ chain, cache)

def chainTo (fs : FileSystem) (base : Path) (cache : RuleCache) (names : List Text) :
    Except Ignore.FileError (RuleChain × RuleCache) :=
  chainOf fs base cache (waysTo names)

structure Exclusion where
  patterns : Ignore.Rules
  toolRules : Option Ignore.Rules
  chain : RuleChain

def entryText (names : List Text) (isDirectory : Bool) : Text :=
  Text.join "/" names ++ if isDirectory then ("/" : Text) else []

def Exclusion.excludes (x : Exclusion) (names : List Text) (isDirectory : Bool) : Bool :=
  let t := entryText names isDirectory
  x.patterns.excludes t || x.toolRules.any (·.excludes t) ||
    x.chain.any fun (above, rules) =>
      rules.excludes (entryText (names.drop above.length) isDirectory)

end Scan
end ResourceFinder
