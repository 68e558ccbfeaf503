import ResourceFinder.Settings.Basic

/-
How a root is scanned.
-/

namespace ResourceFinder

/-- What a scan leaves out: entries that match the patterns, in the syntax of ignore files; files
that ignore files exclude; and files above a size, if the size is not zero.  The tool's name is part
of the name of one ignore file.  Without a list of its own a scan has the default one. -/
structure ScanConfig where
  toolName : Text := ResourceFinder.toolName
  exclude : Option (List Text) := none
  extendExclude : List Text := []
  respectGitignore : Bool := true
  filesMaxSize : Int := 0

namespace ScanConfig

def defaultExcludes : List Text := [
  ".git/", ".hg/", ".svn/", ".bzr/",
  ".venv/", "__pycache__/", ".tox/", ".nox/", ".mypy_cache/", ".ruff_cache/", ".pytest_cache/",
  ".eggs/", "*.pyc",
  "node_modules/",
  ".idea/", ".vscode/",
  ".DS_Store"]

/-- All patterns, those added last. -/
def effectiveExclude (c : ScanConfig) : List Text :=
  c.exclude.getD defaultExcludes ++ c.extendExclude

def isTooLarge (c : ScanConfig) (size : Nat) : Bool := c.filesMaxSize ≠ 0 && size > c.filesMaxSize

def ignoreFileName (c : ScanConfig) : Text := ("." : Text) ++ c.toolName ++ "ignore"

end ScanConfig
end ResourceFinder
