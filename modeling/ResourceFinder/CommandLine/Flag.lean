import ResourceFinder.Text.Basic

/-
The options of the command line.
-/

namespace ResourceFinder
namespace CommandLine

inductive Flag where
  | help
  | root
  | regex
  | uri
  | cat
  | property
  | output
  | exclude
  | extendExclude
  | noRespectGitignore
  | filesMaxSize
  | verbose
  | version
  deriving DecidableEq

namespace Flag

def spellings : Flag → List Text
  | help => ["-h", "--help"]
  | root => ["-r", "--root"]
  | regex => ["--regex"]
  | uri => ["--uri"]
  | cat => ["--cat"]
  | property => ["--property"]
  | output => ["-o", "--output"]
  | exclude => ["--exclude"]
  | extendExclude => ["--extend-exclude"]
  | noRespectGitignore => ["--no-respect-gitignore"]
  | filesMaxSize => ["--files-max-size"]
  | verbose => ["-v", "--verbose"]
  | version => ["--version"]

def takesValue : Flag → Bool
  | root | regex | property | output | exclude | extendExclude | filesMaxSize => true
  | _ => false

def all : List Flag :=
  [help, root, regex, uri, cat, property, output, exclude, extendExclude, noRespectGitignore,
    filesMaxSize, verbose, version]

/-- The options that a configuration file can set. -/
def configurable : List Flag := [root, exclude, extendExclude, noRespectGitignore, filesMaxSize]

def title (f : Flag) : Text := Text.join "/" f.spellings

end Flag
end CommandLine
end ResourceFinder
