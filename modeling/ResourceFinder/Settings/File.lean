import ResourceFinder.FileSystem.RealPath
import ResourceFinder.FileSystem.TextFile
import ResourceFinder.Settings.Basic
import ResourceFinder.Toml.Parser
import ResourceFinder.Toml.Shown

/-
Configuration files.

A setting may stand at the top of the document or in any table there, with its words joined by
dashes or by low lines.  Other keys mean nothing, but a setting of the wrong type makes the whole
file invalid.
-/

namespace ResourceFinder
namespace Settings

/-- The name of a file that belongs to many tools, in which the settings have a table of their
own. -/
def sharedFileName : Text := "pyproject.toml"

def fileNames : List Text :=
  [("." : Text) ++ toolName ++ ".toml", toolName ++ (".toml" : Text), sharedFileName]

inductive Expected where
  | texts
  | flag
  | size
  deriving DecidableEq

namespace Expected

def text : Expected → Text
  | texts => "a list of strings"
  | flag => "true or false"
  | size => "a non-negative integer"

end Expected

/-- A setting of the wrong type: its key as written, the type it has to have, and its value. -/
structure WrongType where
  key : Text
  expected : Expected
  value : Toml.Value

namespace WrongType

def message (e : WrongType) : Text :=
  ("`" : Text) ++ e.key ++ "` must be " ++ e.expected.text ++ ", got " ++ Toml.shown e.value

end WrongType

inductive FileError where
  | file (e : TextFileError)
  | document (path : Text) (e : Toml.Fault)
  | longInteger (e : Toml.Fault)
  | wrongType (path : Text) (e : WrongType)

namespace FileError

def message : FileError → Text
  | file e => e.message
  | document path e => path ++ ": " ++ e.message
  | longInteger e => e.message
  | wrongType path e => path ++ ": " ++ e.message

end FileError

def textOf? : Toml.Value → Option Text
  | .text t => some t
  | _ => none

def textsOf? : Toml.Value → Option (List Text)
  | .list items => items.mapM textOf?
  | _ => none

def flagOf? : Toml.Value → Option Bool
  | .bool b => some b
  | _ => none

def sizeOf? : Toml.Value → Option Int
  | .integer n => if n < 0 then none else some n
  | _ => none

def expect {α : Type} (key : Text) (expected : Expected) (as? : Toml.Value → Option α)
    (v : Toml.Value) : Except WrongType α :=
  match as? v with
  | some a => .ok a
  | none => .error ⟨key, expected, v⟩

/-- Takes over the value of a key if the key names a setting. -/
def set (s : Settings) (key : Text) (v : Toml.Value) : Except WrongType Settings := do
  let name := key.replaceChar '-' '_'
  if name = rootsName then return { s with roots := some (← expect key .texts textsOf? v) }
  else if name = excludeName then return { s with exclude := some (← expect key .texts textsOf? v) }
  else if name = extendExcludeName then
    return { s with extendExclude := some (← expect key .texts textsOf? v) }
  else if name = respectGitignoreName then
    return { s with respectGitignore := some (← expect key .flag flagOf? v) }
  else if name = filesMaxSizeName then
    return { s with filesMaxSize := some (← expect key .size sizeOf? v) }
  else return s

/-- The keys at the top, with the keys of each table in its place. -/
def flatten (t : Toml.Table) : List (Text × Toml.Value) :=
  t.flatMap fun
    | (_, .table members) => members
    | (key, v) => [(key, v)]

/-- The settings of a table; where a setting is repeated, the last one counts. -/
def ofTable (t : Toml.Table) : Except WrongType Settings :=
  (flatten t).foldlM (fun s (key, v) => s.set key v) {}

def toolTable? (t : Toml.Table) : Option Toml.Table :=
  match t.get? "tool" with
  | some (.table tools) =>
    match List.lookup toolName tools with
    | some (.table members) => some members
    | _ => none
  | _ => none

def readDocument (fs : FileSystem) (p : Path) : Except FileError Toml.Table := do
  match Toml.parse (← (fs.readText p).mapError .file) with
  | .ok t => .ok t
  | .error (.longInteger digits) => .error (.longInteger (.longInteger digits))
  | .error e => .error (.document p.text e)

/-- The settings in a configuration file.  Its roots are relative to the directory that holds it. -/
def load (fs : FileSystem) (p : Path) : Except FileError Settings := do
  let document ← readDocument fs p
  let t := if p.name = sharedFileName then (toolTable? document).getD [] else document
  let s ← (ofTable t).mapError (.wrongType p.text)
  let base := (fs.resolve p).parent
  return { s with roots := s.roots.map (·.map fun root => (base.joinText root).text) }

/-- Whether a configuration file counts: one that belongs to many tools does only with a table for
this one. -/
def counts (fs : FileSystem) (p : Path) : Bool :=
  fs.isFile p &&
    (p.name != sharedFileName ||
      match readDocument fs p with
      | .ok t => (toolTable? t).isSome
      | .error _ => false)

/-- Where configuration files may be: in a directory and in those above it, the nearest place
first. -/
def candidates (directory : Path) : List Path :=
  directory.ancestors.flatMap fun d => fileNames.map d.child

/-- The first configuration file that counts, looked for in a directory without links on the way and
in those above it. -/
def findFrom? (fs : FileSystem) (directory : Path) : Option Path :=
  (candidates directory).find? (counts fs)

/-- The nearest configuration file at or above a directory, or the path that shows a loop of
links. -/
def find? (fs : FileSystem) (directory : Path) : Except Path (Option Path) :=
  (fs.realPath directory).map (findFrom? fs)

end Settings
end ResourceFinder
