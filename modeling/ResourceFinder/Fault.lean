import ResourceFinder.Archive.Fault
import ResourceFinder.Glob.Matcher
import ResourceFinder.Ignore.File
import ResourceFinder.Json.Basic
import ResourceFinder.Properties.Entry
import ResourceFinder.Root.Basic
import ResourceFinder.Settings.File

/-
Everything that can go wrong, by its cause.
-/

namespace ResourceFinder

/-- The kinds of failure that a caller's own scanner or loader reports. -/
inductive ReportedKind where
  | value
  | system
  | missingFile
  | key
  | runtime
  deriving DecidableEq

inductive Fault where
  | glob (e : Glob.SyntaxError)
  | expression (text : Text) (f : Regex.Fault)
  | noQuery (type : Text)
  | noRoot (type : Text)
  | invalidRoot (e : InvalidRoot)
  | noRoots
  | unresolvable (e : Unresolvable)
  | load (l : Location) (cause : Fault)
  | path (e : PathError)
  | linkLoop (path : Text)
  | encoding (e : DecodeError)
  | surrogates (e : EncodeError)
  | unknownEncoding (name : Text)
  | ignoreLine (e : Ignore.InvalidLine)
  | archive (f : Archive.Fault)
  | corruptArchive (path : Text) (m : Archive.Malformation)
  | noEntry (name path : Text)
  | relativeUri
  | properties (e : Properties.EscapeError)
  | json (f : Json.Fault)
  | toml (f : Toml.Fault)
  | settings (e : Settings.FileError)
  | outputDirectory (path : Text)
  | outputName (path : Text)
  | reported (kind : ReportedKind) (message : Text)
  | exhausted (message : Text)

namespace Fault

def message : Fault → Text
  | glob e => e.message
  | expression text f => f.message text
  | noQuery type => ("Query must be a glob string or a callable, not " : Text) ++ type
  | noRoot type => ("Unsupported root type: " : Text) ++ type
  | invalidRoot e => e.message
  | noRoots => "No source configured: add at least one root"
  | unresolvable e => e.message
  | load l cause => ("Could not load " : Text) ++ l.uri?.getD [] ++ ": " ++ cause.message
  | path e => e.message
  | linkLoop p => ("Symlink loop from " : Text) ++ Text.quoted p
  | encoding e => e.message
  | surrogates e => e.message
  | unknownEncoding name => ("unknown encoding: " : Text) ++ name
  | ignoreLine e => e.message
  | archive f => f.message
  | corruptArchive p m => ("Corrupt archive " : Text) ++ p ++ ": " ++ m.message
  | noEntry name p => ("No entry " : Text) ++ Text.quoted name ++ " in " ++ p
  | relativeUri => "relative path can't be expressed as a file URI"
  | properties e => e.message
  | json f => f.message
  | toml f => f.message
  | settings e => e.message
  | outputDirectory p => ("Destination is a directory: " : Text) ++ p
  | outputName p => ("PosixPath(" : Text) ++ Text.quoted p ++ ") has an empty name"
  | reported .key message => Text.quoted message
  | reported _ message => message
  | exhausted message => message

/-- Whether a failure to load a resource is one of reading or decoding it, which concerns that
resource alone. -/
def isRecoverable : Fault → Bool
  | path _ | encoding _ | surrogates _ | corruptArchive _ _ | noEntry _ _ | relativeUri
  | properties _ | json _ | toml _ | settings _ | glob _ | invalidRoot _ | ignoreLine _
  | outputName _ => true
  | archive (.name _) | archive .bzip2 | archive .placeBeforeStart | archive .placeTooFar => true
  | reported .value _ | reported .system _ | reported .missingFile _ => true
  | _ => false

def ofTextFile : TextFileError → Fault
  | .path e => path e
  | .encoding e => encoding e

def ofIgnoreLine : Ignore.LineError → Fault
  | .pattern e => ignoreLine e
  | .expression text f => expression text f

def ofIgnoreFile : Ignore.FileError → Fault
  | .file e => ofTextFile e
  | .line e => ofIgnoreLine e

def ofGlob : Glob.CompileError → Fault
  | .pattern e => glob e
  | .expression text f => expression text f

def ofUri : Uri.Problem → Fault
  | .relative => relativeUri
  | .surrogates e => surrogates e

end Fault

def Location.uri (l : Location) : Except Fault Text := l.writeUri.mapError .ofUri

end ResourceFinder
