import ResourceFinder.CommandLine.Help
import ResourceFinder.CommandLine.Machine
import ResourceFinder.CommandLine.Options
import ResourceFinder.FileSystem.Update
import ResourceFinder.Index.Loader
import ResourceFinder.Settings.File

/-
Running the command.

All output is made before any of it is written, so a run that fails writes nothing but messages.
-/

namespace ResourceFinder
namespace CommandLine

/-- What a run leaves behind: its exit code, or the failure that nothing in the run answers for;
what it wrote to the two standard streams, of which the second takes everything; and the file system
after it. -/
structure RunResult where
  exit : Except Fault Nat
  output : Bytes
  messages : Text
  fs : FileSystem

def scannerLog : Text := "reslocator.index.scanner"
def builderLog : Text := "reslocator.index.builder"

def logLine? : Event → Option Text
  | .scanning root =>
    some (("DEBUG " : Text) ++ scannerLog ++ ": Scanning root " ++ root.path.text)
  | .alreadyAdded root =>
    some (("DEBUG " : Text) ++ builderLog ++ ": Root already added: " ++ root.path.text)
  | .dropped name why =>
    some (("DEBUG " : Text) ++ builderLog ++ ": Dropping " ++ name ++ ": " ++ why.message)
  | .closed _ => none
  | .indexed resources roots unresolvable shadowed =>
    some (("INFO " : Text) ++ builderLog ++ ": Indexed " ++ Text.ofNat resources ++
      " resources from " ++ Text.ofNat roots ++ " roots (" ++ Text.ofNat unresolvable ++
      " unresolvable, " ++ Text.ofNat shadowed ++ " shadowed)")

def logText (events : List Event) : Text :=
  (events.filterMap logLine?).flatMap (· ++ [.char '\n'])

def predicate (patterns : List Text) (regex : Option Text) : Except Fault (Text → Bool) := do
  let matchers ← patterns.mapM fun p => (Glob.compile p).mapError .ofGlob
  let expression ← regex.mapM fun t => (Regex.parse {} t).mapError (.expression t)
  return fun name => matchers.any (·.accepts name) || expression.any (Regex.fullMatch · name)

def label (o : Options) (l : Location) : Except Fault Text :=
  if o.uri then l.uri else .ok l.name

/-- The line for a property of one resource, if it has that property. -/
def propertyLine? (o : Options) (key : Text) (outcome : LoadOutcome Properties) :
    Except Fault (Option Text) := do
  let properties ← outcome.unwrap
  match properties.get? key with
  | none => return none
  | some value => return some ((← label o outcome.location) ++ .char '\t' :: value)

def outputLines (fs : FileSystem) (index : Index) (accepts : Text → Bool) (o : Options) :
    Except Fault (List Text) := do
  let query := Query.test fun name => .ok (accepts name)
  match o.property with
  | some key =>
    let load : Loader Reading (Option Text) := fun l => do
      return (← attempt (Loader.properties Loader.defaultEncoding) l).bind (propertyLine? o key)
    let cursor : Cursor Reading (Option Text) := ⟨index.resources, ← query.accepts, load⟩
    return (← cursor.all.within fs).filterMap id
  | none =>
    if o.cat then
      let cursor ← index.fetch query (Loader.text Loader.defaultEncoding)
      return (← cursor.all.within fs).map (Text.dropEndWhile (· = .char '\n'))
    else
      let cursor : Cursor Reading Location ← index.locate query
      (← cursor.all.within fs).mapM (label o)

def render (fs : FileSystem) (index : Index) (accepts : Text → Bool) (o : Options) :
    Except Fault Text := do
  return (← outputLines fs index accepts o).flatMap (· ++ [.char '\n'])

/-- The file that swallows all that is written to it. -/
def nullDevice : Path := ⟨.root, ["dev", "null"]⟩

/-- Puts octets in the place of what is under a path in a directory that is there.  A link is
replaced and not followed. -/
def replaceEntry (fs : FileSystem) (p : Path) (octets : Bytes) : Except Fault FileSystem :=
  if fs.isDirectory p then .error (.outputDirectory p.text)
  else
    match fs.holder p with
    | .ok (place, name) => .ok (fs.set (place ++ [name]) (some (.file octets)))
    | .error problem => .error (.path (.refused problem p.text))

/-- Puts a text in the place of the file under a path, all of it or nothing.  The directories above
it are made first, and stay if the rest fails, or is refused for `refusal`. -/
def replaceFile (fs : FileSystem) (p : Path) (t : Text) (refusal : Option Fault := none) :
    FileSystem × Option Fault :=
  if p = nullDevice then
    match Utf8.encode t with
    | .ok _ => (fs, none)
    | .error e => (fs, some (.surrogates e))
  else if p.segments.isEmpty then (fs, some (.outputName p.text))
  else if p.parent.text.contains (.char '\x00') then (fs, some (.path .nullCharacter))
  else
    match fs.makeDirectories p.parent with
    | (fs, some e) => (fs, some (.path e))
    | (fs, none) =>
      if p.name.contains (.char '\x00') then (fs, some (.path .nullCharacter))
      else if FileSystem.isTooLong p.name then (fs, some (.path (.refused .nameTooLong p.text)))
      else
        match refusal, (Utf8.encode t).mapError .surrogates |>.bind (replaceEntry fs p) with
        | none, .ok fs => (fs, none)
        | none, .error f => (fs, some f)
        | some f, _ => (fs, some f)

def failed (exit : Nat) (log : Text) (message : Text) (fs : FileSystem) : RunResult :=
  ⟨.ok exit, [], log ++ "Error: " ++ message ++ "\n", fs⟩

def deliver (fs : FileSystem) (o : Options) (log : Text) (t : Text) (m : Machine := {}) :
    RunResult :=
  if o.output = Options.standardOutput then
    match m.print t with
    | (taken, none) => ⟨.ok 0, taken, log, fs⟩
    | (taken, some f) => { failed 2 log f.message fs with output := taken }
  else
    match replaceFile fs (.ofText o.output) t m.writing with
    | (fs, none) => ⟨.ok 0, [], log, fs⟩
    | (fs, some f) => failed 2 log f.message fs

/-- Whether a failure to build the index is one that the user can mend in the arguments. -/
def isUsersFault : Fault → Bool
  | .glob _ | .invalidRoot _ | .noRoots => true
  | .expression _ f => f.isFormal
  | _ => false

inductive Stop where
  | message (t : Text)
  | failure (f : Fault)

namespace Stop

/-- What a run leaves behind that is stopped: it says so if the user can do something about it. -/
def answer (fs : FileSystem) (log : Text) : Stop → RunResult
  | message t => failed 1 log t fs
  | failure f => if isUsersFault f then failed 1 log f.message fs else ⟨.error f, [], log, fs⟩

end Stop

def noRootsMessage : Text :=
  ("No roots specified. Use --root PATH (repeatable) or set `roots` in a config file. " : Text) ++
    "Use --help for more options."

def noPatternsMessage : Text := "Provide at least one pattern or --regex."

def search (fs : FileSystem) (o : Options) (m : Machine := {}) : RunResult :=
  if o.roots.isEmpty then Stop.answer fs [] (.message noRootsMessage)
  else if o.patterns.isEmpty && o.regex.isNone then Stop.answer fs [] (.message noPatternsMessage)
  else match m.during .test (predicate o.patterns o.regex) with
    | .error f => Stop.answer fs [] (.failure f)
    | .ok accepts =>
      let built := m.duringIndex (Index.ofPaths fs o.scanConfig o.roots)
      let log := if o.verbose then logText built.events else []
      match built.result with
      | .error f => Stop.answer fs log (.failure f)
      | .ok index =>
        match m.duringRendering (render fs index accepts o) with
        | .error f => failed 2 log f.message fs
        | .ok t => deliver fs o log t m

def settingsHere (fs : FileSystem) : Except Settings.FileError (Option Settings) :=
  match Settings.findFrom? fs ⟨.root, fs.current⟩ with
  | none => .ok none
  | some p => (Settings.load fs p).map some

def invalidSettings : Text := "Invalid config file: "

/-- The settings that count, or what stops a run while it looks for them. -/
def settingsOn (m : Machine) (fs : FileSystem) : Except Stop (Option Settings) :=
  match m.interrupts .settings with
  | none => (settingsHere fs).mapError fun e => .message (invalidSettings ++ e.message)
  | some (_, .refused problem path) =>
    .error (.message (invalidSettings ++ (PathError.refused problem path).message))
  | some (_, i) => .error (.failure i.fault)

theorem settingsOn_default (fs : FileSystem) :
    settingsOn {} fs = (settingsHere fs).mapError fun e => .message (invalidSettings ++ e.message) :=
  rfl

def rootPaths (fs : FileSystem) (arguments : List Text) : List Path :=
  match Options.read arguments, settingsHere fs with
  | .ok (o, _), .ok none => o.roots.map Path.ofText
  | .ok (o, explicit), .ok (some s) => (o.under s explicit).roots.map Path.ofText
  | _, _ => []

def outputPath? (arguments : List Text) : Option Path :=
  match Options.read arguments with
  | .ok (o, _) => if o.output = Options.standardOutput then none else some (.ofText o.output)
  | .error _ => none

def printed (m : Machine) (t : Text) (fs : FileSystem) : RunResult :=
  match m.print t with
  | (taken, none) => ⟨.ok 0, taken, [], fs⟩
  | (taken, some f) => ⟨.error f, taken, [], fs⟩

/-- A run of the command with some arguments.  Asked for help, it does not mind if that cannot be
written. -/
def run (fs : FileSystem) (arguments : List Text) (m : Machine := {}) : RunResult :=
  match Options.read arguments with
  | .error .help => ⟨.ok 0, (m.print help).1, [], fs⟩
  | .error (.usage e) => ⟨.ok 2, [], usageMessage e, fs⟩
  | .ok (o, explicit) =>
    if o.version then printed m versionText fs
    else match settingsOn m fs with
      | .error stop => stop.answer fs []
      | .ok none => search fs o m
      | .ok (some s) => search fs (o.under s explicit) m

end CommandLine
end ResourceFinder
