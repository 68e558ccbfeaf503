import ResourceFinder.Index.Basic
import ResourceFinder.Scan.FileSystem

/-
Collecting roots and building an index from them.

A root has to be sound to be added, but a resource in it need not be: a candidate without a location
is left out, and does not stand in the way of a later one with its name.
-/

namespace ResourceFinder

inductive Event where
  | alreadyAdded (root : Root)
  | scanning (root : Root)
  | dropped (name : Text) (why : Unresolvable)
  | closed (root : Root)
  | indexed (resources roots unresolvable shadowed : Nat)

def Event.isDropped : Event → Bool
  | dropped _ _ => true
  | _ => false

structure Logged (α : Type) where
  events : List Event
  result : Except Fault α

/-- Roots in the order in which they were added, each of them once, and how they are scanned. -/
structure Builder where
  scanner : FileSystem → Scanner
  roots : List Root
  distinct : roots.Nodup

namespace Builder

def ofScanner (scanner : FileSystem → Scanner) : Builder := ⟨scanner, [], List.nodup_nil⟩

def ofConfig (config : ScanConfig) : Except Fault Builder := do
  return ofScanner (.ofFileSystem config (← Scanner.patternsOf config))

def addRoot (b : Builder) (root : Root) : Builder :=
  if h : root ∈ b.roots then b
  else { b with
    roots := b.roots ++ [root]
    distinct := by
      refine List.nodup_append.2 ⟨b.distinct, by simp, ?_⟩
      intro r hr s hs
      rw [List.mem_singleton.1 hs]
      exact fun e => h (e ▸ hr) }

/-- The root for an entry of a search path, where no text means the working directory; none for an
entry that is no root. -/
def searchRoot (fs : FileSystem) (entry : Text) (r : Refusals := {}) : Except Fault (Option Root) :=
  match Root.ofPath fs (if entry.isEmpty then Path.here else entry) r with
  | .ok root => .ok (some root)
  | .error (.invalidRoot _) => .ok none
  | .error f => .error f

/-- What came of candidates: what happened, the resources among them, and the failure that ended
it. -/
structure Progress where
  events : List Event
  resources : List Resource
  failure : Option Fault

namespace Progress

def append (a b : Progress) : Progress :=
  match a.failure with
  | some _ => a
  | none => ⟨a.events ++ b.events, a.resources ++ b.resources, b.failure⟩

end Progress

def resolveOne (s : Scanner) (root : Root) (c : Candidate) : Progress :=
  match s.resolve root c with
  | .ok l => ⟨[], [⟨c.name, l⟩], none⟩
  | .error (.unresolvable why) => ⟨[.dropped c.name why], [], none⟩
  | .error f => ⟨[], [], some f⟩

def resolveAll (s : Scanner) (root : Root) : List Candidate → Progress
  | [] => ⟨[], [], none⟩
  | c :: rest => (resolveOne s root c).append (resolveAll s root rest)

/-- Scans a root.  Whatever happens in between, the scan is closed in the end. -/
def scanRoot (s : Scanner) (root : Root) : Progress :=
  let scan := s.scan root
  let p := (resolveAll s root scan.candidates).append ⟨[], [], scan.failure⟩
  { p with events := .scanning root :: p.events ++ [.closed root] }

def scanRoots (s : Scanner) : List Root → Progress
  | [] => ⟨[], [], none⟩
  | root :: rest => (scanRoot s root).append (scanRoots s rest)

def build (b : Builder) (fs : FileSystem) : Logged Index :=
  if b.roots.isEmpty then ⟨[], .error .noRoots⟩
  else
    let p := scanRoots (b.scanner fs) b.roots
    match p.failure with
    | some f => ⟨p.events, .error f⟩
    | none =>
      let index := Index.ofResources p.resources
      let summary := Event.indexed index.size b.roots.length (p.events.countP Event.isDropped)
        (p.resources.length - index.size)
      ⟨p.events ++ [summary], .ok index⟩

end Builder

namespace Index

def addPaths (fs : FileSystem) (b : Builder) : List Text → Logged Builder
  | [] => ⟨[], .ok b⟩
  | path :: rest =>
    match Root.ofPath fs path with
    | .error f => ⟨[], .error f⟩
    | .ok root =>
      let more := addPaths fs (b.addRoot root) rest
      { more with events := if b.roots.contains root then .alreadyAdded root :: more.events
          else more.events }

def ofPaths (fs : FileSystem) (config : ScanConfig) (paths : List Text) : Logged Index :=
  match Builder.ofConfig config with
  | .error f => ⟨[], .error f⟩
  | .ok b =>
    let added := addPaths fs b paths
    match added.result with
    | .error f => ⟨added.events, .error f⟩
    | .ok b =>
      let built := b.build fs
      { built with events := added.events ++ built.events }

end Index
end ResourceFinder
