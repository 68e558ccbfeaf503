import ResourceFinder.Toml.Scalar

/-
Reading a TOML document.

A table may be opened once, and a list or a table written in place is complete as it stands.  Both
rules need a record of how each name came about, beside the values themselves.
-/

namespace ResourceFinder
namespace Toml

def skipBetween : (fuel : Nat) → Input → Reading Input
  | 0, s => .ok s
  | fuel + 1, s => do
    let after ← skipComment (skipSpaceAndLineEnds s)
    if after.position = s.position then return s else skipBetween fuel after

def skipAround (s : Input) : Reading Input := skipBetween (s.rest.length + 1) s

/-- The tables on the way to a key, made where they are missing, with a change to the last of them.
Within a document, but not in a table written in place, the way leads through the last table of a
list. -/
def changeTable (throughLists : Bool) (change : Table → Option Table) : Key → Table → Option Table
  | [], t => change t
  | name :: rest, t =>
    match t.get? name with
    | none => (changeTable throughLists change rest []).map fun v => t.insert name (.table v)
    | some (.table v) => 
      (changeTable throughLists change rest v).map fun v => t.insert name (.table v)
    | some (.list items) =>
      match throughLists, items.getLast? with
      | true, some (.table v) =>
        (changeTable throughLists change rest v).map fun v =>
          t.insert name (.list (items.dropLast ++ [.table v]))
      | _, _ => none
    | some _ => none

def covers (keys : List Key) (key : Key) : Bool := keys.any (·.isPrefixOf key)

/-- Whether what a value holds is complete as written. -/
def Value.isClosed : Value → Bool
  | .list _ => true
  | .table _ => true
  | _ => false

/-- A table written in place while it is read: its members and the keys whose values are
complete. -/
structure InlineTable where
  members : Table
  closed : List Key

def InlineTable.add (t : InlineTable) (key : Key) (v : Value) (s : Input) : Reading InlineTable :=
  if covers t.closed key then s.fail (.frozen key)
  else
    let name := key.getLastD []
    match changeTable false some key.dropLast t.members with
    | none => s.fail .overwrite
    | some _ =>
      let insertNew (nest : Table) : Option Table :=
        if (nest.get? name).isSome then none else some (nest.insert name v)
      match changeTable false insertNew key.dropLast t.members with
      | none => s.fail (.duplicateKey name)
      | some members =>
        .ok ⟨members, if v.isClosed then key :: t.closed else t.closed⟩

mutual

/-- A value.  Every part of one takes a character at least, and two steps, which bounds the
depth. -/
def value : (fuel : Nat) → Input → Reading (Value × Input)
  | 0, s => s.fail .value
  | fuel + 1, s =>
    if s.nextIs '"' then do
      let (t, s) ← if s.startsWith "\"\"\"" then textOfLines false s else textOfOneLine false s
      return (.text t, s)
    else if s.nextIs '\'' then do
      let (t, s) ← if s.startsWith "'''" then textOfLines true s else textOfOneLine true s
      return (.text t, s)
    else if s.startsWith "true" then .ok (.bool true, s.skip 4)
    else if s.startsWith "false" then .ok (.bool false, s.skip 5)
    else if s.nextIs '[' then do
      let (items, s) ← items fuel (← skipAround (s.skip 1))
      return (.list items, s)
    else if s.nextIs '\x7b' then
      let s := skipSpace (s.skip 1)
      if s.nextIs '\x7d' then .ok (.table [], s.skip 1)
      else do
        let (members, s) ← members fuel ⟨[], []⟩ s
        return (.table members, s)
    else quantity s

def items : (fuel : Nat) → Input → Reading (List Value × Input)
  | 0, s => s.fail .openList
  | fuel + 1, s =>
    if s.nextIs ']' then .ok ([], s.skip 1)
    else do
      let (v, s) ← value fuel s
      let s ← skipAround s
      if s.nextIs ']' then return ([v], s.skip 1)
      else
        let s ← skipAround (← s.expect ',' .openList)
        let (rest, s) ← items fuel s
        return (v :: rest, s)

def pair : (fuel : Nat) → Input → Reading ((Key × Value) × Input)
  | 0, s => s.fail .value
  | fuel + 1, s => do
    let (k, s) ← key s
    let s ← s.expect '=' .noEquals
    let (v, s) ← value fuel (skipSpace s)
    return ((k, v), s)

def members : (fuel : Nat) → InlineTable → Input → Reading (Table × Input)
  | 0, _, s => s.fail .openTable
  | fuel + 1, t, s => do
    let ((k, v), s) ← pair fuel s
    let t ← t.add k v s
    let s := skipSpace s
    if s.nextIs '\x7d' then return (t.members, s.skip 1)
    else
      let s ← s.expect ',' .openTable
      members fuel t (skipSpace s)

end

/-- A document while it is read: its values, the table that is open, the keys of the tables that
were opened by name, those that count as opened once the next table starts, and the keys whose
values are complete as written. -/
structure Document where
  values : Table
  header : Key
  opened : List Key
  pending : List Key
  closed : List Key

namespace Document

def start : Document := ⟨[], [], [], [], []⟩

def assign (d : Document) (key : Key) (v : Value) (s : Input) : Reading Document :=
  let parent := d.header ++ key.dropLast
  let between := (List.range (key.length - 1)).map fun i => d.header ++ key.take (i + 1)
  match between.find? d.opened.contains with
  | some k => s.fail (.redefined k)
  | none =>
    if covers d.closed parent then s.fail (.frozen parent)
    else
      let name := key.getLastD []
      let add : Table → Option Table := fun nest =>
        if (nest.get? name).isSome then none else some (nest.insert name v)
      match changeTable true add parent d.values with
      | none => s.fail .overwrite
      | some values => .ok { d with
          values, pending := between ++ d.pending,
          closed := if v.isClosed then (d.header ++ key) :: d.closed else d.closed }

/-- What was pending counts as opened from now on. -/
def settle (d : Document) : Document := { d with opened := d.pending ++ d.opened, pending := [] }

def openTable (d : Document) (key : Key) (s : Input) : Reading Document :=
  if d.opened.contains key || covers d.closed key then s.fail (.declaredTwice key)
  else match changeTable true some key d.values with
    | none => s.fail .overwrite
    | some values => .ok { d with values, header := key, opened := key :: d.opened }

/-- Opens a new table at the end of a list of tables, below which nothing is opened yet. -/
def openListed (d : Document) (key : Key) (s : Input) : Reading Document :=
  if covers d.closed key then s.fail (.frozen key)
  else
    let name := key.getLastD []
    let add : Table → Option Table := fun nest =>
      match nest.get? name with
      | none => some (nest.insert name (.list [.table []]))
      | some (.list items) => some (nest.insert name (.list (items ++ [.table []])))
      | some _ => none
    match changeTable true add key.dropLast d.values with
    | none => s.fail .overwrite
    | some values => .ok { d with
        values, header := key,
        opened := key :: d.opened.filter (!key.isPrefixOf ·),
        closed := d.closed.filter (!key.isPrefixOf ·) }

def statement (d : Document) (s : Input) : Reading (Document × Input) :=
  match s.rest with
  | [] => .ok (d, s)
  | c :: _ =>
    if startsKey c then do
      let ((k, v), s) ← pair (2 * s.rest.length + 2) s
      return (← d.assign k v s, skipSpace s)
    else if s.startsWith "[[" then do
      let (k, s) ← key (skipSpace (s.skip 2))
      let d ← d.settle.openListed k s
      if s.startsWith "]]" then return (d, skipSpace (s.skip 2)) else s.fail .noTableListEnd
    else if c = .char '[' then do
      let (k, s) ← key (skipSpace (s.skip 1))
      let d ← d.settle.openTable k s
      return (d, skipSpace (← s.expect ']' .noTableEnd))
    else if c = .char '#' then .ok (d, s)
    else s.fail .statement

def statements : (fuel : Nat) → Document → Input → Reading Document
  | 0, d, _ => .ok d
  | fuel + 1, d, s => do
    let s := skipSpace s
    if s.rest.isEmpty then return d
    else if s.nextIs '\n' then statements fuel d (s.skip 1)
    else
      let (d, s) ← d.statement s
      let s ← skipComment s
      if s.rest.isEmpty then return d
      else statements fuel d (← s.expect '\n' .noLineEnd)

end Document

def parse (t : Text) : Except Fault Table :=
  let t := t.joinCrLf
  match Document.start.statements (t.length + 1) (.ofText t) with
  | .ok d => .ok d.values
  | .error (.longInteger digits) => .error (.longInteger digits)
  | .error (.problem p position) =>
    .error (.grammar p (if position ≥ t.length then none else some (t.lineAndColumn position)))

end Toml
end ResourceFinder
