import ResourceFinder.Toml.Basic

/-
Values as messages show them.
-/

namespace ResourceFinder
namespace Toml

def shownNumbers (ns : List Nat) : Text := Text.join ", " (ns.map Text.ofNat)

def shownDate (d : Date) : Text := shownNumbers [d.year, d.month, d.day]

/-- Seconds and their millionths are left out where they are zero and nothing follows. -/
def shownTime (t : TimeOfDay) : Text :=
  shownNumbers <| [t.hour, t.minute] ++
    if t.micros ≠ 0 then [t.second, t.micros] else if t.second ≠ 0 then [t.second] else []

/-- The minutes ahead of universal time in seconds; less than none is a day less and the rest. -/
def shownOffset (minutes : Int) : Text :=
  if minutes = 0 then "datetime.timezone.utc"
  else
    let span : Text :=
      if minutes < 0 then ("days=-1, seconds=" : Text) ++ Text.ofInt (86400 + minutes * 60)
      else ("seconds=" : Text) ++ Text.ofInt (minutes * 60)
    ("datetime.timezone(datetime.timedelta(" : Text) ++ span ++ "))"

mutual

def shown : Value → Text
  | .bool b => if b then "True" else "False"
  | .integer n => Text.ofInt n
  | .number x => x.render
  | .text t => Text.quoted t
  | .date d => ("datetime.date(" : Text) ++ shownDate d ++ ")"
  | .time t => ("datetime.time(" : Text) ++ shownTime t ++ ")"
  | .dateTime d =>
    ("datetime.datetime(" : Text) ++ shownDate d.date ++ ", " ++ shownTime d.time ++
      (match d.offset with
        | none => []
        | some minutes => (", tzinfo=" : Text) ++ shownOffset minutes) ++ ")"
  | .list items => ("[" : Text) ++ shownItems items ++ "]"
  | .table members => ("\x7b" : Text) ++ shownMembers members ++ "\x7d"

def shownItems : List Value → Text
  | [] => []
  | [v] => shown v
  | v :: rest => shown v ++ ", " ++ shownItems rest

def shownMembers : List (Text × Value) → Text
  | [] => []
  | [(name, v)] => Text.quoted name ++ ": " ++ shown v
  | (name, v) :: rest => Text.quoted name ++ ": " ++ shown v ++ ", " ++ shownMembers rest

end

end Toml
end ResourceFinder
