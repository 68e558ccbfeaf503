import ResourceFinder.CommandLine.Flag
import ResourceFinder.Number.Numeral
import ResourceFinder.Text.Quoted

/-
Reading the arguments of a command line.

A long option may be shortened to any start that no other one has.  Short options without a value
may share one argument, and a value may follow its option in the same argument.  Other arguments are
taken from the first run of them alone; what is left over is kept apart, since a reader that knows
only some of the options has to pass over the others.
-/

namespace ResourceFinder
namespace CommandLine

inductive UsageError where
  | ambiguous (argument : Text) (spellings : List Text)
  | valueMissing (f : Flag)
  | valueIgnored (f : Flag) (value : Text)
  | noInteger (f : Flag) (value : Text)
  | unrecognized (arguments : List Text)
  deriving DecidableEq

namespace UsageError

def message : UsageError → Text
  | ambiguous argument spellings =>
    ("ambiguous option: " : Text) ++ argument ++ " could match " ++ Text.join ", " spellings
  | valueMissing f => ("argument " : Text) ++ f.title ++ ": expected one argument"
  | valueIgnored f value =>
    ("argument " : Text) ++ f.title ++ ": ignored explicit argument " ++ Text.quoted value
  | noInteger f value =>
    ("argument " : Text) ++ f.title ++ ": invalid int value: " ++ Text.quoted value
  | unrecognized arguments =>
    ("unrecognized arguments: " : Text) ++ Text.join " " arguments

end UsageError

inductive Halt where
  | help
  | usage (e : UsageError)

/-- An option as an argument spells it, with the value in the same argument, if there is one. -/
structure Spelled where
  flag : Flag
  spelling : Text
  value : Option Text

/-- What an argument is on its face: an option that is known or not, the mark after which there are
no more options, or anything else. -/
inductive Token where
  | known (s : Spelled)
  | unknown
  | endOfOptions
  | plain

def spellingsOf (flags : List Flag) : List (Text × Flag) :=
  flags.flatMap fun f => f.spellings.map (·, f)

def splitValue? (argument : Text) : Option (Text × Text) :=
  match argument.dropWhile (· != .char '=') with
  | [] => none
  | _ :: value => some (argument.takeWhile (· != .char '='), value)

/-- Whether an argument looks like a negative number: `-5`, `-.5`, `-1.5`. -/
def isNegativeNumber (argument : Text) : Bool :=
  match argument with
  | .char '-' :: t =>
    let t := match t.getLast? with
      | some (.char '\n') => t.dropLast
      | _ => t
    let isDigit (c : CodePoint) : Bool := c.decimalValue?.isSome
    match t.dropWhile isDigit with
    | [] => !t.isEmpty
    | c :: fraction => c = .char '.' && !fraction.isEmpty && fraction.all isDigit
  | _ => false

def candidates (flags : List Flag) (argument : Text) : List Spelled :=
  match argument with
  | .char '-' :: .char '-' :: _ =>
    let (start, value) : Text × Option Text := match splitValue? argument with
      | some (start, value) => (start, some value)
      | none => (argument, none)
    (spellingsOf flags).filterMap fun (spelling, f) =>
      if start.isPrefixOf spelling then some ⟨f, spelling, value⟩ else none
  | _ =>
    (spellingsOf flags).filterMap fun (spelling, f) =>
      if spelling = argument.take 2 then some ⟨f, spelling, some (argument.drop 2)⟩
      else if argument.isPrefixOf spelling then some ⟨f, spelling, none⟩
      else none

def tokenOf (flags : List Flag) (argument : Text) : Except UsageError Token :=
  match argument with
  | .char '-' :: _ :: _ =>
    let exact (spelling : Text) (value : Option Text) : Option Token :=
      ((spellingsOf flags).lookup spelling).map fun f => .known ⟨f, spelling, value⟩
    let withValue : Option Token := do
      let (spelling, value) ← splitValue? argument
      exact spelling (some value)
    match (exact argument none).or withValue with
    | some t => .ok t
    | none =>
      match candidates flags argument with
      | [s] => .ok (.known s)
      | [] =>
        if isNegativeNumber argument || argument.contains (.char ' ') then .ok .plain
        else .ok .unknown
      | several => .error (.ambiguous argument (several.map Spelled.spelling))
  | _ => .ok .plain

def tokensOf (flags : List Flag) : List Text → Except UsageError (List (Text × Token))
  | [] => .ok []
  | argument :: rest =>
    if argument = ("--" : Text) then
      .ok ((argument, .endOfOptions) :: rest.map (·, Token.plain))
    else do
      let t ← tokenOf flags argument
      return (argument, t) :: (← tokensOf flags rest)

def Token.isOption : Token → Bool
  | known _ | unknown => true
  | _ => false

structure Given where
  flag : Flag
  value : Text

/-- What was read: the options in order, the other arguments, and what is left over. -/
structure Arguments where
  given : List Given
  patterns : List Text
  leftOver : List Text

/-- The options in an argument: those without a value that share it, and the last one with the value
in the argument, if there is one.  The rule is that of release 3.11.2 of the argument parser: an
equals sign after a short option in a cluster belongs to its value, and what follows an option
without a value and is no option is refused.  Later releases take the sign off, and pass over what is
no option. -/
def cluster (flags : List Flag) (f : Flag) (spelling : Text) :
    Option Text → Except UsageError (List Flag × Flag × Option Text)
  | none => .ok ([], f, none)
  | some [] => if f.takesValue then .ok ([], f, some []) else .error (.valueIgnored f [])
  | some (c :: rest) =>
    if f.takesValue then .ok ([], f, some (c :: rest))
    else if (spelling.drop 1).head? = some (.char '-') then
      .error (.valueIgnored f (c :: rest))
    else
      let next : Text := [.char '-', c]
      match (spellingsOf flags).lookup next with
      | none => .error (.valueIgnored f (c :: rest))
      | some g =>
        let value := if rest.isEmpty then none else some rest
        (cluster flags g next value).map fun (before, last, value) => (f :: before, last, value)
termination_by value => value.elim 0 (·.length + 1)
decreasing_by
  cases rest <;> simp

def check (g : Given) : Except Halt Given :=
  if g.flag = .help then .error .help
  else if g.flag = .filesMaxSize && (Numeral.limitedInteger? g.value).isNone then
    .error (.usage (.noInteger g.flag g.value))
  else .ok g

/-- Reads arguments from one on; `patterns` is the run of other arguments, once there was one. -/
def readFrom (flags : List Flag) : (fuel : Nat) → Option (List Text) → List (Text × Token) →
    Except Halt Arguments
  | 0, patterns, _ => .ok ⟨[], patterns.getD [], []⟩
  | fuel + 1, patterns, rest =>
    let run := (rest.takeWhile (!·.2.isOption)).map (·.1)
    match rest.dropWhile (!·.2.isOption) with
    | [] =>
      match patterns with
      | none => .ok ⟨[], run.erase "--", []⟩
      | some patterns => .ok ⟨[], patterns, run⟩
    | (argument, token) :: after => do
      let (patterns, leftOver) : Option (List Text) × List Text :=
        if run.isEmpty then (patterns, [])
        else match patterns with
          | none => (some run, [])
          | some patterns => (some patterns, run)
      match token with
      | .known s =>
        let (before, last, value) ←
          (cluster flags s.flag s.spelling s.value).mapError Halt.usage
        let (value, after) : Text × List (Text × Token) ←
          match value, last.takesValue, after with
          | some value, _, _ => .ok (value, after)
          | none, false, _ => .ok ([], after)
          | none, true, (value, .plain) :: after => .ok (value, after)
          | none, true, _ => .error (.usage (.valueMissing last))
        let given ← (before.map (Given.mk · []) ++ [Given.mk last value]).mapM check
        let more ← readFrom flags fuel patterns after
        return { more with given := given ++ more.given, leftOver := leftOver ++ more.leftOver }
      | _ =>
        let more ← readFrom flags fuel patterns after
        return { more with leftOver := leftOver ++ argument :: more.leftOver }

def read (flags : List Flag) (arguments : List Text) : Except Halt Arguments := do
  let tokens ← (tokensOf flags arguments).mapError .usage
  readFrom flags (tokens.length + 1) none tokens

end CommandLine
end ResourceFinder
