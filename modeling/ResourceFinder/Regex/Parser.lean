import ResourceFinder.Number.Numeral
import ResourceFinder.Regex.Escape

/-
Reading an expression, one part after the other, with the groups that are still open on a stack.
-/

namespace ResourceFinder
namespace Regex

inductive Opening where
  | whole
  | plain
  | capture (index : Nat)
  | atomic
  | ahead (wanted : Bool)
  | behind (wanted : Bool) (outer : Option Nat)
  | conditional (index : Nat)

/-- What a part is to a repetition sign after it: a place is nothing to repeat, and a repetition
cannot be repeated again. -/
inductive PartKind where
  | ordinary
  | place
  | repetition
  deriving DecidableEq

/-- A group that is still open: where it began, the options inside it, its finished alternatives and
the parts of the current one, both last first. -/
structure Frame where
  opening : Opening
  start : Nat
  flags : Flags
  finished : List Node
  parts : List (Node × PartKind)

/-- What is known between two parts: the groups that are open, innermost first, how many groups
there are, their names, the widths of those that are closed, how many there were when the outermost
open look-behind began, the groups that conditions ask about and where, and the letters of the
options for the whole expression. -/
structure State where
  frame : Frame
  outer : List Frame
  groups : Nat
  names : List (Text × Nat)
  widths : List (Nat × Nat × Option Nat)
  lookbehindGroups : Option Nat
  asked : List (Nat × Nat)
  letters : List Char

namespace State

def start (flags : Flags) : State :=
  ⟨⟨.whole, 0, flags, [], []⟩, [], 0, [], [], none, [], []⟩

def add (st : State) (n : Node) (kind : PartKind := .ordinary) : State :=
  { st with frame := { st.frame with parts := (n, kind) :: st.frame.parts } }

def addTest (st : State) (test : Test) : State := st.add (.one st.frame.flags test)

def addCode (st : State) (n : Nat) : State := st.addTest (.set false [.single n])

/-- Refuses a reference, inside a look-behind, to a group that is open or began inside it too. -/
def checkLookbehind (st : State) (index position : Nat) : Reading Unit :=
  match st.lookbehindGroups with
  | none => .ok ()
  | some known =>
    if (st.widths.lookup index).isNone then fail position .openGroupReference
    else if index > known then fail position .lookbehindGroupReference
    else .ok ()

/-- Options for characters of one kind and of the other exclude each other. -/
def checkLetters (st : State) : Reading Unit :=
  if st.letters.contains 'a' && st.letters.contains 'u' then .error ⟨.clashingLetters, none⟩
  else .ok ()

def openGroup (st : State) (opening : Opening) (start : Nat) (flags : Flags) : State :=
  { st with frame := ⟨opening, start, flags, [], []⟩, outer := st.frame :: st.outer }

end State

namespace Frame

def alternatives (f : Frame) : List Node :=
  (Node.sequenceOf (f.parts.reverse.map (·.1)) :: f.finished).reverse

end Frame

/-- A name of a group: no digit first, then letters, digits and low lines. -/
def isName : Text → Bool
  | [] => false
  | c :: t => c.isWord && c.decimalValue?.isNone && t.all CodePoint.isWord

def reference (st : State) (index position : Nat) (lookbehindPosition : Nat) : Reading State :=
  if (st.widths.lookup index).isNone then fail position .openGroupReference
  else do
    st.checkLookbehind index lookbehindPosition
    return st.add (.sameAs st.frame.flags index)

/-- An escape that begins with a digit other than zero: three octal digits, or the number of a
group. -/
def digitEscape (first : CodePoint) (st : State) (s : Source) : Reading (State × Source) := do
  let (second, s) ← s.takeWhile CodePoint.isDigit 1
  let (third, s) ←
    if Escape.isOctal first && !second.isEmpty && second.all Escape.isOctal then
      s.takeWhile Escape.isOctal 1
    else .ok ([], s)
  let digits := first :: (second ++ third)
  let escape : Text := .char '\\' :: digits
  if third.isEmpty then
    let index := Escape.value 10 digits
    if index ≤ st.groups then
      return (← reference st index (s.position - escape.length) s.position, s)
    else fail (s.position - (escape.length - 1)) (.unknownGroup index)
  else
    let n := Escape.value 8 digits
    if n > 0xFF then fail (s.position - escape.length) (.largeOctal escape)
    else return (st.addCode n, s)

def escape (c : CodePoint) (st : State) (s : Source) : Reading (State × Source) :=
  match c.toChar?.bind Escape.place?, c.toChar?.bind Escape.category?,
      c.toChar?.bind Escape.controlCode? with
  | some p, _, _ => .ok (st.add (.place st.frame.flags p) .place, s)
  | none, some m, _ => .ok (st.addTest (.set false [m]), s)
  | none, none, some n => .ok (st.addCode n, s)
  | none, none, none =>
    if c = .char '0' then do
      let (digits, s) ← s.takeWhile Escape.isOctal 2
      return (st.addCode (Escape.value 8 digits), s)
    else if c.isDigit then digitEscape c st s
    else do
      let (n, s) ← Escape.code c s
      return (st.addCode n, s)

def setMember (t : Token) (s : Source) : Reading (Member × Source) :=
  match t with
  | .plain c => .ok (.single c.code, s)
  | .escaped c => Escape.member c s
  | .dangling => fail s.position .danglingEscape

/-- The members of a set up to the bracket that closes it, last first; the bracket is itself a
member where it comes first. -/
def setMembers (start : Nat) (members : List Member) :
    (fuel : Nat) → Source → Reading (List Member × Source)
  | 0, _ => fail start .unterminatedSet
  | fuel + 1, s => do
    let (token, s) ← s.take
    match token with
    | none => fail start .unterminatedSet
    | some low =>
      if low = .plain (.char ']') && !members.isEmpty then return (members, s)
      else
        let (lowMember, s) ← setMember low s
        let (dash, s) ← s.pass '-'
        if !dash then setMembers start (lowMember :: members) fuel s
        else
          let (token, s) ← s.take
          match token with
          | none => fail start .unterminatedSet
          | some high =>
            if high = .plain (.char ']') then
              return (.single '-'.toNat :: lowMember :: members, s)
            else
              let (highMember, s) ← setMember high s
              let bad : Reading (List Member × Source) :=
                fail (s.position - (low.text.length + 1 + high.text.length))
                  (.badRange low.text high.text)
              match lowMember, highMember with
              | .single a, .single b =>
                if b < a then bad else setMembers start (.range a b :: members) fuel s
              | _, _ => bad

def set (st : State) (s : Source) : Reading (State × Source) := do
  let start := s.position - 1
  let (negated, s) ← s.pass '^'
  let (members, s) ← setMembers start [] (s.rest.length + 1) s
  return (st.addTest (.set negated members.reverse), s)

def repeatLast (least : Nat) (most : Option Nat) (sign : Nat) (st : State) (s : Source) :
    Reading (State × Source) :=
  match st.frame.parts with
  | [] => fail sign .nothingToRepeat
  | (_, .place) :: _ => fail sign .nothingToRepeat
  | (_, .repetition) :: _ => fail sign .multipleRepeat
  | (body, .ordinary) :: parts => do
    let (isLazy, s) ← s.pass '?'
    let (isPossessive, s) ← if isLazy then .ok (false, s) else s.pass '+'
    let manner := if isLazy then .lazy else if isPossessive then .possessive else .greedy
    let part := (Node.repeated least most manner body, PartKind.repetition)
    return ({ st with frame := { st.frame with parts := part :: parts } }, s)

/-- No count can be as great as this, and no look-behind wider. -/
def repeatLimit : Nat := 4294967295

/-- A count from its digits; without any, the given one. -/
def count {α : Type} (ofNat : Nat → α) (otherwise : α) (digits : Text) : Reading α :=
  if digits.isEmpty then .ok otherwise
  else if digits.length > Numeral.digitLimit then .error ⟨.longRepeat digits.length, none⟩
  else if Escape.value 10 digits ≥ repeatLimit then .error ⟨.hugeRepeat, none⟩
  else .ok (ofNat (Escape.value 10 digits))

/-- A repetition with counts in braces, with the opening brace already taken; a brace that opens no
counts stands for itself. -/
def countedRepeat (st : State) (s : Source) : Reading (State × Source) := do
  let here := s
  if s.rest.head? = some (.plain (.char '\x7d')) then return (st.addCode '\x7b'.toNat, s)
  let (low, s) ← s.takeWhile CodePoint.isDigit s.rest.length
  let (comma, s) ← s.pass ','
  let (high, s) ← if comma then s.takeWhile CodePoint.isDigit s.rest.length else .ok (low, s)
  let (closed, s) ← s.pass '\x7d'
  if !closed then return (st.addCode '\x7b'.toNat, here)
  let least ← count id 0 low
  let most ← count some none high
  if most.any (· < least) then fail here.position .reversedBounds
  else repeatLast least most (here.position - 1) st s

def flagLetters : List Char := ['i', 'L', 'm', 's', 'x', 'a', 't', 'u']

namespace Flags

def put (on : Bool) (letter : Char) (flags : Flags) : Flags :=
  match letter with
  | 'i' => { flags with ignoreCase := on }
  | 'm' => { flags with multiline := on }
  | 's' => { flags with dotAll := on }
  | 'x' => { flags with verbose := on }
  | 'a' => { flags with ascii := on }
  | 'u' => { flags with ascii := !on }
  | _ => flags

def putAll (on : Bool) (letters : List Char) (flags : Flags) : Flags :=
  letters.foldl (fun f letter => f.put on letter) flags

end Flags

def flagLetter? : Token → Option Char
  | .plain (.char c) => if flagLetters.contains c then some c else none
  | _ => none

def badFlag (t : Token) (s : Source) (otherwise : Problem) {α : Type} : Reading α :=
  let isLetter : Bool := match t with
    | .plain c => c.isWord && c.decimalValue?.isNone && c != .char '_'
    | _ => false
  fail (s.position - t.text.length) (if isLetter then .unknownFlag else otherwise)

def flagsOn (letter : Char) (on : List Char) :
    (fuel : Nat) → Source → Reading (List Char × Token × Source)
  | 0, s => fail s.position .missingFlagEnd
  | fuel + 1, s => do
    if letter = 'L' then fail s.position .localeFlag
    let on := letter :: on
    if (letter = 'a' && on.contains 'u') || (letter = 'u' && on.contains 'a') then
      fail s.position .clashingFlags
    let (token, s) ← s.take
    match token with
    | none => fail s.position .missingFlagEnd
    | some t =>
      if [')', '-', ':'].any (fun c => t = .plain (.char c)) then return (on, t, s)
      else match flagLetter? t with
        | some letter => flagsOn letter on fuel s
        | none => badFlag t s .missingFlagEnd

def flagsOff (letter : Char) (off : List Char) :
    (fuel : Nat) → Source → Reading (List Char × Source)
  | 0, s => fail s.position .missingFlagColon
  | fuel + 1, s => do
    if ['a', 'u', 'L'].contains letter then fail s.position .typeFlagOff
    let off := letter :: off
    let (token, s) ← s.take
    match token with
    | none => fail s.position .missingFlagColon
    | some t =>
      if t = .plain (.char ':') then return (off, s)
      else match flagLetter? t with
        | some letter => flagsOff letter off fuel s
        | none => badFlag t s .missingFlagColon

def options (first : Token) (start : Nat) (st : State) (s : Source) :
    Reading (State × Source) := do
  let fuel := s.rest.length + 1
  let (on, last, s) ← match flagLetter? first with
    | some letter => flagsOn letter [] fuel s
    | none => .ok ([], first, s)
  if last = .plain (.char ')') then
    match st.frame with
    | ⟨.whole, _, flags, [], []⟩ =>
      let frame : Frame := ⟨.whole, 0, flags.putAll true on, [], []⟩
      return ({ st with frame, letters := on ++ st.letters }, s)
    | _ => fail start .misplacedFlags
  else do
    if on.contains 't' then fail (s.position - 1) .templateOn
    let (off, s) ←
      if last = .plain (.char '-') then do
        let (token, s) ← s.take
        match token with
        | none => fail s.position .missingFlag
        | some t =>
          match flagLetter? t with
          | some letter => flagsOff letter [] fuel s
          | none => badFlag t s .missingFlag
      else .ok ([], s)
    if off.contains 't' then fail (s.position - 1) .templateOff
    if on.any off.contains then fail (s.position - 1) .flagOnAndOff
    let flags := (st.frame.flags.putAll true on).putAll false off
    return (st.openGroup .plain start flags, s)

def comment (start : Nat) : (fuel : Nat) → Source → Reading Source
  | 0, _ => fail start .unterminatedComment
  | fuel + 1, s => do
    let (token, s) ← s.take
    match token with
    | none => fail start .unterminatedComment
    | some t => if t = .plain (.char ')') then return s else comment start fuel s

def openCapture (name : Option Text) (start : Nat) (st : State) (s : Source) :
    Reading (State × Source) :=
  let index := st.groups + 1
  let opened := (st.openGroup (.capture index) start st.frame.flags)
  match name with
  | none => .ok ({ opened with groups := index }, s)
  | some name =>
    match st.names.lookup name with
    | some earlier =>
      fail (s.position - (name.length + 1)) (.repeatedGroupName name index earlier)
    | none => .ok ({ opened with groups := index, names := (name, index) :: st.names }, s)

def named (start : Nat) (st : State) (s : Source) : Reading (State × Source) := do
  let (opens, s) ← s.pass '<'
  if opens then
    let (name, s) ← s.name "group name" '>'
    if !isName name then fail (s.position - (name.length + 1)) (.badNameCharacter name)
    openCapture (some name) start st s
  else
    let (refers, s) ← s.pass '='
    if refers then
      let (name, s) ← s.name "group name" ')'
      let position := s.position - (name.length + 1)
      if !isName name then fail position (.badNameCharacter name)
      match st.names.lookup name with
      | none => fail position (.unknownGroupName name)
      | some index => return (← reference st index position s.position, s)
    else
      let (token, s) ← s.take
      match token with
      | none => fail s.position .unexpectedEnd
      | some t =>
        fail (s.position - (t.text.length + 2)) (.unknownExtension (.char 'P' :: t.text))

def condition (start : Nat) (st : State) (s : Source) : Reading (State × Source) := do
  let (name, s) ← s.name "group name" ')'
  let position := s.position - (name.length + 1)
  let (index, asked) ←
    if isName name then
      match st.names.lookup name with
      | none => fail position (.unknownGroupName name)
      | some index => pure (index, st.asked)
    else
      match Numeral.limitedInteger? name with
      | some (.ofNat index) =>
        if index = 0 then fail position .badGroupNumber
        else pure (index,
          if (st.asked.lookup index).isSome then st.asked else st.asked ++ [(index, position)])
      | _ => fail position (.badNameCharacter name)
  st.checkLookbehind index s.position
  return ({ st with asked }.openGroup (.conditional index) start st.frame.flags, s)

def group (st : State) (s : Source) : Reading (State × Source) := do
  let start := s.position - 1
  let flags := st.frame.flags
  let (special, s) ← s.pass '?'
  if !special then openCapture none start st s
  else
    let (token, s) ← s.take
    match token with
    | none => fail s.position .unexpectedEnd
    | some (.plain (.char 'P')) => named start st s
    | some (.plain (.char ':')) => return (st.openGroup .plain start flags, s)
    | some (.plain (.char '#')) => return (st, ← comment start (s.rest.length + 1) s)
    | some (.plain (.char '=')) => return (st.openGroup (.ahead true) start flags, s)
    | some (.plain (.char '!')) => return (st.openGroup (.ahead false) start flags, s)
    | some (.plain (.char '<')) =>
      let (token, s) ← s.take
      let behind (wanted : Bool) : State :=
        { st.openGroup (.behind wanted st.lookbehindGroups) start flags with
          lookbehindGroups := st.lookbehindGroups.or (some st.groups) }
      match token with
      | none => fail s.position .unexpectedEnd
      | some (.plain (.char '=')) => return (behind true, s)
      | some (.plain (.char '!')) => return (behind false, s)
      | some t => fail (s.position - (t.text.length + 2)) (.unknownExtension (.char '<' :: t.text))
    | some (.plain (.char '(')) => condition start st s
    | some (.plain (.char '>')) => return (st.openGroup .atomic start flags, s)
    | some t =>
      if t = .plain (.char '-') || (flagLetter? t).isSome then options t start st s
      else fail (s.position - (t.text.length + 1)) (.unknownExtension t.text)

def alternative (st : State) (s : Source) : Reading (State × Source) :=
  match st.frame.opening, st.frame.finished with
  | .conditional _, _ :: _ => fail s.position .tooManyBranches
  | _, _ => do
    let frame := st.frame
    let finished := Node.sequenceOf (frame.parts.reverse.map (·.1)) :: frame.finished
    return ({ st with frame := { frame with finished, parts := [] } }, (← s.take).2)

def closeGroup (st : State) (s : Source) : Reading (State × Source) :=
  match st.outer with
  | [] => do
    st.checkLetters
    fail s.position .unbalancedParenthesis
  | frame :: outer => do
    let s := (← s.take).2
    let body := Node.eitherOf st.frame.alternatives
    let st' := { st with frame, outer }
    match st.frame.opening with
    | .whole => return (st'.add body, s)
    | .plain => return (st'.add body, s)
    | .capture index =>
      let widths := (index, body.widths st.widths) :: st.widths
      return ({ st' with widths }.add (.group index body), s)
    | .atomic => return (st'.add (.atomic body), s)
    | .ahead wanted => return (st'.add (.ahead wanted body), s)
    | .behind wanted lookbehindGroups =>
      let (low, _) := body.widths st.widths
      return ({ st' with lookbehindGroups }.add (.behind wanted low body), s)
    | .conditional index =>
      let (yes, no) := match st.frame.alternatives with
        | [yes, no] => (yes, no)
        | alternatives => (Node.eitherOf alternatives, .empty)
      return (st'.add (.ifGroup index yes no), s)

def skipLine : (fuel : Nat) → Source → Reading Source
  | 0, s => .ok s
  | fuel + 1, s => do
    let (token, s) ← s.take
    match token with
    | none => return s
    | some t => if t = .plain (.char '\n') then return s else skipLine fuel s

/-- The blanks that an expression in the verbose style may hold for the reader. -/
def isFiller (c : CodePoint) : Bool := c.isOneOf [' ', '\t', '\n', '\r', '\x0b', '\x0c']

def part (c : CodePoint) (st : State) (s : Source) : Reading (State × Source) :=
  if st.frame.flags.verbose && isFiller c then .ok (st, s)
  else if st.frame.flags.verbose && c = .char '#' then do
    return (st, ← skipLine (s.rest.length + 1) s)
  else match c with
    | .char '[' => set st s
    | .char '?' => repeatLast 0 (some 1) (s.position - 1) st s
    | .char '*' => repeatLast 0 none (s.position - 1) st s
    | .char '+' => repeatLast 1 none (s.position - 1) st s
    | .char '\x7b' => countedRepeat st s
    | .char '.' => .ok (st.addTest .any, s)
    | .char '(' => group st s
    | .char '^' => .ok (st.add (.place st.frame.flags .lineStart) .place, s)
    | .char '$' => .ok (st.add (.place st.frame.flags .lineEnd) .place, s)
    | c => .ok (st.addCode c.code, s)

def widthProblem? (low : Nat) (high : Option Nat) : Option Problem :=
  if low > repeatLimit then some .distantLookbehind
  else if high ≠ some low then some .variableLookbehind
  else none

/-- What rules out that a tree is ever matched: of its look-behinds whose width will not do and, in a
template, of its repetitions, the first one has a problem. -/
def Node.problem? (template : Bool) (groups : List (Nat × Nat × Option Nat)) : Node → Option Problem
  | empty | one _ _ | sameAs _ _ | place _ _ => none
  | sequence a b | either a b | ifGroup _ a b =>
    (a.problem? template groups).or (b.problem? template groups)
  | group _ body | atomic body | ahead _ body => body.problem? template groups
  | repeated _ _ manner body =>
    if template then some (.templateRepeat manner) else body.problem? template groups
  | behind _ _ body =>
    let (low, high) := body.widths groups
    (widthProblem? low high).or (body.problem? template groups)

def finish (st : State) : Reading Node :=
  match st.outer with
  | _ :: _ => fail st.frame.start .unterminatedGroup
  | [] => do
    st.checkLetters
    match st.asked.find? (fun (index, _) => index > st.groups) with
    | some (index, position) => fail position (.unknownGroup index)
    | none =>
      let tree := Node.eitherOf st.frame.alternatives
      match tree.problem? (st.letters.contains 't') st.widths with
      | some problem => .error ⟨problem, none⟩
      | none => .ok tree

/-- Reads part after part; each takes a sign at least, so the signs that are left bound the
parts. -/
def parseFrom : (fuel : Nat) → State → Source → Reading Node
  | 0, st, _ => finish st
  | fuel + 1, st, s =>
    match s.rest with
    | [] => finish st
    | .plain (.char '|') :: _ => do
      let (st, s) ← alternative st s
      parseFrom fuel st s
    | .plain (.char ')') :: _ => do
      let (st, s) ← closeGroup st s
      parseFrom fuel st s
    | .plain c :: _ => do
      let (_, s) ← s.take
      let (st, s) ← part c st s
      parseFrom fuel st s
    | .escaped c :: _ => do
      let (_, s) ← s.take
      let (st, s) ← escape c st s
      parseFrom fuel st s
    | .dangling :: _ => fail s.position .danglingEscape

def parse (flags : Flags) (pattern : Text) : Except Fault Node := do
  let s ← (Source.ofText pattern).check
  parseFrom (s.rest.length + 1) (State.start flags) s

end Regex
end ResourceFinder
