import ResourceFinder.Markdown.Basic
import ResourceFinder.Text.Character
import ResourceFinder.Text.Input

/-
Reading running text.

A run of stars or low lines may open an emphasis, or close one, by what is on either side of it.  A
run that closes is matched with the nearest run before it that opens and has the same sign; what is
left without a match is ordinary text.
-/

namespace ResourceFinder
namespace Markdown

/-- A run of signs that may begin or end an emphasis. -/
structure Run where
  sign : Char
  count : Nat
  opens : Bool
  closes : Bool

/-- A part of running text that is read so far, or a run that is still without a match. -/
inductive Piece where
  | part (i : Inline)
  | run (r : Run)

def isPunctuation (c : CodePoint) : Bool :=
  (0x21 ≤ c.code && c.code ≤ 0x2F) || (0x3A ≤ c.code && c.code ≤ 0x40) ||
    (0x5B ≤ c.code && c.code ≤ 0x60) || (0x7B ≤ c.code && c.code ≤ 0x7E)

/-- The run of a sign with the code points on its two sides, where the ends of the text count as
blanks. -/
def Run.of (sign : Char) (count : Nat) (before after : Option CodePoint) : Run :=
  let blankBefore := before.all CodePoint.isBlank
  let blankAfter := after.all CodePoint.isBlank
  let markBefore := before.any isPunctuation
  let markAfter := after.any isPunctuation
  let left := !blankAfter && (!markAfter || blankBefore || markBefore)
  let right := !blankBefore && (!markBefore || blankAfter || markAfter)
  if sign = '*' then ⟨sign, count, left, right⟩
  else ⟨sign, count, left && (!right || markBefore), right && (!left || markAfter)⟩

def Run.text (r : Run) : Text := List.replicate r.count (.char r.sign)

def mergeTexts : List Inline → List Inline
  | .text s :: .text t :: rest => mergeTexts (.text (s ++ t) :: rest)
  | i :: rest => i :: mergeTexts rest
  | [] => []
termination_by parts => parts.length

/-- The parts of pieces that come last first, with runs without a match as texts. -/
def partsOf (pieces : List Piece) : List Inline :=
  mergeTexts <| pieces.reverse.map fun
    | .part i => i
    | .run r => .text r.text

/-- Whether one run may open what another one closes.  Where one of them could do both, the lengths
must not add up to a multiple of three, unless both are one. -/
def Run.matches (opener closer : Run) : Bool :=
  opener.sign = closer.sign && opener.opens &&
    (!(opener.closes || closer.opens) || (opener.count + closer.count) % 3 ≠ 0 ||
      (opener.count % 3 = 0 && closer.count % 3 = 0))

/-- The pieces after the nearest run that a run may close, that run, and the pieces before it. -/
def opener? (closer : Run) : List Piece → Option (List Piece × Run × List Piece)
  | [] => none
  | .run r :: rest =>
    if r.matches closer then some ([], r, rest)
    else (opener? closer rest).map fun (inner, o, outer) => (.run r :: inner, o, outer)
  | .part i :: rest =>
    (opener? closer rest).map fun (inner, o, outer) => (.part i :: inner, o, outer)

/-- Adds a run to pieces that come last first; each round uses up signs of the run. -/
def addRun : (fuel : Nat) → Run → List Piece → List Piece
  | 0, r, pieces => .run r :: pieces
  | fuel + 1, r, pieces =>
    if r.count = 0 then pieces
    else if !r.closes then .run r :: pieces
    else match opener? r pieces with
      | none => if r.opens then .run r :: pieces else .part (.text r.text) :: pieces
      | some (inner, o, outer) =>
        let used := if o.count ≥ 2 && r.count ≥ 2 then 2 else 1
        let part := if used = 2 then Inline.strong (partsOf inner) else .emphasis (partsOf inner)
        let outer := if o.count = used then outer
          else .run { o with count := o.count - used } :: outer
        addRun fuel { r with count := r.count - used } (.part part :: outer)

/-- The content of a code span: line ends are blanks, and one blank at each end is dropped where
there is more than blanks. -/
def codeText (t : Text) : Text :=
  let t := t.replaceChar '\n' ' '
  let blank : CodePoint := .char ' '
  if t.length ≥ 2 && t.head? = some blank && t.getLast? = some blank && t.any (· != blank) then
    (t.drop 1).dropLast
  else t

/-- The content of a code span before as many back quotes as opened it, and what follows them. -/
def codeSpan? (width : Nat) : (fuel : Nat) → Text → Option (Text × Text)
  | 0, _ => none
  | fuel + 1, t =>
    match t with
    | [] => none
    | c :: rest =>
      if c = .char '`' then
        let quotes := t.takeWhile (· = .char '`')
        let after := t.drop quotes.length
        if quotes.length = width then some ([], after)
        else (codeSpan? width fuel after).map fun (code, after) => (quotes ++ code, after)
      else (codeSpan? width fuel rest).map fun (code, after) => (c :: code, after)

def bracketed? (depth : Nat) : Text → Option (Text × Text)
  | [] => none
  | .char '[' :: t =>
    (bracketed? (depth + 1) t).map fun (inner, after) => (.char '[' :: inner, after)
  | .char ']' :: t =>
    match depth with
    | 0 => some ([], t)
    | depth + 1 => (bracketed? depth t).map fun (inner, after) => (.char ']' :: inner, after)
  | c :: t => (bracketed? depth t).map fun (inner, after) => (c :: inner, after)

def title? : Text → Option (Text × Text)
  | .char '"' :: t =>
    match t.dropWhile (· != .char '"') with
    | _ :: after => some (t.takeWhile (· != .char '"'), after)
    | [] => none
  | .char '\'' :: t =>
    match t.dropWhile (· != .char '\'') with
    | _ :: after => some (t.takeWhile (· != .char '\''), after)
    | [] => none
  | _ => none

/-- Where a link leads, its title, and what follows the parenthesis that closes both. -/
def linkTarget? (t : Text) : Option (Text × Option Text × Text) :=
  match t with
  | .char '(' :: t =>
    let t := t.dropWhile CodePoint.isBlank
    let inside (c : CodePoint) : Bool := !c.isBlank && c != .char ')'
    let (target, rest) := match t with
      | .char '<' :: t =>
        let inBrackets (c : CodePoint) : Bool := c != CodePoint.char '>'
        (t.takeWhile inBrackets, (t.dropWhile inBrackets).drop 1)
      | t => (t.takeWhile inside, t.dropWhile inside)
    let (title, rest) : Option Text × Text :=
      match title? (rest.dropWhile CodePoint.isBlank) with
      | some (title, rest) => (some title, rest)
      | none => (none, rest)
    match rest.dropWhile CodePoint.isBlank with
    | .char ')' :: after => some (target, title, after)
    | _ => none
  | _ => none

def addChar (c : CodePoint) : List Piece → List Piece
  | .part (.text t) :: rest => .part (.text (t ++ [c])) :: rest
  | pieces => .part (.text [c]) :: pieces

def dropBlanks : List Piece → List Piece × Nat
  | .part (.text t) :: rest =>
    let kept := t.dropEndWhile (· = .char ' ')
    ((if kept.isEmpty then rest else .part (.text kept) :: rest), t.length - kept.length)
  | pieces => (pieces, 0)

def piecesFrom : (fuel : Nat) → (before : Option CodePoint) → List Piece → Text → List Piece
  | 0, _, pieces, _ => pieces
  | fuel + 1, before, pieces, t =>
    match t with
    | [] => pieces
    | .char '\\' :: .char '\n' :: rest =>
      piecesFrom fuel (some (.char '\n')) (.part (.lineBreak false) :: pieces) rest
    | .char '\\' :: c :: rest =>
      if isPunctuation c then piecesFrom fuel (some c) (addChar c pieces) rest
      else piecesFrom fuel (some (.char '\\')) (addChar (.char '\\') pieces) (c :: rest)
    | .char '\n' :: rest =>
      let (pieces, blanks) := dropBlanks pieces
      piecesFrom fuel (some (.char '\n')) (.part (.lineBreak (blanks < 2)) :: pieces) rest
    | .char '`' :: rest =>
      let width := 1 + (rest.takeWhile (· = .char '`')).length
      let after := t.drop width
      match codeSpan? width (after.length + 1) after with
      | some (code, after) =>
        piecesFrom fuel (some (.char '`')) (.part (.code (codeText code)) :: pieces) after
      | none => piecesFrom fuel (some (.char '`'))
          ((t.take width).foldl (fun pieces c => addChar c pieces) pieces) after
    | .char '[' :: rest =>
      let link? := do
        let (inner, after) ← bracketed? 0 rest
        let (target, title, after) ← linkTarget? after
        return (inner, target, title, after)
      match link? with
      | some (inner, target, title, after) =>
        let parts := partsOf (piecesFrom fuel none [] inner)
        piecesFrom fuel (some (.char ')')) (.part (.link target title parts) :: pieces) after
      | none => piecesFrom fuel (some (.char '[')) (addChar (.char '[') pieces) rest
    | c :: rest =>
      if c = .char '*' || c = .char '_' then
        let sign : Char := if c = .char '*' then '*' else '_'
        let count := 1 + (rest.takeWhile (· = c)).length
        let after := t.drop count
        let r := Run.of sign count before after.head?
        piecesFrom fuel (some c) (addRun (count + 1) r pieces) after
      else piecesFrom fuel (some c) (addChar c pieces) rest

def Inline.ofText (t : Text) : List Inline := partsOf (piecesFrom (t.length + 1) none [] t)

end Markdown
end ResourceFinder
