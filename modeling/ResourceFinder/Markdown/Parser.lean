import ResourceFinder.Markdown.Inline
import ResourceFinder.Text.Lines

/-
Reading a Markdown document, block by block.
-/

namespace ResourceFinder
namespace Markdown

def indentOf (line : Text) : Nat := (line.takeWhile (· = .char ' ')).length

def isBlankLine (line : Text) : Bool := line.all CodePoint.isBlank

def isRule (line : Text) : Bool :=
  indentOf line ≤ 3 &&
    match line.filter (!·.isBlank) with
    | c :: rest => c.isOneOf ['-', '_', '*'] && rest.length ≥ 2 && rest.all (· = c)
    | [] => false

/-- The level and the text of a heading; signs that close it are left out. -/
def heading? (line : Text) : Option (Nat × Text) :=
  let t := line.drop (indentOf line)
  let level := (t.takeWhile (· = .char '#')).length
  let rest := t.drop level
  if indentOf line ≤ 3 && 1 ≤ level && level ≤ 6 && rest.head?.all CodePoint.isBlank then
    let content := Text.trim rest
    let opened := Text.dropEndWhile (· = .char '#') content
    if opened.isEmpty then some (level, [])
    else if opened.getLast?.any CodePoint.isBlank then some (level, Text.trim opened)
    else some (level, content)
  else none

/-- The start of code between fences: its indent, the sign and the number of signs of the fence, and
what is said after it. -/
def fence? (line : Text) : Option (Nat × CodePoint × Nat × Text) :=
  let indent := indentOf line
  match line.drop indent with
  | c :: t =>
    let width := 1 + (t.takeWhile (· = c)).length
    let info := (t.drop (width - 1)).dropWhile CodePoint.isBlank
    if indent ≤ 3 && c.isOneOf ['`', '~'] && width ≥ 3 &&
        !(c = .char '`' && info.contains (.char '`')) then
      some (indent, c, width, info)
    else none
  | [] => none

def closesFence (sign : CodePoint) (width : Nat) (line : Text) : Bool :=
  let t := line.trim
  indentOf line ≤ 3 && t.length ≥ width && t.all (· = sign)

/-- The bullet of an item, whether it is a number, how far what follows is indented, and that
text. -/
def bullet? (line : Text) : Option (Text × Bool × Nat × Text) :=
  let indent := indentOf line
  let t := line.drop indent
  let digits := t.takeWhile CodePoint.isDigit
  let after := t.drop digits.length
  match after with
  | c :: rest =>
    let ordered := !digits.isEmpty && digits.length ≤ 9 && c.isOneOf ['.', ')']
    let plain := digits.isEmpty && c.isOneOf ['-', '+', '*']
    if indent ≤ 3 && (ordered || plain) && rest.head?.all CodePoint.isBlank && !isRule line then
      let bullet := digits ++ [c]
      let gap := indentOf rest
      let gap := if rest.drop gap = [] || gap > 4 then 1 else gap
      some (bullet, ordered, indent + bullet.length + gap, rest.drop gap)
    else none
  | [] => none

/-- Whether two items belong to one list: their bullets end in the same sign. -/
def sameKind (a b : Text) : Bool := a.getLast? = b.getLast?

def quoted? (line : Text) : Option Text :=
  match line.drop (indentOf line) with
  | .char '>' :: .char ' ' :: t => if indentOf line ≤ 3 then some t else none
  | .char '>' :: t => if indentOf line ≤ 3 then some t else none
  | _ => none

def interrupts (line : Text) : Bool :=
  isBlankLine line || isRule line || (heading? line).isSome || (fence? line).isSome ||
    (quoted? line).isSome ||
    match bullet? line with
    | some (bullet, ordered, _, t) => !isBlankLine t && (!ordered || bullet.dropLast = "1")
    | none => false

def unindent (n : Nat) (line : Text) : Text := line.drop (min n (indentOf line))

/-- The lines of an item after its first one, without their indent, and the lines after the item.
Blank lines belong to the item if an indented line follows. -/
def itemLines (indent : Nat) : List Text → List Text × List Text
  | [] => ([], [])
  | line :: rest =>
    if isBlankLine line then
      match rest.dropWhile isBlankLine with
      | next :: _ =>
        if indentOf next ≥ indent then
          let (lines, after) := itemLines indent rest
          ([] :: lines, after)
        else ([], line :: rest)
      | [] => ([], line :: rest)
    else if indentOf line ≥ indent then
      let (lines, after) := itemLines indent rest
      (line.drop indent :: lines, after)
    else if interrupts line || (bullet? line).isSome then ([], line :: rest)
    else
      let (lines, after) := itemLines indent rest
      (line.drop (indentOf line) :: lines, after)

/-- The items of a list, each as its lines, whether a blank line stands between two of them, and the
lines after the list. -/
def listItems (bullet : Text) : (fuel : Nat) → List Text → List (List Text) × Bool × List Text
  | 0, lines => ([], false, lines)
  | fuel + 1, lines =>
    let blanks := (lines.takeWhile isBlankLine).length
    match lines.drop blanks with
    | [] => ([], false, lines)
    | line :: rest =>
      match bullet? line with
      | none => ([], false, lines)
      | some (b, _, indent, t) =>
        if sameKind bullet b then
          let (more, after) := itemLines indent rest
          let (items, loose, after) := listItems bullet fuel after
          ((t :: more) :: items, loose || blanks > 0, after)
        else ([], false, lines)

/-- Lines of indented code, up to the last one that is not blank, and the lines after them. -/
def indentedLines : List Text → List Text × List Text
  | [] => ([], [])
  | line :: rest =>
    if isBlankLine line then
      match indentedLines rest with
      | ([], _) => ([], line :: rest)
      | (lines, after) => (line.drop 4 :: lines, after)
    else if indentOf line ≥ 4 then
      let (lines, after) := indentedLines rest
      (line.drop 4 :: lines, after)
    else ([], line :: rest)

def endLines (lines : List Text) : Text := lines.flatMap (· ++ [.char '\n'])

def languageOf (info : Text) : Text × Text :=
  (info.takeWhile (!·.isBlank), (info.dropWhile (!·.isBlank)).dropWhile CodePoint.isBlank)

/-- The blocks of some lines.  Blank lines in a row are one block, and those that end a document
after indented code are none. -/
def blocksOf : (fuel : Nat) → List Text → List Block
  | 0, _ => []
  | _ + 1, [] => []
  | fuel + 1, line :: rest =>
    if isBlankLine line then .blankLine :: blocksOf fuel (rest.dropWhile isBlankLine)
    else if indentOf line ≥ 4 then
      let (lines, after) := indentedLines (line :: rest)
      .indentedCode (endLines lines) ::
        blocksOf fuel (if after.all isBlankLine then [] else after)
    else if isRule line then .rule :: blocksOf fuel rest
    else match heading? line, fence? line, quoted? line, bullet? line with
      | some (level, t), _, _, _ => .heading level (Inline.ofText t) :: blocksOf fuel rest
      | _, some (indent, sign, width, info), _, _ =>
        let lines := rest.takeWhile (!closesFence sign width ·)
        let (language, extra) := languageOf info
        .fencedCode language extra (endLines (lines.map (unindent indent))) ::
          blocksOf fuel (rest.drop (lines.length + 1))
      | _, _, some t, _ =>
        let lines := rest.takeWhile fun l => (quoted? l).isSome || !interrupts l
        .quote (blocksOf fuel (t :: lines.map fun l => (quoted? l).getD l)) ::
          blocksOf fuel (rest.drop lines.length)
      | _, _, _, some (bullet, ordered, _, _) =>
        let (items, loose, after) := listItems bullet (fuel + 1) (line :: rest)
        let items := items.map (blocksOf fuel)
        let start := if ordered then bullet.dropLast.foldl
          (fun n c => n * 10 + (c.hexValue?.getD 0)) 0 else 1
        let tight := !loose && items.all fun blocks =>
          blocks.all fun | .blankLine => false | _ => true
        .list bullet ordered start tight items :: blocksOf fuel after
      | none, none, none, none =>
        let lines := line :: rest.takeWhile (!interrupts ·)
        let t := Text.join "\n" (lines.map (·.dropWhile CodePoint.isBlank))
        .paragraph (Inline.ofText t) :: blocksOf fuel (rest.drop (lines.length - 1))

def parse (t : Text) : Markdown :=
  let t := t.unifyLineEnds
  let lines := Text.splitAt '\n' t
  let lines := if lines.getLast? = some [] then lines.dropLast else lines
  blocksOf (t.length + 1) lines

end Markdown
end ResourceFinder
