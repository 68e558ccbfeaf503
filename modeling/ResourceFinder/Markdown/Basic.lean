import ResourceFinder.Text.Basic

/-
Markdown documents as trees of blocks, with the parts of running text in them.
-/

namespace ResourceFinder
namespace Markdown

inductive Inline where
  | text (t : Text)
  | code (t : Text)
  | emphasis (parts : List Inline)
  | strong (parts : List Inline)
  | link (target : Text) (title : Option Text) (parts : List Inline)
  | lineBreak (soft : Bool)

/-- A block of a document; the items of a list are lists of blocks. -/
inductive Block where
  | heading (level : Nat) (parts : List Inline)
  | paragraph (parts : List Inline)
  | blankLine
  | rule
  | fencedCode (language extra code : Text)
  | indentedCode (code : Text)
  | list (bullet : Text) (ordered : Bool) (start : Nat) (tight : Bool) (items : List (List Block))
  | quote (blocks : List Block)

end Markdown

abbrev Markdown := List Markdown.Block

end ResourceFinder
