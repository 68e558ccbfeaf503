import ResourceFinder.FileSystem.Lookup
import ResourceFinder.Text.Lines
import ResourceFinder.Text.Utf8

/-
Files of text: UTF-8, with any natural line end read as a line feed.
-/

namespace ResourceFinder

inductive TextFileError where
  | path (e : PathError)
  | encoding (e : DecodeError)
  deriving DecidableEq

namespace TextFileError

def message : TextFileError → Text
  | path e => e.message
  | encoding e => e.message

end TextFileError

def FileSystem.readText (fs : FileSystem) (p : Path) : Except TextFileError Text := do
  let octets ← (fs.read p).mapError .path
  return (← (Utf8.decode octets).mapError .encoding).unifyLineEnds

end ResourceFinder
