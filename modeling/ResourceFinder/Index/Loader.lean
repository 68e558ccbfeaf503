import ResourceFinder.Index.Query
import ResourceFinder.Json.Parser
import ResourceFinder.Markdown.Parser
import ResourceFinder.Properties.Parser
import ResourceFinder.Toml.Parser

/-
The loaders for common formats.
-/

namespace ResourceFinder
namespace Loader

/-- The loader that makes a value of the files as they are. -/
def ofFiles {α : Type} (value : FileSystem → Location → Except Fault α) : Loader Reading α :=
  fun l fs => value fs l

def defaultEncoding : Text := "utf-8"

def bytes (overlap : Archive.Overlap := .allowed) : Loader Reading Bytes :=
  ofFiles fun fs l => l.read fs overlap

def text (encoding : Text) : Loader Reading Text := ofFiles fun fs l => l.readText fs encoding

def properties (encoding : Text) : Loader Reading Properties := ofFiles fun fs l => do
  (Properties.parse (← l.readText fs encoding)).mapError .properties

def json : Loader Reading Json.Value := ofFiles fun fs l => do
  (Json.parse (← l.read fs)).mapError .json

def toml : Loader Reading Toml.Table := ofFiles fun fs l => do
  (Toml.parse (← l.readText fs defaultEncoding)).mapError .toml

def markdown : Loader Reading Markdown := ofFiles fun fs l => do
  return Markdown.parse (← l.readText fs defaultEncoding)

end Loader
end ResourceFinder
