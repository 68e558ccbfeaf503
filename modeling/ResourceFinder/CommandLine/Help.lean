import ResourceFinder.CommandLine.Parser
import ResourceFinder.Settings.Basic

/-
What the command says about itself.
-/

namespace ResourceFinder
namespace CommandLine

def versionText : Text := "v0.1.0\n"

def ofLines (lines : List String) : Text :=
  lines.flatMap fun line => Text.ofString line ++ [.char '\n']

def usage : Text := ofLines [
  "usage: reslocator [-h] [-r PATH] [--regex EXPR] [--uri] [--cat]",
  "                  [--property KEY] [-o OUTPUT] [--exclude PATTERN]",
  "                  [--extend-exclude PATTERN] [--no-respect-gitignore]",
  "                  [--files-max-size BYTES] [-v] [--version]",
  "                  [patterns ...]"]

def help : Text := usage ++ ofLines [
  "",
  "reslocator: Find resources in directories and archives by glob pattern",
  "",
  "positional arguments:",
  "  patterns              Glob patterns to match resource names against (a name",
  "                        matching any is listed)",
  "",
  "options:",
  "  -h, --help            show this help message and exit",
  "  -r PATH, --root PATH  Directory or zip archive to index. Can be repeated",
  "  --regex EXPR          Also list names fully matching this regular expression",
  "  --uri                 Print resource URIs instead of names",
  "  --cat                 Print the content of each match",
  "  --property KEY        Load matches as .properties files and print the value",
  "                        of KEY for each",
  "  -o OUTPUT, --output OUTPUT",
  "                        Output file (use '-' for stdout)",
  "  --exclude PATTERN     Replace all default exclusion patterns. Can be",
  "                        repeated",
  "  --extend-exclude PATTERN",
  "                        Add to default exclusion patterns (e.g., 'drafts/').",
  "                        Can be repeated",
  "  --no-respect-gitignore",
  "                        Disable .gitignore integration for directory roots",
  "  --files-max-size BYTES",
  "                        Skip files larger than this size in bytes (0 = no",
  "                        limit, default: 0)",
  "  -v, --verbose         Log scanning details",
  "  --version             Show version information and exit",
  "",
  "Common usage:",
  "  reslocator --root resources 'books/*.properties'",
  "  reslocator --root app.zip --root resources '**.\x7bjson,toml\x7d'",
  "  reslocator --root resources --property title 'books/*.properties'",
  "  reslocator --root resources --regex '.*_of_.*'",
  "",
  "Patterns are anchored: `*` and `?` stay within one path segment, `**`",
  "crosses `/`, and `\x7ba,b\x7d` matches either alternative."]

def usageMessage (e : UsageError) : Text :=
  usage ++ toolName ++ ": error: " ++ e.message ++ "\n"

end CommandLine
end ResourceFinder
