import ResourceFinder.Archive.Content
import ResourceFinder.Archive.Directory
import ResourceFinder.Archive.Entry
import ResourceFinder.Archive.Fault
import ResourceFinder.Calendar
import ResourceFinder.CommandLine.Disk
import ResourceFinder.CommandLine.Flag
import ResourceFinder.CommandLine.Help
import ResourceFinder.CommandLine.Machine
import ResourceFinder.CommandLine.Options
import ResourceFinder.CommandLine.Parser
import ResourceFinder.CommandLine.Run
import ResourceFinder.Compression.Bzip2
import ResourceFinder.Compression.Deflate
import ResourceFinder.Compression.Lzma
import ResourceFinder.Compression.PrefixCode
import ResourceFinder.Dictionary
import ResourceFinder.Distinct
import ResourceFinder.Fault
import ResourceFinder.FileSystem.Basic
import ResourceFinder.FileSystem.Folder
import ResourceFinder.FileSystem.Lookup
import ResourceFinder.FileSystem.RealPath
import ResourceFinder.FileSystem.TextFile
import ResourceFinder.FileSystem.Update
import ResourceFinder.Glob.Basic
import ResourceFinder.Glob.Matcher
import ResourceFinder.Glob.Parser
import ResourceFinder.Ignore.File
import ResourceFinder.Ignore.Matcher
import ResourceFinder.Ignore.Pattern
import ResourceFinder.Index.Basic
import ResourceFinder.Index.Building
import ResourceFinder.Index.Calls
import ResourceFinder.Index.Loader
import ResourceFinder.Index.Query
import ResourceFinder.Index.Running
import ResourceFinder.Index.Session
import ResourceFinder.Json.Basic
import ResourceFinder.Json.Parser
import ResourceFinder.Main
import ResourceFinder.Markdown.Basic
import ResourceFinder.Markdown.Inline
import ResourceFinder.Markdown.Parser
import ResourceFinder.Number.Binary64
import ResourceFinder.Number.Numeral
import ResourceFinder.Path.Basic
import ResourceFinder.Path.Uri
import ResourceFinder.Proofs.Archive.Packed
import ResourceFinder.Proofs.Archive.Reading
import ResourceFinder.Proofs.Archive.Refusal
import ResourceFinder.Proofs.CommandLine.Delivery
import ResourceFinder.Proofs.CommandLine.Explicit
import ResourceFinder.Proofs.CommandLine.Given
import ResourceFinder.Proofs.CommandLine.Outcome
import ResourceFinder.Proofs.CommandLine.Output
import ResourceFinder.Proofs.CommandLine.Precedence
import ResourceFinder.Proofs.CommandLine.Redirected
import ResourceFinder.Proofs.CommandLine.Token
import ResourceFinder.Proofs.CommandLine.WorkingDirectory
import ResourceFinder.Proofs.Dictionary.Assignment
import ResourceFinder.Proofs.Dictionary.Update
import ResourceFinder.Proofs.Except.Failure
import ResourceFinder.Proofs.FileSystem.Folder
import ResourceFinder.Proofs.FileSystem.Lookup
import ResourceFinder.Proofs.FileSystem.Named
import ResourceFinder.Proofs.FileSystem.Native
import ResourceFinder.Proofs.FileSystem.Plain
import ResourceFinder.Proofs.FileSystem.Reordered
import ResourceFinder.Proofs.FileSystem.Update
import ResourceFinder.Proofs.FileSystem.WorkingDirectory
import ResourceFinder.Proofs.Glob.Append
import ResourceFinder.Proofs.Glob.Expression
import ResourceFinder.Proofs.Glob.Grammar
import ResourceFinder.Proofs.Glob.Language
import ResourceFinder.Proofs.Glob.Malformed
import ResourceFinder.Proofs.Glob.Matching
import ResourceFinder.Proofs.Glob.Segments
import ResourceFinder.Proofs.Glob.Step
import ResourceFinder.Proofs.Ignore.Lines
import ResourceFinder.Proofs.Index.ArchiveNames
import ResourceFinder.Proofs.Index.Building
import ResourceFinder.Proofs.Index.Changing
import ResourceFinder.Proofs.Index.Closing
import ResourceFinder.Proofs.Index.Cursor
import ResourceFinder.Proofs.Index.DirectoryResources
import ResourceFinder.Proofs.Index.Distinct
import ResourceFinder.Proofs.Index.Failure
import ResourceFinder.Proofs.Index.Order
import ResourceFinder.Proofs.Index.Origin
import ResourceFinder.Proofs.Index.Outcomes
import ResourceFinder.Proofs.Index.Register
import ResourceFinder.Proofs.Index.Roots
import ResourceFinder.Proofs.Index.SameFiles
import ResourceFinder.Proofs.Index.Session
import ResourceFinder.Proofs.Index.SizeLimit
import ResourceFinder.Proofs.Index.Stricter
import ResourceFinder.Proofs.Index.Uris
import ResourceFinder.Proofs.Index.Validation
import ResourceFinder.Proofs.Index.WorkingDirectory
import ResourceFinder.Proofs.List.Lookup
import ResourceFinder.Proofs.Number.Numeral
import ResourceFinder.Proofs.Path.Octets
import ResourceFinder.Proofs.Path.Spelling
import ResourceFinder.Proofs.Path.Uri
import ResourceFinder.Proofs.Path.Within
import ResourceFinder.Proofs.Properties.Append
import ResourceFinder.Proofs.Properties.Division
import ResourceFinder.Proofs.Properties.Numbered
import ResourceFinder.Proofs.Properties.Paired
import ResourceFinder.Proofs.Properties.Reading
import ResourceFinder.Proofs.Properties.Scanner
import ResourceFinder.Proofs.Properties.Stored
import ResourceFinder.Proofs.Properties.Written
import ResourceFinder.Proofs.Regex.Language
import ResourceFinder.Proofs.Regex.Reading
import ResourceFinder.Proofs.Scan.Archive
import ResourceFinder.Proofs.Scan.Cache
import ResourceFinder.Proofs.Scan.Directory
import ResourceFinder.Proofs.Scan.Ended
import ResourceFinder.Proofs.Scan.Exclusion
import ResourceFinder.Proofs.Scan.Failure
import ResourceFinder.Proofs.Scan.Listing
import ResourceFinder.Proofs.Scan.Order
import ResourceFinder.Proofs.Scan.Precedence
import ResourceFinder.Proofs.Scan.Stricter
import ResourceFinder.Proofs.Settings.Nearest
import ResourceFinder.Proofs.Settings.Overlay
import ResourceFinder.Proofs.Settings.Reading
import ResourceFinder.Proofs.Text.Join
import ResourceFinder.Proofs.Text.Lines
import ResourceFinder.Proofs.Text.Order
import ResourceFinder.Proofs.Text.Trim
import ResourceFinder.Proofs.Text.Units
import ResourceFinder.Properties.Entry
import ResourceFinder.Properties.Line
import ResourceFinder.Properties.Parser
import ResourceFinder.Regex.Basic
import ResourceFinder.Regex.Escape
import ResourceFinder.Regex.Matcher
import ResourceFinder.Regex.Parser
import ResourceFinder.Regex.Problem
import ResourceFinder.Regex.Source
import ResourceFinder.Root.Basic
import ResourceFinder.Root.Read
import ResourceFinder.Scan.Archive
import ResourceFinder.Scan.Basic
import ResourceFinder.Scan.Config
import ResourceFinder.Scan.Directory
import ResourceFinder.Scan.Exclusion
import ResourceFinder.Scan.FileSystem
import ResourceFinder.Settings.Attributes
import ResourceFinder.Settings.Basic
import ResourceFinder.Settings.File
import ResourceFinder.Text.Basic
import ResourceFinder.Text.Character
import ResourceFinder.Text.CodePage437
import ResourceFinder.Text.DecodeError
import ResourceFinder.Text.Encoding
import ResourceFinder.Text.Input
import ResourceFinder.Text.LetterCase
import ResourceFinder.Text.Lines
import ResourceFinder.Text.Printable
import ResourceFinder.Text.Quoted
import ResourceFinder.Text.Utf8
import ResourceFinder.Text.WideUnits
import ResourceFinder.Toml.Basic
import ResourceFinder.Toml.Parser
import ResourceFinder.Toml.Scalar
import ResourceFinder.Toml.Shown
