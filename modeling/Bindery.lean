import Bindery.Action
import Bindery.Base64
import Bindery.Binary.Archive
import Bindery.Binary.Archive.Directory
import Bindery.Binary.Archive.Entry
import Bindery.Binary.Inflate
import Bindery.Binary.Number
import Bindery.Binary.PrefixCode
import Bindery.CommandLine.Failure
import Bindery.CommandLine.Given
import Bindery.CommandLine.Progress
import Bindery.CommandLine.Run
import Bindery.CommandLine.Setting
import Bindery.CommandLine.Settings
import Bindery.Compile
import Bindery.Config
import Bindery.Deck.Extract
import Bindery.Deck.Reader
import Bindery.Deck.Render
import Bindery.Deck.Slide
import Bindery.Dialogue
import Bindery.Directive
import Bindery.Document
import Bindery.Escape
import Bindery.Extraction
import Bindery.Fragment
import Bindery.Image.Jpeg
import Bindery.Image.Jpeg.Headers
import Bindery.Image.Jpeg.Progressive
import Bindery.Image.Jpeg.Scan
import Bindery.Image.Jpeg.Sequential
import Bindery.Image.Png
import Bindery.Image.Png.Prelude
import Bindery.Intake
import Bindery.Json
import Bindery.Json.Parsed
import Bindery.Json.Token
import Bindery.Lookup
import Bindery.Machine
import Bindery.Main
import Bindery.Merge
import Bindery.Notebook.Basic
import Bindery.Notebook.Inline
import Bindery.Notebook.Markdown
import Bindery.Notebook.Render
import Bindery.OsError
import Bindery.Outline
import Bindery.Outline.Turns
import Bindery.Path
import Bindery.Proofs.CommandLine.Outcome
import Bindery.Proofs.CommandLine.Remaining
import Bindery.Proofs.CommandLine.Structured
import Bindery.Proofs.Compile.Excerpt
import Bindery.Proofs.Compile.History
import Bindery.Proofs.Compile.Pass
import Bindery.Proofs.Compile.Reuse
import Bindery.Proofs.Compile.Verdict
import Bindery.Proofs.Deck.Arrival
import Bindery.Proofs.Deck.Keeping
import Bindery.Proofs.Deck.Layout
import Bindery.Proofs.Deck.Nesting
import Bindery.Proofs.Deck.Printing
import Bindery.Proofs.Deck.Written
import Bindery.Proofs.Dialogue
import Bindery.Proofs.Escape
import Bindery.Proofs.Escape.Unescape
import Bindery.Proofs.Fragment
import Bindery.Proofs.Merge.Account
import Bindery.Proofs.Merge.Braces
import Bindery.Proofs.Merge.Command
import Bindery.Proofs.Merge.Content
import Bindery.Proofs.Merge.Hearing
import Bindery.Proofs.Merge.LookedUp
import Bindery.Proofs.Merge.Marker
import Bindery.Proofs.Merge.Preamble
import Bindery.Proofs.Merge.Prolonged
import Bindery.Proofs.Merge.Refused
import Bindery.Proofs.Merge.Requested
import Bindery.Proofs.Merge.Reread
import Bindery.Proofs.Merge.Rearranged
import Bindery.Proofs.Merge.Settled
import Bindery.Proofs.Notebook.Code
import Bindery.Proofs.Notebook.Delimiters
import Bindery.Proofs.Notebook.Listing
import Bindery.Proofs.Notebook.Nesting
import Bindery.Proofs.Outline.Balance
import Bindery.Proofs.Outline.Turns
import Bindery.Proofs.Record
import Bindery.Proofs.Request.Apart
import Bindery.Proofs.Request.Delivery
import Bindery.Proofs.Request.Elsewhere
import Bindery.Proofs.Request.Isolation
import Bindery.Proofs.Request.Malformed
import Bindery.Proofs.Request.Pictures
import Bindery.Proofs.Request.Story
import Bindery.Proofs.Request.Together
import Bindery.Proofs.Text.Lines
import Bindery.Proofs.Text.Occurrences
import Bindery.Proofs.Text.Replace
import Bindery.Proofs.Text.Single
import Bindery.Proofs.Typesetting.Harmless
import Bindery.Proofs.Typesetting.Label
import Bindery.Record
import Bindery.Report
import Bindery.Request
import Bindery.Shell.Arithmetic
import Bindery.Shell.Builtin
import Bindery.Shell.Expansion
import Bindery.Shell.Launch
import Bindery.Shell.Opening
import Bindery.Shell.Parse.Basic
import Bindery.Shell.Parse.Command
import Bindery.Shell.Parse.Line
import Bindery.Shell.Pattern
import Bindery.Shell.Run
import Bindery.Shell.Script
import Bindery.Shell.Signal
import Bindery.Shell.State
import Bindery.Shell.Text
import Bindery.Shell.Utility.Basic
import Bindery.Shell.Utility.Catalogue
import Bindery.Shell.Utility.Condition
import Bindery.Shell.Utility.Files
import Bindery.Shell.Utility.Filters
import Bindery.Shell.Utility.Printing
import Bindery.Shell.Utility.Values
import Bindery.Source
import Bindery.Text.Blank
import Bindery.Text.CodePage
import Bindery.Text.Digit
import Bindery.Text.Lines
import Bindery.Text.Quoted
import Bindery.Text.Replace
import Bindery.Text.Upper
import Bindery.Text.Utf8
import Bindery.Tree
import Bindery.Workspace
import Bindery.Xml.Event
import Bindery.Xml.Piece
