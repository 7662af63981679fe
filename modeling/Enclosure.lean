import Enclosure.Source.Block
import Enclosure.Source.DryRun
import Enclosure.Source.Language
import Enclosure.Timestamp.Layout
import Enclosure.Patch.Changes
import Enclosure.Settings.Read
import Enclosure.Git.Command
import Enclosure.Analysis.Comment
import Enclosure.Analysis.Run
import Enclosure.PullRequest.Web
import Enclosure.PullRequest.Session
import Enclosure.Review.Command
import Enclosure.Main
import Enclosure.Proofs.Distinct
import Enclosure.Proofs.Compaction
import Enclosure.Proofs.Source.Nesting
import Enclosure.Proofs.Text.Runes
import Enclosure.Proofs.Text.Encoding
import Enclosure.Proofs.Text.Pieces
import Enclosure.Proofs.Text.WhiteSpace
import Enclosure.Proofs.Source.BlankLine
import Enclosure.Proofs.Source.Origin
import Enclosure.Proofs.Source.Grammar
import Enclosure.Proofs.Source.Extent
import Enclosure.Proofs.Source.Records
import Enclosure.Proofs.Source.Layout
import Enclosure.Proofs.Source.Joined
import Enclosure.Proofs.Source.LineByLine
import Enclosure.Proofs.Json.Strings
import Enclosure.Proofs.Json.RoundTrip
import Enclosure.Proofs.Patch.Written
import Enclosure.Proofs.Patch.RoundTrip
import Enclosure.Proofs.Glob.Letters
import Enclosure.Proofs.Files.Append
import Enclosure.Proofs.Files.Clean
import Enclosure.Proofs.Settings.Reading
import Enclosure.Proofs.Settings.Directories
import Enclosure.Proofs.Analysis.Data
import Enclosure.Proofs.Analysis.Schedule
import Enclosure.Proofs.Analysis.Limit
import Enclosure.Proofs.Analysis.WellFormed
import Enclosure.Proofs.Analysis.Prefilter
import Enclosure.Proofs.Analysis.Ranges
import Enclosure.Proofs.PullRequest.Answers
import Enclosure.Proofs.PullRequest.Board
import Enclosure.Proofs.PullRequest.Listing
import Enclosure.Proofs.PullRequest.Memory
import Enclosure.Proofs.Review.UpToDate
import Enclosure.Proofs.Review.Calls
import Enclosure.Proofs.Review.Verdict
import Enclosure.Proofs.Review.Shown
import Enclosure.Proofs.Review.Footprint
import Enclosure.Proofs.Review.Handover
import Enclosure.Proofs.Tool.Input
import Enclosure.Proofs.Tool.Scan
import Enclosure.Proofs.Tool.Target
import Enclosure.Proofs.Tool.Verdicts
