import TrafficPolicy.Address.Basic
import TrafficPolicy.Address.Reader
import TrafficPolicy.Clock
import TrafficPolicy.Dns
import TrafficPolicy.Error
import TrafficPolicy.Failure
import TrafficPolicy.Grammar.Command
import TrafficPolicy.Grammar.Leaf
import TrafficPolicy.Grammar.Registry
import TrafficPolicy.Main
import TrafficPolicy.Number.Dyadic
import TrafficPolicy.Number.Fixed
import TrafficPolicy.Number.Numeral
import TrafficPolicy.Policy.Basic
import TrafficPolicy.Policy.Delay
import TrafficPolicy.Policy.DomainPolicy
import TrafficPolicy.Policy.DomainRule
import TrafficPolicy.Policy.Framing
import TrafficPolicy.Policy.Mapping
import TrafficPolicy.Policy.Marker
import TrafficPolicy.Policy.Removal
import TrafficPolicy.Policy.Shuffle
import TrafficPolicy.Policy.Slots
import TrafficPolicy.Policy.TextValue
import TrafficPolicy.Policy.UrlPolicy
import TrafficPolicy.Policy.UrlRule
import TrafficPolicy.Profile.Basic
import TrafficPolicy.Profile.DropTracker
import TrafficPolicy.Profile.Resolve
import TrafficPolicy.Profile.Set
import TrafficPolicy.Proofs.Address.RoundTrip
import TrafficPolicy.Proofs.Grammar.Outcomes
import TrafficPolicy.Proofs.Grammar.PartList
import TrafficPolicy.Proofs.Grammar.Quantities
import TrafficPolicy.Proofs.Grammar.ReadBack
import TrafficPolicy.Proofs.Grammar.Readings
import TrafficPolicy.Proofs.Grammar.Refusals
import TrafficPolicy.Proofs.Grammar.Registration
import TrafficPolicy.Proofs.Number.Checked
import TrafficPolicy.Proofs.Number.Exact
import TrafficPolicy.Proofs.Number.FixedPoint
import TrafficPolicy.Proofs.Number.HalfEven
import TrafficPolicy.Proofs.Number.Integers
import TrafficPolicy.Proofs.Number.Millionths
import TrafficPolicy.Proofs.Number.Nearest
import TrafficPolicy.Proofs.Number.Packing
import TrafficPolicy.Proofs.Number.PowersOfTwo
import TrafficPolicy.Proofs.Number.RoundedValue
import TrafficPolicy.Proofs.Number.Rounding
import TrafficPolicy.Proofs.Number.Values
import TrafficPolicy.Proofs.Number.WholeNumbers
import TrafficPolicy.Proofs.Profile.Chains
import TrafficPolicy.Proofs.Profile.Definitions
import TrafficPolicy.Proofs.Profile.DomainSelection
import TrafficPolicy.Proofs.Profile.Emptying
import TrafficPolicy.Proofs.Profile.FirstRequests
import TrafficPolicy.Proofs.Profile.Inheritance
import TrafficPolicy.Proofs.Profile.Patches
import TrafficPolicy.Proofs.Profile.Placement
import TrafficPolicy.Proofs.Profile.Reapplied
import TrafficPolicy.Proofs.Profile.Replay
import TrafficPolicy.Proofs.Profile.Rotation
import TrafficPolicy.Proofs.Profile.Selection
import TrafficPolicy.Proofs.Profile.Withdrawal
import TrafficPolicy.Proofs.Quantity.Elapsed
import TrafficPolicy.Proofs.Quantity.Magnitudes
import TrafficPolicy.Proofs.Quantity.Rereading
import TrafficPolicy.Proofs.Stream.Boundaries
import TrafficPolicy.Proofs.Stream.Budget
import TrafficPolicy.Proofs.Stream.Bursts
import TrafficPolicy.Proofs.Stream.Draining
import TrafficPolicy.Proofs.Stream.EvenPieces
import TrafficPolicy.Proofs.Stream.Expiry
import TrafficPolicy.Proofs.Stream.FullRate
import TrafficPolicy.Proofs.Stream.Headers
import TrafficPolicy.Proofs.Stream.Limit
import TrafficPolicy.Proofs.Stream.Passes
import TrafficPolicy.Proofs.Stream.Pieces
import TrafficPolicy.Proofs.Stream.Resets
import TrafficPolicy.Proofs.Stream.Shape
import TrafficPolicy.Proofs.Stream.Silence
import TrafficPolicy.Proofs.Stream.SizedPieces
import TrafficPolicy.Proofs.Stream.TwoLimits
import TrafficPolicy.Proofs.Stream.Whole
import TrafficPolicy.Proofs.Target.Division
import TrafficPolicy.Proofs.Target.Extensions
import TrafficPolicy.Proofs.Target.Written
import TrafficPolicy.Proofs.Text.Contents
import TrafficPolicy.Proofs.Text.Slashes
import TrafficPolicy.Proofs.Text.Utf8
import TrafficPolicy.Proofs.Text.Words
import TrafficPolicy.Proofs.Tool.Configuration
import TrafficPolicy.Proofs.Tool.Dump
import TrafficPolicy.Proofs.Tool.Isolation
import TrafficPolicy.Proofs.Tool.Items
import TrafficPolicy.Proofs.Tool.Loading
import TrafficPolicy.Quantity.Amount
import TrafficPolicy.Quantity.Duration
import TrafficPolicy.Quantity.PieceSizes
import TrafficPolicy.Quantity.Rate
import TrafficPolicy.Regex.Bracket
import TrafficPolicy.Regex.Bytes
import TrafficPolicy.Regex.Escape
import TrafficPolicy.Regex.Footprint
import TrafficPolicy.Regex.Program
import TrafficPolicy.Regex.Reader
import TrafficPolicy.Regex.Replace
import TrafficPolicy.Regex.Search
import TrafficPolicy.Regex.Settings
import TrafficPolicy.Regex.Syntax
import TrafficPolicy.Stream.Call
import TrafficPolicy.Stream.Deadline
import TrafficPolicy.Stream.Framer
import TrafficPolicy.Stream.Meter
import TrafficPolicy.Stream.Pause
import TrafficPolicy.Stream.Recorder
import TrafficPolicy.Stream.Shape
import TrafficPolicy.Stream.Sink
import TrafficPolicy.Stream.Stage
import TrafficPolicy.Target.DomainPattern
import TrafficPolicy.Target.Glob
import TrafficPolicy.Target.Url
import TrafficPolicy.Target.UrlPattern
import TrafficPolicy.Text.Blank
import TrafficPolicy.Text.Cursor
import TrafficPolicy.Text.Literal
import TrafficPolicy.Text.Percent
import TrafficPolicy.Text.Shown
import TrafficPolicy.Text.Words
import TrafficPolicy.Toml.Document
import TrafficPolicy.Toml.Quoted
import TrafficPolicy.Toml.Scalar
import TrafficPolicy.Toml.Value
import TrafficPolicy.Tool.Arguments
import TrafficPolicy.Tool.CommandFile
import TrafficPolicy.Tool.Config
import TrafficPolicy.Tool.FileTree
import TrafficPolicy.Tool.Hosts
import TrafficPolicy.Tool.Program
import TrafficPolicy.Tool.Report
import TrafficPolicy.Tool.Setup
import TrafficPolicy.Unicode.Age
import TrafficPolicy.Unicode.Break
import TrafficPolicy.Unicode.Category
import TrafficPolicy.Unicode.CharSet
import TrafficPolicy.Unicode.Fold
import TrafficPolicy.Unicode.Identifier
import TrafficPolicy.Unicode.Letter
import TrafficPolicy.Unicode.Mark
import TrafficPolicy.Unicode.Property
import TrafficPolicy.Unicode.Script
import TrafficPolicy.Unicode.Symbol
import TrafficPolicy.Unicode.Table
import TrafficPolicy.Proofs.Regex.Meaning
import TrafficPolicy.Proofs.Regex.Runs
import TrafficPolicy.Proofs.Regex.Search
import TrafficPolicy.Proofs.Regex.Reading
import TrafficPolicy.Proofs.Target.Normal
import TrafficPolicy.Proofs.Target.Expression
import TrafficPolicy.Proofs.Target.Covering
