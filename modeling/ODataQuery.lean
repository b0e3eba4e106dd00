import ODataQuery.Attribute.Document
import ODataQuery.Attribute.Inference
import ODataQuery.Attribute.Map
import ODataQuery.Attribute.Type
import ODataQuery.Catalog.Basic
import ODataQuery.Catalog.Document
import ODataQuery.Catalog.Provider
import ODataQuery.CommandLine.Arguments
import ODataQuery.CommandLine.Consult
import ODataQuery.CommandLine.Directories
import ODataQuery.CommandLine.FileTree
import ODataQuery.CommandLine.Lookup
import ODataQuery.CommandLine.Readers
import ODataQuery.CommandLine.Run
import ODataQuery.Filter.Condition
import ODataQuery.Filter.Expression
import ODataQuery.Filter.Literal
import ODataQuery.Filter.Operator
import ODataQuery.Json.Basic
import ODataQuery.Json.Decoder
import ODataQuery.Json.Reader
import ODataQuery.Json.Writer
import ODataQuery.Main
import ODataQuery.Number.Binary64
import ODataQuery.Number.Decimal
import ODataQuery.Number.Shortest
import ODataQuery.Number.Text
import ODataQuery.Query.Compiled
import ODataQuery.Query.Definition
import ODataQuery.Query.Document
import ODataQuery.Resolver.Cache
import ODataQuery.Resolver.Session
import ODataQuery.Resolver.State
import ODataQuery.Settings.Basic
import ODataQuery.Settings.Expansion
import ODataQuery.Text.Alphanumeric
import ODataQuery.Text.Blank
import ODataQuery.Text.Boundaries
import ODataQuery.Text.Digits
import ODataQuery.Text.Folded
import ODataQuery.Text.Join
import ODataQuery.Text.LowerCase
import ODataQuery.Text.LowerCaseTable
import ODataQuery.Text.Quoted
import ODataQuery.Time.Calendar
import ODataQuery.Time.Instant
import ODataQuery.Time.Spelling
import ODataQuery.Toml.Basic
import ODataQuery.Toml.Quoted
import ODataQuery.Toml.Reader
import ODataQuery.Toml.Scalar
import ODataQuery.Proofs.Resolver.Step
import ODataQuery.Proofs.Resolver.Locking
import ODataQuery.Proofs.Resolver.SingleFlight
import ODataQuery.Proofs.Resolver.Transparency
import ODataQuery.Proofs.Filter.Grammar
import ODataQuery.Proofs.Filter.Kept
import ODataQuery.Proofs.Filter.Reading
import ODataQuery.Proofs.Filter.Plain
import ODataQuery.Proofs.Filter.Quotes
import ODataQuery.Proofs.Query.Diagnostics
import ODataQuery.Proofs.Resolver.Freshness
import ODataQuery.Proofs.Resolver.Contents
import ODataQuery.Proofs.Query.Parameters
import ODataQuery.Proofs.Catalog.Agreement
import ODataQuery.Proofs.Query.Whole
import ODataQuery.Proofs.Query.ReadBack
import ODataQuery.Proofs.Resolver.OneInstance
import ODataQuery.Proofs.Resolver.Sequential
import ODataQuery.Proofs.Resolver.View
import ODataQuery.Proofs.Resolver.Names
import ODataQuery.Proofs.Resolver.Failures
import ODataQuery.Proofs.Resolver.Prefetch
import ODataQuery.Proofs.Resolver.Progress
import ODataQuery.Proofs.Json.Spelling
import ODataQuery.Proofs.Json.Fields
import ODataQuery.Proofs.Json.Documents
import ODataQuery.Proofs.Filter.LeftToRight
import ODataQuery.Proofs.Query.Pruning
import ODataQuery.Proofs.Query.Concatenation
import ODataQuery.Proofs.Query.Policies
import ODataQuery.Proofs.Query.Dependence
import ODataQuery.Proofs.Text.Trimmed
import ODataQuery.Proofs.Text.Folded
import ODataQuery.Proofs.Attribute.Inference
import ODataQuery.Proofs.Filter.Literals
import ODataQuery.Proofs.Attribute.Classes
import ODataQuery.Proofs.Text.Digits
import ODataQuery.Proofs.Number.Rounding
import ODataQuery.Proofs.Number.Denotation
import ODataQuery.Proofs.Number.Conversion
import ODataQuery.Proofs.Number.Shortest
import ODataQuery.Proofs.Number.Layout
import ODataQuery.Proofs.Number.ReadBack
import ODataQuery.Proofs.Time.Calendar
import ODataQuery.Proofs.Time.Moments
import ODataQuery.Proofs.Time.ReadBack
import ODataQuery.Proofs.Text.Words
import ODataQuery.Proofs.Filter.OperatorText
import ODataQuery.Proofs.Time.Spellings
import ODataQuery.Proofs.Catalog.Additions
import ODataQuery.Proofs.Resolver.History
import ODataQuery.Proofs.Resolver.Accounts
import ODataQuery.Proofs.Resolver.Sessions
import ODataQuery.Proofs.Settings.Expansion
import ODataQuery.Proofs.CommandLine.Looks
import ODataQuery.Proofs.CommandLine.Directories
import ODataQuery.Proofs.CommandLine.Commands
import ODataQuery.Proofs.CommandLine.Candidates
import ODataQuery.Proofs.CommandLine.Failures
import ODataQuery.Proofs.CommandLine.Reports
import ODataQuery.Proofs.CommandLine.Runs
import ODataQuery.Proofs.Attribute.Definitions
