import DocQuery.Config
import DocQuery.Decode
import DocQuery.Filter.Selection
import DocQuery.Load
import DocQuery.Main
import DocQuery.Output
import DocQuery.Proofs.Json.WrittenValues
import DocQuery.Proofs.Search.Hits
import DocQuery.Proofs.Yaml.FrameReading
import DocQuery.Proofs.Yaml.Layout
import DocQuery.Query
import DocQuery.Search
import DocQuery.Session
import DocQuery.Stats
import DocQuery.Proofs.Scalar.Comparison
import DocQuery.Proofs.Scalar.Grammar
import DocQuery.Proofs.Scalar.Quotes
import DocQuery.Proofs.Scalar.Typing
import DocQuery.Proofs.Text.Lines
import DocQuery.Proofs.Yaml.Comments
import DocQuery.Proofs.Yaml.BareKeys
import DocQuery.Proofs.Filter.Grammar
import DocQuery.Proofs.Filter.Agreement
import DocQuery.Proofs.Yaml.Feeding
import DocQuery.Proofs.Yaml.Noise
import DocQuery.Proofs.Yaml.TrailingComments
import DocQuery.Proofs.Value.Written
import DocQuery.Proofs.Yaml.Sources
import DocQuery.Proofs.Yaml.Moving
import DocQuery.Proofs.Yaml.Nesting
import DocQuery.Proofs.Json.Sources
import DocQuery.Proofs.Value.UniqueKeys
import DocQuery.Proofs.Yaml.FirstFault
import DocQuery.Proofs.Yaml.Streams
import DocQuery.Proofs.Command.Outcomes
import DocQuery.Proofs.Number.Comparison
import DocQuery.Proofs.Filter.Comparisons
import DocQuery.Proofs.Value.FiniteNumbers
import DocQuery.Proofs.Value.NumberTypes
import DocQuery.Proofs.Filter.Interchange
import DocQuery.Proofs.Path.Composition
import DocQuery.Proofs.Output.Tables
import DocQuery.Proofs.Stats.Sums
import DocQuery.Proofs.Value.Reordering
import DocQuery.Proofs.Filter.Steps
import DocQuery.Proofs.Load.Routes
import DocQuery.Proofs.Search.Collisions
import DocQuery.Proofs.Filter.Literals
import DocQuery.Proofs.Number.Rereading
