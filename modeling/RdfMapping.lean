import RdfMapping.Cancellation
import RdfMapping.Config
import RdfMapping.Error
import RdfMapping.Execution.Index
import RdfMapping.Execution.Join
import RdfMapping.Execution.Run
import RdfMapping.Execution.State
import RdfMapping.Execution.TriplesMap
import RdfMapping.Function.Call
import RdfMapping.Function.Registry
import RdfMapping.Function.Standard
import RdfMapping.Generation
import RdfMapping.Iri.Chars
import RdfMapping.Iri.Host
import RdfMapping.Iri.Parse
import RdfMapping.Iri.Resolve
import RdfMapping.Json.Config
import RdfMapping.Json.Reader
import RdfMapping.Json.Rules
import RdfMapping.Json.Text
import RdfMapping.Json.Value
import RdfMapping.Json.Writer
import RdfMapping.Proofs.Checked
import RdfMapping.Proofs.Execution.Abreast
import RdfMapping.Proofs.Execution.Accounting
import RdfMapping.Proofs.Execution.Assembly
import RdfMapping.Proofs.Execution.Atomicity
import RdfMapping.Proofs.Execution.Blame
import RdfMapping.Proofs.Execution.Books
import RdfMapping.Proofs.Execution.Causes
import RdfMapping.Proofs.Execution.Consultation
import RdfMapping.Proofs.Execution.DeclarationOrder
import RdfMapping.Proofs.Execution.Diagnostics
import RdfMapping.Proofs.Execution.Emission
import RdfMapping.Proofs.Execution.Errors
import RdfMapping.Proofs.Execution.Failures
import RdfMapping.Proofs.Execution.Identity
import RdfMapping.Proofs.Execution.Integrity
import RdfMapping.Proofs.Execution.Interruption
import RdfMapping.Proofs.Execution.JoinIndex
import RdfMapping.Proofs.Execution.Keeps
import RdfMapping.Proofs.Execution.KeptQuads
import RdfMapping.Proofs.Execution.Landmarks
import RdfMapping.Proofs.Execution.Legality
import RdfMapping.Proofs.Execution.Losses
import RdfMapping.Proofs.Execution.Mentions
import RdfMapping.Proofs.Execution.NestedLoops
import RdfMapping.Proofs.Execution.Openings
import RdfMapping.Proofs.Execution.OtherRecords
import RdfMapping.Proofs.Execution.Outcome
import RdfMapping.Proofs.Execution.OwnFailures
import RdfMapping.Proofs.Execution.ParentFailures
import RdfMapping.Proofs.Execution.Performs
import RdfMapping.Proofs.Execution.Reopening
import RdfMapping.Proofs.Execution.SetAndBag
import RdfMapping.Proofs.Execution.Sharding
import RdfMapping.Proofs.Execution.Shorthand
import RdfMapping.Proofs.Execution.Signal
import RdfMapping.Proofs.Execution.Spellings
import RdfMapping.Proofs.Execution.Stateless
import RdfMapping.Proofs.Execution.Steps
import RdfMapping.Proofs.Execution.SubjectErrors
import RdfMapping.Proofs.Execution.Turns
import RdfMapping.Proofs.Execution.Twins
import RdfMapping.Proofs.Execution.Warnings
import RdfMapping.Proofs.Execution.Yield
import RdfMapping.Proofs.Function.Protocol
import RdfMapping.Proofs.Generation
import RdfMapping.Proofs.Json.Reader
import RdfMapping.Proofs.Json.Text
import RdfMapping.Proofs.Iri.Continuation
import RdfMapping.Proofs.Iri.Runs
import RdfMapping.Proofs.Quad.Distinct
import RdfMapping.Proofs.Quad.Legible
import RdfMapping.Proofs.Quad.Lookalike
import RdfMapping.Proofs.Quad.Ordering
import RdfMapping.Proofs.Quad.Reached
import RdfMapping.Proofs.Quad.Reordering
import RdfMapping.Proofs.Rules.Acceptance
import RdfMapping.Proofs.Rules.Document
import RdfMapping.Proofs.Rules.Executable
import RdfMapping.Proofs.Rules.Indexed
import RdfMapping.Proofs.Rules.Nesting
import RdfMapping.Proofs.Rules.Rearrangement
import RdfMapping.Proofs.Rules.Respelling
import RdfMapping.Proofs.Rules.Selection
import RdfMapping.Proofs.Scopes
import RdfMapping.Proofs.Template.Anchored
import RdfMapping.Proofs.Template.Choices
import RdfMapping.Proofs.Template.Grammar
import RdfMapping.Proofs.Template.Separation
import RdfMapping.Proofs.Template.Writing
import RdfMapping.Proofs.Term.Reading
import RdfMapping.Proofs.Text.ByteEscape
import RdfMapping.Proofs.Text.PrefixCode
import RdfMapping.Quad.Basic
import RdfMapping.Quad.Store
import RdfMapping.Report
import RdfMapping.Rules.Graph
import RdfMapping.Rules.TermMap
import RdfMapping.Rules.TriplesMap
import RdfMapping.Rules.Validation
import RdfMapping.Source.Logical
import RdfMapping.Source.Memory
import RdfMapping.Source.Provider
import RdfMapping.Template.Basic
import RdfMapping.Template.Expansion
import RdfMapping.Term.Basic
import RdfMapping.Term.Canonical
import RdfMapping.Text.ByteEscape
import RdfMapping.Text.Hex
import RdfMapping.Trace
import RdfMapping.ValueMap
import RdfMapping.Vocabulary
