import EventSearch.Path.Reader
import EventSearch.Client.Exchange
import EventSearch.Config
import EventSearch.Proofs.Span.Saturation
import EventSearch.Proofs.Span.Regrouping
import EventSearch.Proofs.Node.Document
import EventSearch.Proofs.Node.Binding
import EventSearch.Proofs.Node.Conjunction
import EventSearch.Proofs.Node.Constrained
import EventSearch.Proofs.Node.Annotation
import EventSearch.Proofs.Node.Arrangement
import EventSearch.Proofs.Node.Faithful
import EventSearch.Proofs.Node.Fault
import EventSearch.Proofs.Node.Formula
import EventSearch.Proofs.Node.Grouping
import EventSearch.Proofs.Text.Digits
import EventSearch.Proofs.Text.Lines
import EventSearch.Proofs.Time.Rfc3339
import EventSearch.Proofs.Value.Literal
import EventSearch.Proofs.Value.Date
import EventSearch.Proofs.Query.Document
import EventSearch.Proofs.Query.Window
import EventSearch.Proofs.Query.Instant
import EventSearch.Proofs.Query.Assembly
import EventSearch.Proofs.Query.Output
import EventSearch.Proofs.Query.Expression
import EventSearch.Proofs.Value.Decoding
import EventSearch.Proofs.Json.Composition
import EventSearch.Proofs.Client.Framing
import EventSearch.Proofs.Client.Acceptance
import EventSearch.Proofs.Path.Display
import EventSearch.Proofs.Node.Collapse
import EventSearch.Proofs.Span.Display
import EventSearch.Proofs.Json.Listing
import EventSearch.Proofs.Stream.Draft
import EventSearch.Proofs.Query.Listing
import EventSearch.Proofs.Node.Draft
import EventSearch.Proofs.Query.Draft
