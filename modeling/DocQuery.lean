import DocQuery.Main
import DocQuery.Predicate.Equality
import DocQuery.Predicate.Form
import DocQuery.Proofs.Predicate.FaultSource
import DocQuery.Proofs.Query.KeyOrder
import DocQuery.Proofs.Query.Meaning
import DocQuery.Proofs.Scan.Completion
import DocQuery.Proofs.Text.WhiteSpace
import DocQuery.Proofs.Json.Congruence
import DocQuery.Proofs.Predicate.Locality
import DocQuery.Proofs.Scan.Failure
import DocQuery.Proofs.Scan.Piping
import DocQuery.Proofs.Json.Tokens
import DocQuery.Proofs.Query.Shape
import DocQuery.Proofs.Scan.Strictness
import DocQuery.Proofs.Json.Reading
import DocQuery.Proofs.Predicate.Form
import DocQuery.Proofs.Query.Growth
import DocQuery.Proofs.Json.Transitivity
import DocQuery.Proofs.Command.Outcome
import DocQuery.Proofs.Query.Membership
import DocQuery.Proofs.Command.Precedence
import DocQuery.Proofs.Scan.Composition
import DocQuery.Proofs.Scan.Counting
import DocQuery.Proofs.Scan.Layout
import DocQuery.Proofs.Command.Flags
import DocQuery.Proofs.Command.LastFlag
import DocQuery.Proofs.Json.Coherence
import DocQuery.Proofs.Command.Settings
