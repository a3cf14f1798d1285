import LayeredConfig.Host.FileTree
import LayeredConfig.Main
import LayeredConfig.Operation
import LayeredConfig.Proofs.AddressText
import LayeredConfig.Proofs.Agreement
import LayeredConfig.Proofs.Alike
import LayeredConfig.Proofs.Assignments
import LayeredConfig.Proofs.ByteOrder
import LayeredConfig.Proofs.Consistency
import LayeredConfig.Proofs.Double.Nearest
import LayeredConfig.Proofs.Double.Packing
import LayeredConfig.Proofs.Double.Rounding
import LayeredConfig.Proofs.Double.Shortest
import LayeredConfig.Proofs.Double.Text
import LayeredConfig.Proofs.Effects
import LayeredConfig.Proofs.Erasure
import LayeredConfig.Proofs.Failure
import LayeredConfig.Proofs.Faults
import LayeredConfig.Proofs.FileFormat
import LayeredConfig.Proofs.FixedPath
import LayeredConfig.Proofs.GroupByName
import LayeredConfig.Proofs.Groups
import LayeredConfig.Proofs.HasKind
import LayeredConfig.Proofs.Indented
import LayeredConfig.Proofs.Installed
import LayeredConfig.Proofs.Invariant
import LayeredConfig.Proofs.Keyed
import LayeredConfig.Proofs.LastOfAll
import LayeredConfig.Proofs.Layout
import LayeredConfig.Proofs.LineKinds
import LayeredConfig.Proofs.Listing
import LayeredConfig.Proofs.Loading
import LayeredConfig.Proofs.Locality
import LayeredConfig.Proofs.Masking
import LayeredConfig.Proofs.Memo
import LayeredConfig.Proofs.Normalized
import LayeredConfig.Proofs.Order
import LayeredConfig.Proofs.Pieces
import LayeredConfig.Proofs.Precedence
import LayeredConfig.Proofs.Projection
import LayeredConfig.Proofs.ReadBack
import LayeredConfig.Proofs.Redaction
import LayeredConfig.Proofs.Reloading
import LayeredConfig.Proofs.Repetition
import LayeredConfig.Proofs.Roles
import LayeredConfig.Proofs.SearchOrder
import LayeredConfig.Proofs.SelfEqual
import LayeredConfig.Proofs.Settled
import LayeredConfig.Proofs.Splitting
import LayeredConfig.Proofs.Statements
import LayeredConfig.Proofs.TableText
import LayeredConfig.Proofs.Trimming
import LayeredConfig.Proofs.Verdict
import LayeredConfig.Proofs.Views
import LayeredConfig.Proofs.WellFormed
import LayeredConfig.Proofs.Written
import LayeredConfig.View
