import RowFilter.Config
import RowFilter.Expr.Builder
import RowFilter.Filter
import RowFilter.Schema.Json
import RowFilter.Value.Json
import RowFilter.View
import RowFilter.Proofs.Filter.FillingIn
import RowFilter.Proofs.Filter.Partition
import RowFilter.Proofs.Filter.Rebinding
import RowFilter.Proofs.Filter.Sequential
import RowFilter.Proofs.Filter.Connectives
import RowFilter.Proofs.View.Filtered
import RowFilter.Proofs.View.Nested
import RowFilter.Proofs.Batch.Append
import RowFilter.Proofs.Filter.Locality
import RowFilter.Proofs.Memory.Limits
import RowFilter.Proofs.Memory.Saturation
import RowFilter.Proofs.Expr.Brackets
import RowFilter.Proofs.Filter.Inputs
import RowFilter.Proofs.Registry.Keys
import RowFilter.Proofs.Registry.Map
import RowFilter.Proofs.Memory.Allocation
import RowFilter.Proofs.Expr.Polynomial
import RowFilter.Proofs.Schema.Making
import RowFilter.Proofs.Batch.Exchange
import RowFilter.Proofs.Json.Text
import RowFilter.Proofs.Json.Reading
import RowFilter.Proofs.Schema.Json
import RowFilter.Proofs.Kernel.Acceptance
import RowFilter.Proofs.Expr.Comparison
import RowFilter.Proofs.Expr.Division
import RowFilter.Proofs.Config.Json
import RowFilter.Proofs.Expr.Operands
