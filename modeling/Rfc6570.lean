import Rfc6570.Text.Basic
import Rfc6570.Text.Utf8
import Rfc6570.Text.Percent
import Rfc6570.Text.Printable
import Rfc6570.Text.Quoted
import Rfc6570.Text.Blank
import Rfc6570.Text.Digit
import Rfc6570.Number.Binary64
import Rfc6570.Number.Nearest
import Rfc6570.Number.Shortest
import Rfc6570.Number.FloatText
import Rfc6570.Number.IntLiteral
import Rfc6570.Number.FloatLiteral
import Rfc6570.Value.Basic
import Rfc6570.Fault
import Rfc6570.Value.Text
import Rfc6570.Value.Order
import Rfc6570.Sorting.Run
import Rfc6570.Sorting.Gallop
import Rfc6570.Sorting.Merge
import Rfc6570.Sorting.Schedule
import Rfc6570.Value.Dict
import Rfc6570.Value.Key
import Rfc6570.Operator
import Rfc6570.Expression.Basic
import Rfc6570.Expression.Expand
import Rfc6570.Template.Basic
import Rfc6570.Template.Expand
import Rfc6570.Template.Call
import Rfc6570.ArrivalSet.Basic
import Rfc6570.ArrivalSet.Algebra
import Rfc6570.ArrivalSet.Mutation
import Rfc6570.Workload.Data
import Rfc6570.Workload.Size
import Rfc6570.Workload.Run
import Rfc6570.Proofs.Except
import Rfc6570.Proofs.Scan
import Rfc6570.Proofs.Splicing
import Rfc6570.Proofs.Sorting.Search
import Rfc6570.Proofs.Sorting.Permutation
import Rfc6570.Proofs.Sorting.Sorted
import Rfc6570.Proofs.Reference
import Rfc6570.Proofs.Conformance.Encoding
import Rfc6570.Proofs.Conformance.Parsing
import Rfc6570.Proofs.Conformance.Order
import Rfc6570.Proofs.Conformance.Expansion
import Rfc6570.Proofs.Skeleton
import Rfc6570.Proofs.Layout
import Rfc6570.Proofs.Rebinding
import Rfc6570.Proofs.AbsentMembers
import Rfc6570.Proofs.Canonical
import Rfc6570.Proofs.MemberList
import Rfc6570.Proofs.SetRuns
import Rfc6570.Proofs.Requoting
import Rfc6570.Proofs.Refusal
import Rfc6570.Proofs.SetAlgebra
