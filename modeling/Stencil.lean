import Stencil.Arity
import Stencil.Call
import Stencil.Context.Application
import Stencil.Context.Basic
import Stencil.Context.Description
import Stencil.Double.Integer
import Stencil.Double.Rounding
import Stencil.Double.Shortest
import Stencil.Double.Text
import Stencil.Double.Units
import Stencil.Error
import Stencil.Evaluation
import Stencil.Function.Body
import Stencil.Function.Stock
import Stencil.Integer
import Stencil.Limits
import Stencil.Member.Basic
import Stencil.Member.Lookup
import Stencil.Member.Number
import Stencil.Member.Text
import Stencil.Node.Basic
import Stencil.Node.Outline
import Stencil.Operator.Basic
import Stencil.Operator.Gate
import Stencil.Outcome
import Stencil.Scope
import Stencil.Session
import Stencil.Size
import Stencil.Store
import Stencil.Table
import Stencil.Text.Blank
import Stencil.Text.Case
import Stencil.Text.Case.Mapping
import Stencil.Text.Case.Property
import Stencil.Text.Copies
import Stencil.Text.Occurrence
import Stencil.Text.Printable
import Stencil.Text.Quoted
import Stencil.Text.Ranges
import Stencil.Value.Arithmetic
import Stencil.Value.Basic
import Stencil.Value.Operation
import Stencil.Variable
import Stencil.Version
import Stencil.Proofs.Course.Basic
import Stencil.Proofs.Course.Agreement
import Stencil.Proofs.Course.Induction
import Stencil.Proofs.CallDepth
import Stencil.Proofs.Prompt
import Stencil.Proofs.Unwinding
import Stencil.Proofs.Course.Changes
import Stencil.Proofs.Assignment
import Stencil.Proofs.Text.Bytes
import Stencil.Proofs.Member
import Stencil.Proofs.Outcome
import Stencil.Proofs.StringLimit
import Stencil.Proofs.Course.Activity
import Stencil.Proofs.Node
import Stencil.Proofs.Plain
import Stencil.Proofs.Limits
import Stencil.Proofs.Machine
import Stencil.Proofs.Termination
import Stencil.Proofs.Signals
import Stencil.Proofs.IntegerExpression
import Stencil.Proofs.Session
import Stencil.Proofs.Isolation
import Stencil.Proofs.Frame
import Stencil.Proofs.Course.Inside
import Stencil.Proofs.Deciding
import Stencil.Proofs.ShortCircuit
import Stencil.Proofs.Course.Lockstep
import Stencil.Proofs.Kind
import Stencil.Proofs.Substitution
import Stencil.Proofs.Wrapping
import Stencil.Proofs.Mentioned
import Stencil.Proofs.Renaming
import Stencil.Proofs.Access.Basic
import Stencil.Proofs.Course.Collected
import Stencil.Proofs.Visits
import Stencil.Proofs.Access.Run
import Stencil.Proofs.Access.Session
import Stencil.Proofs.Course.Reads
import Stencil.Proofs.Registry
import Stencil.Proofs.Computed
import Stencil.Proofs.Double.Bits
import Stencil.Proofs.Double.Nearest
import Stencil.Proofs.Comparison
import Stencil.Proofs.Double.Exact
import Stencil.Proofs.Double.Shortest
import Stencil.Proofs.Double.Text
import Stencil.Proofs.Faults
import Stencil.Proofs.Text.Positions
import Stencil.Proofs.Growth
import Stencil.Proofs.Display
import Stencil.Proofs.Characters
import Stencil.Proofs.Rounding
import Stencil.Proofs.Occurrence
import Stencil.Proofs.Sequence
import Stencil.Proofs.Dispatch
import Stencil.Proofs.Text.Lines
import Stencil.Proofs.Outline
import Stencil.Proofs.Application
