import RevisedSimplex.Summary
import RevisedSimplex.Reference.Method
import RevisedSimplex.Decimal.Read
/-!
The printed record of the two-phase method's answer.

Only an optimal answer has values. The objective value of the others is `+∞` when
infeasible, `-∞` when unbounded and NaN at the cap on pivots.

Main definitions: `Agreement`, `Summary.crossCheck`, `Status`, `Summary`, `Answer.summary`.
-/

namespace RevisedSimplex.Reference

/-- How the two-phase method ended. -/
inductive Status where
  | optimal
  | infeasible
  | unbounded
  | iterationLimit
  deriving DecidableEq, Repr

def Status.name : Status → String
  | .optimal => "optimal"
  | .infeasible => "infeasible"
  | .unbounded => "unbounded"
  | .iterationLimit => "iteration_limit"

def Status.title : Status → String
  | .optimal => "Optimal"
  | .infeasible => "Infeasible"
  | .unbounded => "Unbounded"
  | .iterationLimit => "IterationLimit"

/-- The printed record of the method's answer, with numbers in `α` (by default the floats that
run). -/
structure Summary (α : Type := Float) where
  status : Status
  objectiveValue : α
  /-- values of all augmented columns; empty unless optimal -/
  values : List α
  /-- pivots over both phases -/
  iterations : Nat

/-- The record of an answer; in the floats `1 / 0` is `+∞` and `0 / 0` is NaN. -/
def Answer.summary {α : Type} [Scalar α] (a : Answer α) : Summary α :=
  match a.outcome with
  | .optimal values objective => ⟨.optimal, objective, values, a.iterations⟩
  | .infeasible => ⟨.infeasible, 1 / 0, [], a.iterations⟩
  | .unbounded => ⟨.unbounded, -(1 / 0), [], a.iterations⟩
  | .iterationLimit => ⟨.iterationLimit, 0 / 0, [], a.iterations⟩

end RevisedSimplex.Reference

/-! ## Whether the revised method and the two-phase method agree

The statuses agree when both are optimal, both infeasible or both unbounded. When both are
optimal, the difference of their objective values counts, and they agree only if it is at
most the tolerance. -/

namespace RevisedSimplex

/-- The comparison of a solve with the two-phase method's answer, with numbers in `α` (by
default the floats that run). -/
structure Agreement (α : Type := Float) where
  status : Status
  referenceStatus : Reference.Status
  statusAgrees : Bool
  /-- `|value - reference value|` when both are optimal -/
  objectiveDifference : Option α
  agrees : Bool

def crossCheckTolerance : Float := 1e-6

def Status.matches : Status → Reference.Status → Bool
  | .optimal, .optimal => true
  | .infeasible, .infeasible => true
  | .unbounded, .unbounded => true
  | _, _ => false

/-- Compares a solve with the two-phase method's answer. -/
def Summary.crossCheck {α : Type} [Scalar α] (r : Summary α) (ref : Reference.Summary α)
    (tolerance : α) : Agreement α :=
  let statusAgrees := r.status.matches ref.status
  let difference :=
    if r.status = .optimal ∧ ref.status = .optimal then
      some (Scalar.abs (r.optimalValue - ref.objectiveValue))
    else none
  { status := r.status
    referenceStatus := ref.status
    statusAgrees := statusAgrees
    objectiveDifference := difference
    agrees := statusAgrees && difference.all (· ≤ tolerance) }

end RevisedSimplex
