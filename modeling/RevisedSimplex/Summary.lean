import RevisedSimplex.Solve
import RevisedSimplex.Decimal.Read
/-!
The record of a solve that reports, logs and the command line print.

An infeasible outcome is recorded with value `+∞`, no values and no reduced costs, and zero
iterations. The values of the structural columns are the first `n` of the solution vector,
and the slack values the rest.

Main definitions: `Status`, `Summary`, `Outcome.summary`.
-/

namespace RevisedSimplex

/-- How a solve ended. -/
inductive Status where
  | optimal
  | infeasible
  | unbounded
  deriving DecidableEq, Repr

def Status.name : Status → String
  | .optimal => "optimal"
  | .infeasible => "infeasible"
  | .unbounded => "unbounded"

/-- The printed record of a solve, with numbers in `α` (by default the floats that run). -/
structure Summary (α : Type := Float) where
  status : Status
  /-- objective value of the last basis; only meaningful when optimal -/
  optimalValue : α
  /-- values of all `n + m` columns, zero outside the basis -/
  solutionVector : List α
  /-- reduced costs of all `n + m` columns -/
  reducedCosts : List α
  /-- number of iterations started -/
  iterationCount : Nat
  /-- number of structural columns -/
  numVariables : Nat

namespace Summary

variable {α : Type}

def isOptimal (r : Summary α) : Bool := r.status == .optimal

def structuralSolution (r : Summary α) : List α := r.solutionVector.take r.numVariables

def slackSolution (r : Summary α) : List α := r.solutionVector.drop r.numVariables

end Summary

/-- The record of an outcome for a program with `n` structural columns; `1 / 0` is `+∞` in the
floats. -/
def Outcome.summary {α : Type} [Scalar α] (o : Outcome α) (n : Nat) : Summary α :=
  match o with
  | .infeasible => ⟨.infeasible, 1 / 0, [], [], 0, n⟩
  | .optimal v x r k => ⟨.optimal, v, x, r, k, n⟩
  | .unbounded v x r k => ⟨.unbounded, v, x, r, k, n⟩

end RevisedSimplex
