import RevisedSimplex.Reference.Summary
import RevisedSimplex.Decimal.Notation
/-!
The text reports of a solve.

* `Summary.render`: the status headline between two rules of 61 dashes, the optimal value
  when optimal, the number of iterations and the status.
* `Summary.renderDetail`: a table of every column (`x0…` for structural columns, `s0…` for
  slacks) with its value and reduced cost, six places each, right-aligned; empty when there
  are no values. A missing reduced cost is printed as zero.
* `Agreement.render`: the two-phase method's status, its optimal value when it has values,
  its pivots, the objective difference with an exponent, and a verdict.

Numbers in running text are written in the `plain` notation.

Main definitions: `rule`, `Summary.render`, `Summary.renderDetail`, `Agreement.render`.
-/

namespace RevisedSimplex

open Decimal

/-- A rule of 61 dashes. -/
def rule : String := String.ofList (List.replicate 61 '-')

def Status.headline : Status → String
  | .optimal => "The problem is optimal."
  | .infeasible => "The problem is infeasible."
  | .unbounded => "The problem is unbounded."

def lines (ls : List String) : String := String.join (ls.map (· ++ "\n"))

/-- Status headline, value when optimal, iteration count and status. -/
def Summary.render (r : Summary) : String :=
  lines ([rule, r.status.headline, rule] ++
    (if r.status = .optimal then ["Optimal value: " ++ plain.render r.optimalValue] else []) ++
    ["Number of iterations: " ++ toString r.iterationCount, "Status: " ++ r.status.name])

def columnLabel (n j : Nat) : String :=
  if j < n then "x" ++ toString j else "s" ++ toString (j - n)

def cell (x : Float) : String := padLeft 16 (plain.fixed 6 x)

/-- The solution vector and reduced costs, one column per line. -/
def Summary.renderDetail (r : Summary) : String :=
  if r.solutionVector.isEmpty then ""
  else
    "\n" ++ lines ((padLeft 8 "column" ++ " " ++ padLeft 16 "value" ++ " " ++ padLeft 16 "reduced cost") ::
      r.solutionVector.zipIdx.map fun (v, j) =>
        padLeft 8 (columnLabel r.numVariables j) ++ " " ++ cell v ++ " " ++
          cell (r.reducedCosts.getD j 0))

def Agreement.verdict (c : Agreement) : String :=
  if c.agrees then "Results agree."
  else if !c.statusAgrees then "Results disagree on status."
  else "Results disagree on the optimal value."

/-- The two-phase method's answer and the comparison. -/
def Agreement.render (c : Agreement) (ref : Reference.Summary) : String :=
  lines ([rule, "Reference solver", rule, "Status: " ++ ref.status.title] ++
    (if ref.values.isEmpty then [] else ["Optimal value: " ++ plain.render ref.objectiveValue]) ++
    ["Number of iterations: " ++ toString ref.iterations] ++
    (match c.objectiveDifference with
      | some d => ["Objective difference: " ++ scientific.render d]
      | none => []) ++
    [c.verdict])

end RevisedSimplex
