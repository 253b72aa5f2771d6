import RevisedSimplex.Dump
import RevisedSimplex.Source.Parse
import RevisedSimplex.Reference.Summary
/-!
The records the command line writes out, as `Dump` trees.

A parsed text is a `Program` of `Assignment`s, each with its `Span`, name and value; a value is a
`Number` or a `List`, cases of one enumeration. A solve's record holds its status, optimal
value, solution vector, reduced costs, iteration count and number of variables; the two-phase
method's record its status, objective value, values and iterations; the comparison of the two
the statuses, whether they agree, the objective difference when both are optimal, and the
verdict. Statuses are written capitalised in debug text and in lower case, words joined by
`_`, in JSON.

Main definitions: `Source.Document.dump`, `Summary.dump`, `Reference.Summary.dump`,
`Agreement.dump`, `solveRecord`.
-/

namespace RevisedSimplex

namespace Source

def Span.dump (s : Span) : Dump := .record "Span" false [("start", .nat s.start), ("end", .nat s.stop)]

/-- The record of a value: a case `Number` or `List` with its span. -/
def Value.dump : Value → Dump
  | .number span x => .record "Number" true [("span", span.dump), ("value", .float x)]
  | .list span items =>
    .record "List" true [("span", span.dump), ("items", .list (items.map Value.dump))]

def Assignment.dump (a : Assignment) : Dump :=
  .record "Assignment" false [("span", a.span.dump), ("name", .string a.name), ("value", a.value.dump)]

def Document.dump (d : Document) : Dump :=
  .record "Program" false [("assignments", .list (d.assignments.map Assignment.dump))]

end Source

def Status.title : Status → String
  | .optimal => "Optimal"
  | .infeasible => "Infeasible"
  | .unbounded => "Unbounded"

def Status.dump (s : Status) : Dump := .tag s.title s.name

def Summary.dump (r : Summary) : Dump :=
  .record "IterationResult" false [
    ("status", r.status.dump),
    ("optimal_value", .float r.optimalValue),
    ("solution_vector", .list (r.solutionVector.map .float)),
    ("reduced_costs", .list (r.reducedCosts.map .float)),
    ("iteration_count", .nat r.iterationCount),
    ("num_variables", .nat r.numVariables)]

def Reference.Status.dump (s : Reference.Status) : Dump := .tag s.title s.name

def Reference.Summary.dump (r : Reference.Summary) : Dump :=
  .record "ReferenceSolution" false [
    ("status", r.status.dump),
    ("objective_value", .float r.objectiveValue),
    ("values", .list (r.values.map .float)),
    ("iterations", .nat r.iterations)]

def Agreement.dump (c : Agreement) : Dump :=
  .record "CrossCheck" false [
    ("status", c.status.dump),
    ("reference_status", c.referenceStatus.dump),
    ("status_agrees", .bool c.statusAgrees),
    ("objective_difference", match c.objectiveDifference with
      | some d => .some (.float d)
      | none => .none),
    ("agrees", .bool c.agrees)]

/-- The record `solve` prints as JSON: the solve, and the two-phase method's answer and the
comparison when asked for. -/
def solveRecord (r : Summary) (compared : Option (Reference.Summary × Agreement)) : Dump :=
  .record "JsonOutput" false ([("result", r.dump)] ++
    match compared with
    | some (ref, c) => [("reference", ref.dump), ("cross_check", c.dump)]
    | none => [])

end RevisedSimplex
