import RevisedSimplex.Solve
import RevisedSimplex.Decimal.Notation
/-!
The log of a solve: a message per line, each at a level.

Each event gives one or two messages. Iteration-level messages are at level `info`, and the
reduced costs and the rows of the ratio test are at level `debug`. A log written without
detail keeps the `info` and `error` messages only. Single numbers are written in the `plain`
notation and lists in the `listed` one, between brackets: `[2.0, 6.0]`.

Main definitions: `Level`, `Entry`, `Event.entries`, `Log.text`.
-/

namespace RevisedSimplex

/-- How important a message is. -/
inductive Level where
  | error
  | info
  | debug
  deriving DecidableEq, Repr

/-- A message with its level. -/
structure Entry where
  level : Level
  text : String

def floatListText (xs : List Float) : String :=
  "[" ++ ", ".intercalate (xs.map Decimal.listed.render) ++ "]"

def Event.entries : Event Float → List Entry
  | .initialized b => [⟨.info, "Basis indices: " ++ natListText b⟩]
  | .infeasible xs =>
    [⟨.info, "Initial basic solution: " ++ floatListText xs⟩, ⟨.info, "Problem Infeasible."⟩]
  | .reducedCosts m xs =>
    [⟨.debug, "Reduced costs: " ++ floatListText xs⟩,
      ⟨.info, "Min reduced cost: " ++ Decimal.plain.render m⟩]
  | .iterationStarted k e =>
    [⟨.info, "=> Iteration: " ++ toString k⟩, ⟨.info, " Entering variable index: " ++ toString e⟩]
  | .ratio r x => [⟨.debug, "  Ratio (row " ++ toString r ++ "): " ++ Decimal.plain.render x⟩]
  | .leavingCandidate r x =>
    [⟨.debug, "  Leaving variable index: " ++ toString r⟩,
      ⟨.debug, "  Min ratio: " ++ Decimal.plain.render x⟩]
  | .basisUpdated _ r b =>
    [⟨.info, "  Leaving variable index: " ++ toString r⟩,
      ⟨.info, "Updated basis indices: " ++ natListText b⟩]
  | .unbounded k => [⟨.info, "Problem Unbounded (iteration " ++ toString k ++ ")."⟩]
  | .optimal k v =>
    [⟨.info, "Optimal value " ++ Decimal.plain.render v ++ " after " ++ toString k ++ " iterations"⟩]

def Entry.shown (detail : Bool) (e : Entry) : Bool := detail || e.level != .debug

/-- The written log: the messages shown, one per line. -/
def Log.text (detail : Bool) (entries : List Entry) : String :=
  String.join ((entries.filter (Entry.shown detail)).map (·.text ++ "\n"))

def Log.ofTrace (trace : List (Event Float)) : List Entry := trace.flatMap Event.entries

end RevisedSimplex
