import RevisedSimplex.Factorization
/-!
The revised simplex method on the augmented problem.

A run starts from the slack basis. If its basic solution has a negative value the program is
reported infeasible; no other basis is ever tested for feasibility. Otherwise each round
prices the columns, and either no column is accepted (the value is optimal), or the count of
iterations reaches the cap (an error), or the ratio test finds no leaving row (the program is
unbounded, reported with the values of the basis before), or the pivot is made, the indices
are sorted, and the new basis is factorized. A singular basis is an error. Every step is
recorded as an `Event`.

A run without a cap is capped at `2 ^ (n + 2m)` iterations, more than there are bases: a run
that does not stop by then has returned to a basis it left, and from there repeats itself
for ever.

Main definitions: `SolveError`, `Outcome`, `Solver`, `Solver.run`.
-/

namespace RevisedSimplex

def natListText (ns : List Nat) : String := "[" ++ ", ".intercalate (ns.map toString) ++ "]"

/-- Why a solve stopped without a status. -/
inductive SolveError where
  /-- the numbers do not form a linear program -/
  | invalidProblem (e : ProblemError)
  /-- the basis with these indices has a singular matrix -/
  | singularBasis (basis : List Nat)
  /-- a column was accepted after this many iterations, the cap -/
  | iterationLimit (iterations : Nat)
  deriving DecidableEq, Repr

def SolveError.message : SolveError → String
  | .invalidProblem e => "Invalid problem: " ++ e.message
  | .singularBasis b => "Basis matrix is singular for basis " ++ natListText b
  | .iterationLimit n => "No terminal status after " ++ toString n ++ " iterations"

/-- How a run ended. -/
inductive Outcome (α : Type) where
  /-- the slack basis has a negative value -/
  | infeasible
  /-- no reduced cost is below `-tolerance`: the objective value, the values of all
  columns and the reduced costs, after this many iterations -/
  | optimal (value : α) (solution reducedCosts : List α) (iterations : Nat)
  /-- the entering column of the last iteration has no positive entry; the value, values and
  reduced costs are those of the basis before it -/
  | unbounded (value : α) (solution reducedCosts : List α) (iterations : Nat)
  deriving DecidableEq

/-- A run: how it ended, or why it stopped, and the events it recorded. -/
structure Run (α : Type) where
  result : Except SolveError (Outcome α)
  trace : List (Event α)

/-- The settings of the revised method. -/
structure Solver (α : Type) where
  /-- a column enters only with a reduced cost below `-tolerance` -/
  tolerance : α
  /-- the cap on the number of iterations, if any -/
  maxIterations : Option Nat

variable {α : Type} [Scalar α]

def Solver.default : Solver α := ⟨1e-12, none⟩

/-- The rounds of a run from basis `b` with factorization `f`, after `count` iterations;
`events` holds what was recorded so far, the last first. -/
def Solver.loop (s : Solver α) (p : StandardForm α) (limit : Nat) :
    Nat → Basis α → Factorization α → List α × α → Nat → List (Event α) → Run α
  | 0, _, _, _, count, events => ⟨.error (.iterationLimit count), events.reverse⟩
  | fuel + 1, b, f, (values, value), count, events =>
    let cand := selectEntering f.reducedCosts
    let events := .reducedCosts cand.minReducedCost f.reducedCosts :: events
    match cand.accepted s.tolerance with
    | none =>
      ⟨.ok (.optimal value values f.reducedCosts count), (.optimal count value :: events).reverse⟩
    | some entering =>
      if limit ≤ count then ⟨.error (.iterationLimit count), events.reverse⟩
      else
        let count := count + 1
        let events := .iterationStarted count entering :: events
        let (leaving, ratios) := ratioTest p f entering
        let events := ratios.reverse ++ events
        match leaving with
        | none =>
          ⟨.ok (.unbounded value values f.reducedCosts count), (.unbounded count :: events).reverse⟩
        | some row =>
          let b := b.replace row entering p
          let events := .basisUpdated count row b.indices :: events
          match factorize p b with
          | none => ⟨.error (.singularBasis b.indices), events.reverse⟩
          | some f => s.loop p limit fuel b f (solution p b f) count events

/-- Solves the program, recording every step. -/
def Solver.run (s : Solver α) (prog : LinearProgram α) : Run α :=
  let p := prog.standardize
  let b := Basis.initial p
  let events := [Event.initialized b.indices]
  match factorize p b with
  | none => ⟨.error (.singularBasis b.indices), events⟩
  | some f =>
    if !f.isFeasible then ⟨.ok .infeasible, events ++ [.infeasible f.basicSolution]⟩
    else
      let limit := s.maxIterations.getD (Nat.pow 2 (p.numVariables + 2 * p.numConstraints))
      s.loop p limit (limit + 1) b f (solution p b f) 0 events.reverse

end RevisedSimplex
