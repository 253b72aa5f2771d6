import RevisedSimplex.Reference.Tableau
/-!
The two-phase tableau method, an independent check on the revised method.

Phase one minimizes the sum of the artificial columns, priced out against the artificial
basis, with all columns eligible. If its optimum exceeds `tolerance · (1 + max |rhs|)` the
problem is infeasible. Artificial columns still basic at level zero are then pivoted out where
a real column has an entry above `tolerance` in their row. Phase two restores the real costs,
priced out against the basis, and only real columns may enter. Both phases share one count of
pivots, capped by `maxIterations`, checked once a pivot has been chosen.

Main definitions: `Method`, `Outcome`, `Answer`, `Method.solve`.
-/

namespace RevisedSimplex.Reference

/-- How a phase ended. -/
inductive PhaseEnd where
  | optimal
  | unbounded
  | infeasible
  | iterationLimit
  deriving DecidableEq, Repr

/-- How the method ended. -/
inductive Outcome (α : Type) where
  /-- optimal, with the values of all augmented columns and the objective value -/
  | optimal (values : List α) (objective : α)
  | infeasible
  | unbounded
  /-- the cap on pivots was reached -/
  | iterationLimit
  deriving DecidableEq

/-- The answer of the method: how it ended and how many pivots it made in both phases. -/
structure Answer (α : Type) where
  outcome : Outcome α
  iterations : Nat
  deriving DecidableEq

/-- The settings of the method. -/
structure Method (α : Type) where
  /-- the cap on pivots over both phases -/
  maxIterations : Nat
  /-- the tolerance of every comparison -/
  tolerance : α

variable {α : Type} [Scalar α]

def Method.default : Method α := ⟨10000, 1e-9⟩

namespace Method

/-- Pivots by Bland's rule until no eligible column enters, the column is unbounded, or the
cap is reached. `fuel` bounds the rounds; the cap is reached before it runs out. -/
def iterate (s : Method α) (eligible : Nat) : Nat → Tableau α → PhaseEnd × Tableau α
  | 0, t => (.iterationLimit, t)
  | fuel + 1, t =>
    match t.enteringColumn s.tolerance eligible with
    | none => (.optimal, t)
    | some col =>
      match t.leavingRow s.tolerance col with
      | none => (.unbounded, t)
      | some row =>
        if s.maxIterations ≤ t.iterations then (.iterationLimit, t)
        else s.iterate eligible fuel { t.pivot row col with iterations := t.iterations + 1 }

def runPhase (s : Method α) (eligible : Nat) (t : Tableau α) : PhaseEnd × Tableau α :=
  s.iterate eligible (s.maxIterations - t.iterations + 1) t

def withObjective (t : Tableau α) (objective : List α) : Tableau α :=
  { t with rows := t.rows.set t.numRows objective }

/-- The phase-one objective: the sum of the artificial columns, priced out against the
artificial basis by subtracting every constraint row from it. -/
def phaseOneObjective (t : Tableau α) : List α :=
  let m := t.numRows
  let n := t.numColumns
  let start : List α :=
    (List.range t.width).map fun j => if n ≤ j ∧ j < n + m then 1 else 0
  (t.rows.take m).foldl (fun o r => List.zipWith (· - ·) o r) start

/-- Phase one: minimize the sum of the artificial columns; infeasible if the optimum is above
`tolerance · (1 + max |rhs|)`. -/
def phaseOne (s : Method α) (t : Tableau α) : PhaseEnd × Tableau α :=
  let m := t.numRows
  let n := t.numColumns
  let (ending, t) := s.runPhase (n + m) (withObjective t (phaseOneObjective t))
  if ending ≠ .optimal then (ending, t)
  else
    let rhs := t.rhsColumn
    let infeasibility := -(t.get m rhs)
    let scale := 1 + (t.rows.take m).foldl (fun acc r => Scalar.larger acc (Scalar.abs (r.getD rhs 0))) 0
    if s.tolerance * scale < infeasibility then (.infeasible, t) else (.optimal, t)

/-- Pivots the artificial column basic in `row`, if any, out of it, on the first real column
with an entry above `tolerance` in that row; without one the row keeps it. -/
def driveOutRow (s : Method α) (t : Tableau α) (row : Nat) : Tableau α :=
  if t.basic.getD row 0 < t.numColumns then t
  else
    match (List.range t.numColumns).find? (fun j => s.tolerance < Scalar.abs (t.get row j)) with
    | some col => t.pivot row col
    | none => t

/-- Pivots each artificial column still basic out of its row, on the first real column with
an entry above `tolerance` in that row. Rows without one keep their artificial column. -/
def driveOut (s : Method α) (t : Tableau α) : Tableau α :=
  (List.range t.numRows).foldl s.driveOutRow t

/-- Subtracts a row times the cost of its basic column from the objective `o`, unless that
cost is zero; only the first `n` columns are real and have a cost. -/
def priceOut (p : StandardForm α) (n : Nat) (o : List α) (row : List α × Nat) : List α :=
  let cost : α := if row.2 < n then p.costs.getD row.2 0 else 0
  if cost == 0 then o else List.zipWith (fun x y => x - cost * y) o row.1

def phaseTwoObjective (p : StandardForm α) (t : Tableau α) : List α :=
  let start : List α := p.costs.take t.numColumns ++ List.replicate (t.width - t.numColumns) 0
  ((t.rows.take t.numRows).zip t.basic).foldl (priceOut p t.numColumns) start

/-- Phase two: the real costs priced out against the basis, with only real columns
eligible. -/
def phaseTwo (s : Method α) (p : StandardForm α) (t : Tableau α) : PhaseEnd × Tableau α :=
  s.runPhase t.numColumns (withObjective t (phaseTwoObjective p t))

/-- The values of the real columns at the basis: each basic real column at the right-hand
side of its row, every other column zero. -/
def basicValues (t : Tableau α) : List α :=
  let rhs := t.rhsColumn
  (t.basic.zipIdx).foldl
    (fun vs (b, i) => if b < t.numColumns then vs.set b (t.get i rhs) else vs)
    (List.replicate t.numColumns 0)

def extract (p : StandardForm α) (t : Tableau α) : Outcome α :=
  let values := basicValues t
  .optimal values (dot values p.costs)

/-- Solves the augmented problem by the two phases. -/
def solve (s : Method α) (p : StandardForm α) : Answer α :=
  let (e1, t) := s.phaseOne (Tableau.ofProblem p)
  match e1 with
  | .iterationLimit => ⟨.iterationLimit, t.iterations⟩
  | .unbounded | .infeasible => ⟨.infeasible, t.iterations⟩
  | .optimal =>
    let (e2, t) := s.phaseTwo p (s.driveOut t)
    match e2 with
    | .optimal => ⟨extract p t, t.iterations⟩
    | .unbounded => ⟨.unbounded, t.iterations⟩
    | .iterationLimit => ⟨.iterationLimit, t.iterations⟩
    | .infeasible => ⟨.infeasible, t.iterations⟩

end Method

end RevisedSimplex.Reference
