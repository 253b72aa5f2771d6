import RevisedSimplex.Basis
/-!
The dense tableau of the two-phase method.

Rows `0 … m-1` are the constraints and row `m` is the objective. Columns are the `n + m`
columns of the augmented problem, then one artificial column per row, then the right-hand
side. A row whose right-hand side is negative is negated, so that the artificial columns form
a feasible first basis.

Pivoting follows Bland's rule. The entering column is the first eligible column with an
objective entry below `-tolerance`. The leaving row is the first with an entry above
`tolerance`, replaced by a later row whose ratio is smaller by more than `tolerance`, or within
`tolerance` and with a smaller basic column.

Main definitions: `Tableau`, `Tableau.ofProblem`, `Tableau.pivot`, `Tableau.enteringColumn`,
`Tableau.leavingRow`.
-/

namespace RevisedSimplex.Reference

/-- A tableau: its rows (constraints, then the objective), the basic column of each
constraint row, the number of columns of the augmented problem, and the pivots made. -/
structure Tableau (α : Type) where
  rows : List (List α)
  basic : List Nat
  numColumns : Nat
  iterations : Nat

namespace Tableau

variable {α : Type} [Scalar α]

def width (t : Tableau α) : Nat := (t.rows.getD 0 []).length

def rhsColumn (t : Tableau α) : Nat := t.width - 1

def numRows (t : Tableau α) : Nat := t.basic.length

def get (t : Tableau α) (i j : Nat) : α := (t.rows.getD i []).getD j 0

/-- The first tableau of a problem: sign-corrected rows with an artificial basis, and an
objective row of zeros. -/
def ofProblem (p : StandardForm α) : Tableau α :=
  let m := p.numConstraints
  let n := p.numColumns
  let row (i : Nat) : List α :=
    let b := p.rhs.getD i 0
    let sign : α := if b < 0 then -1 else 1
    ((p.constraints.rows.getD i []).map (sign * ·)) ++
      (List.range m).map (fun k => if k = i then 1 else 0) ++ [sign * b]
  { rows := (List.range m).map row ++ [List.replicate (n + m + 1) 0]
    basic := (List.range m).map (n + ·)
    numColumns := n
    iterations := 0 }

/-- Makes column `col` basic in row `row`: the row is divided by its entry in `col`, and every
other row with a non-zero entry there is reduced by it. The count of pivots is not changed. -/
def pivot (t : Tableau α) (row col : Nat) : Tableau α :=
  let pivotVal := t.get row col
  let prow := (t.rows.getD row []).map (· / pivotVal)
  let reduce (i : Nat) (r : List α) : List α :=
    if i = row then prow
    else
      let factor := r.getD col 0
      if factor == 0 then r else subScaled r factor prow
  { t with
    rows := t.rows.zipIdx.map fun (r, i) => reduce i r
    basic := t.basic.set row col }

/-- Bland's rule: the first of the `eligible` columns whose objective entry is below
`-tolerance`. -/
def enteringColumn (t : Tableau α) (tolerance : α) (eligible : Nat) : Option Nat :=
  (List.range eligible).find? fun j => t.get t.numRows j < -tolerance

/-- The minimum-ratio row for column `col` among rows whose entry is above `tolerance`; ties
within `tolerance` go to the row with the smaller basic column. -/
def leavingRow (t : Tableau α) (tolerance : α) (col : Nat) : Option Nat :=
  let rhs := t.rhsColumn
  let step (best : Option (Nat × α)) (i : Nat) : Option (Nat × α) :=
    let val := t.get i col
    if tolerance < val then
      let ratio := t.get i rhs / val
      match best with
      | none => some (i, ratio)
      | some (r, minRatio) =>
        if ratio < minRatio - tolerance ∨
            (ratio ≤ minRatio + tolerance ∧ t.basic.getD i 0 < t.basic.getD r 0) then
          some (i, ratio)
        else best
    else best
  ((List.range t.numRows).foldl step none).map (·.1)

end Tableau

end RevisedSimplex.Reference
