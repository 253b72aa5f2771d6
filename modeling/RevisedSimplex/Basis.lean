import RevisedSimplex.LinearProgram
import RevisedSimplex.Matrix
/-!
The basis of a solve: which columns are basic, the basis matrix `B` and the basic costs.

Column `i` of `B` is column `indices[i]` of the augmented constraint matrix, and the `i`-th
basic cost is that column's cost. Both are rebuilt from the indices whenever the indices
change, so the positions carry no state of their own. After a pivot the indices are sorted
ascending.

Main definitions: `StandardForm`, `LinearProgram.standardize`, `Basis`, `Basis.initial`,
`Basis.replace`, `Basis.scatter`.
-/

/-! ## The augmented problem: one slack column per constraint row

For a program with `n` variables and `m` constraints the constraint matrix becomes `[A | I]`,
`m × (n + m)`, and the costs `[c | 0]`; the right-hand side is unchanged. Columns below `n`
are structural and column `n + i` is the slack of row `i`. -/

namespace RevisedSimplex

/-- A problem `min c'·x, A' x = b, x ≥ 0` whose last `m` columns form an identity. -/
structure StandardForm (α : Type) where
  /-- `[A | I]` -/
  constraints : Matrix α
  /-- `b` -/
  rhs : List α
  /-- `[c | 0]` -/
  costs : List α
  numConstraints : Nat
  numVariables : Nat

namespace StandardForm

variable {α : Type}

def numColumns (p : StandardForm α) : Nat := p.numVariables + p.numConstraints

def slackColumn (p : StandardForm α) (row : Nat) : Nat := p.numVariables + row

end StandardForm

variable {α : Type} [Scalar α]

/-- Appends the slack columns. -/
def LinearProgram.standardize (prog : LinearProgram α) : StandardForm α :=
  let m := prog.numConstraints
  let n := prog.numVariables
  let rows := prog.constraints.zipIdx.map fun (row, i) =>
    row ++ (List.range m).map fun j => if i = j then (1 : α) else 0
  { constraints := ⟨rows, n + m⟩
    rhs := prog.rhs
    costs := prog.objective ++ List.replicate m 0
    numConstraints := m
    numVariables := n }

end RevisedSimplex

namespace RevisedSimplex

/-- A basis: its column indices, the basis matrix and the costs of the basic columns. -/
structure Basis (α : Type) where
  indices : List Nat
  matrix : Matrix α
  costs : List α

def insertAscending (col : Nat) : List Nat → List Nat
  | [] => [col]
  | c :: cs => if col ≤ c then col :: c :: cs else c :: insertAscending col cs

def sortAscending : List Nat → List Nat
  | [] => []
  | c :: cs => insertAscending c (sortAscending cs)

namespace Basis

variable {α : Type} [Scalar α]

def ofIndices (p : StandardForm α) (indices : List Nat) : Basis α :=
  let m := p.numConstraints
  { indices := indices
    matrix := ⟨(List.range m).map fun r => indices.map fun col => p.constraints.get r col, m⟩
    costs := indices.map fun col => p.costs.getD col 0 }

/-- The slack basis: column `n + i` for row `i`, so `B` is the identity. -/
def initial (p : StandardForm α) : Basis α :=
  ofIndices p ((List.range p.numConstraints).map p.slackColumn)

def contains (b : Basis α) (col : Nat) : Bool := b.indices.contains col

/-- Makes `entering` basic in place of the column at position `leavingRow`, then sorts the
indices ascending and rebuilds the matrix and costs. -/
def replace (b : Basis α) (leavingRow entering : Nat) (p : StandardForm α) : Basis α :=
  ofIndices p (sortAscending (b.indices.set leavingRow entering))

/-- Spreads one value per basic column over `len` columns, zero elsewhere. -/
def scatter (b : Basis α) (values : List α) (len : Nat) : List α :=
  (b.indices.zip values).foldl (fun acc (col, v) => acc.set col v) (List.replicate len 0)

end Basis

end RevisedSimplex
