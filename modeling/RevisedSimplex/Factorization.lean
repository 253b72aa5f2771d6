import RevisedSimplex.Basis
/-!
What one inversion of the basis matrix gives, and the two choices of a pivot.

A `Factorization` of a basis holds `B⁻¹`, the tableau `B⁻¹ A'`, the basic solution `B⁻¹ b`
and the reduced costs `c' - c_Bᵀ B⁻¹ A'`.

* The entering column is found by a running minimum over the reduced costs that starts at
  zero and moves only on a strictly smaller value, so the first column reaching the minimum
  wins and NaN never does. The column is accepted only if the minimum is below `-tolerance`.
* The leaving row is found by the ratio test: only rows whose tableau entry in the entering
  column is positive take part, and a row wins only with a ratio strictly below the best so
  far, which starts at `+∞`. So the first row reaching the minimum wins, and an infinite or
  NaN ratio never does. No winner means the column is unbounded.

Main definitions: `Event`, `Factorization`, `factorize`, `Entering`, `selectEntering`,
`ratioTest`.
-/

/-! ## The events a solve records, in the order it performs its steps -/

namespace RevisedSimplex

/-- One step of a solve. -/
inductive Event (α : Type) where
  /-- the slack basis is installed -/
  | initialized (basis : List Nat)
  /-- the slack basis has a negative value -/
  | infeasible (basicSolution : List α)
  /-- the reduced costs of the current basis, with their running minimum -/
  | reducedCosts (minReducedCost : α) (costs : List α)
  /-- a column enters in iteration `iteration` -/
  | iterationStarted (iteration entering : Nat)
  /-- a row passed the positivity test of the ratio test -/
  | ratio (row : Nat) (ratio : α)
  /-- a row improved on the best ratio so far -/
  | leavingCandidate (row : Nat) (ratio : α)
  /-- the basis after the pivot of iteration `iteration` -/
  | basisUpdated (iteration leavingRow : Nat) (basis : List Nat)
  /-- the entering column of iteration `iteration` has no positive entry -/
  | unbounded (iteration : Nat)
  /-- no column enters: the value is optimal -/
  | optimal (iterationCount : Nat) (value : α)
  deriving DecidableEq

end RevisedSimplex

namespace RevisedSimplex

/-- Quantities derived from one inversion of the basis matrix. -/
structure Factorization (α : Type) where
  /-- `B⁻¹` -/
  inverse : Matrix α
  /-- `B⁻¹ A'` -/
  tableau : Matrix α
  /-- `B⁻¹ b`, one value per basis position -/
  basicSolution : List α
  /-- `c' - c_Bᵀ B⁻¹ A'` -/
  reducedCosts : List α

variable {α : Type} [Scalar α]

/-- Whether every basic value is at least zero (`-0` counts as zero). -/
def Factorization.isFeasible (f : Factorization α) : Bool := f.basicSolution.all (0 ≤ ·)

/-- Inverts the basis matrix and derives the rest, or `none` if the basis is singular. -/
def factorize (p : StandardForm α) (b : Basis α) : Option (Factorization α) :=
  b.matrix.inverse.map fun inv =>
    let tableau := inv.mul p.constraints
    let prices := tableau.vecMul b.costs
    { inverse := inv
      tableau := tableau
      basicSolution := inv.mulVec p.rhs
      reducedCosts := List.zipWith (· - ·) p.costs prices }

def solution (p : StandardForm α) (b : Basis α) (f : Factorization α) : List α × α :=
  (b.scatter f.basicSolution p.numColumns, dot b.costs f.basicSolution)

/-- The result of the running-minimum scan over reduced costs. -/
structure Entering (α : Type) where
  /-- the first column reaching the minimum, if some reduced cost is negative -/
  column : Option Nat
  /-- the minimum, starting from zero -/
  minReducedCost : α

/-- Scans left to right, replacing the candidate only on a strictly smaller reduced cost. -/
def selectEntering (reducedCosts : List α) : Entering α :=
  reducedCosts.zipIdx.foldl
    (fun c (x, j) => if x < c.minReducedCost then ⟨some j, x⟩ else c) ⟨none, 0⟩

def Entering.accepted (e : Entering α) (tolerance : α) : Option Nat :=
  if e.minReducedCost < -tolerance then e.column else none

/-- Whether a ratio beats the best so far; `none` stands for `+∞`. -/
def beats (ratio : α) : Option (Nat × α) → Bool
  | none => Scalar.belowInfinity ratio
  | some (_, best) => decide (ratio < best)

def ratioStep (f : Factorization α) (entering : Nat) (best : Option (Nat × α)) (row : Nat) :
    Option (Nat × α) × List (Event α) :=
  let entry := f.tableau.get row entering
  if 0 < entry then
    let ratio := f.basicSolution.getD row 0 / entry
    if beats ratio best then (some (row, ratio), [.ratio row ratio, .leavingCandidate row ratio])
    else (best, [.ratio row ratio])
  else (best, [])

/-- The minimum ratio test on the entering column over the `m` rows: the leaving row, if
any, and the events recorded on the way. -/
def ratioTest (p : StandardForm α) (f : Factorization α) (entering : Nat) :
    Option Nat × List (Event α) :=
  let (best, events) := (List.range p.numConstraints).foldl
    (fun (best, events) row =>
      let (best', new) := ratioStep f entering best row
      (best', events ++ new))
    (none, [])
  (best.map (·.1), events)

end RevisedSimplex
