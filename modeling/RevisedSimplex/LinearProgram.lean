import RevisedSimplex.Scalar
/-!
Linear programs in equality form: minimize `c·x` subject to `A x = b` and `x ≥ 0`.

A `LinearProgram` is built only by `LinearProgram.make?`, which checks, in this order, that
`A` has one row per entry of `b`, that every row has one entry per entry of `c` (the first bad
row is reported), and that all numbers are finite (objective first, then the matrix, then the
right-hand side). The shape it checked is kept in the structure as proof fields.

Main definitions: `ProblemError`, `LinearProgram`, `LinearProgram.make?`.
-/

namespace RevisedSimplex

/-- Why numbers do not form a linear program. -/
inductive ProblemError where
  /-- the matrix has `rows` rows but the right-hand side has `rhs` entries -/
  | rowMismatch (rows rhs : Nat)
  /-- row `row` has `found` entries where the objective has `expected` -/
  | columnMismatch (row expected found : Nat)
  /-- a number that is infinite or NaN, in the part named -/
  | nonFinite (part : String)
  deriving DecidableEq, Repr

def ProblemError.message : ProblemError → String
  | .rowMismatch r n =>
    "Constraint matrix has " ++ toString r ++ " rows but right-hand side has " ++ toString n ++
      " entries"
  | .columnMismatch i x f =>
    "Constraint row " ++ toString i ++ " has " ++ toString f ++ " columns, expected " ++ toString x
  | .nonFinite part => "Non-finite value in " ++ part

/-- A linear program `min c·x, A x = b, x ≥ 0` whose matrix has the shape its vectors ask. -/
structure LinearProgram (α : Type) where
  objective : List α
  constraints : List (List α)
  rhs : List α
  rows_eq : constraints.length = rhs.length
  cols_eq : ∀ row ∈ constraints, row.length = objective.length

namespace LinearProgram

variable {α : Type}

def numVariables (p : LinearProgram α) : Nat := p.objective.length

def numConstraints (p : LinearProgram α) : Nat := p.rhs.length

def badRow? (n : Nat) (rows : List (List α)) : Option (Nat × Nat) :=
  ((rows.zipIdx).find? (fun r => r.1.length != n)).map fun r => (r.2, r.1.length)

theorem badRow?_eq_none {n : Nat} {rows : List (List α)} (h : badRow? n rows = none) :
    ∀ row ∈ rows, row.length = n := by
  intro row hrow
  simp only [badRow?, Option.map_eq_none_iff, List.find?_eq_none] at h
  obtain ⟨i, hi, rfl⟩ := List.mem_iff_getElem.mp hrow
  have hm : (rows[i], i) ∈ rows.zipIdx := by
    rw [List.mem_zipIdx_iff_getElem?]
    simp [hi]
  simpa using h _ hm

variable [Scalar α]

def make? (c : List α) (a : List (List α)) (b : List α) : Except ProblemError (LinearProgram α) :=
  if hr : a.length = b.length then
    match hc : badRow? c.length a with
    | some (i, f) => .error (.columnMismatch i c.length f)
    | none =>
      if !c.all Scalar.isFinite then .error (.nonFinite "objective")
      else if !a.all (·.all Scalar.isFinite) then .error (.nonFinite "constraint matrix")
      else if !b.all Scalar.isFinite then .error (.nonFinite "right-hand side")
      else .ok ⟨c, a, b, hr, badRow?_eq_none hc⟩
  else .error (.rowMismatch a.length b.length)

end LinearProgram

end RevisedSimplex
