import RevisedSimplex.Factorization
import RevisedSimplex.Solve
/-!
Single steps of the revised method on one augmented problem.

An `Engine` holds the current basis and the last factorization that succeeded. Factorizing
replaces that factorization, or leaves it when the basis is singular. The ratio test and the
solution use it even after the basis has changed since, the solution scattering its values
over the current basis. A pivot replaces a basic column as `Basis.replace` does, also by a
column that is basic already. A step that names a row or column outside the problem, or
scatters a column beyond the length asked for, is refused, and a refused step changes
nothing.

Main definitions: `Engine`, `Engine.Step`, `Engine.Reply`, `Engine.Fault`, `Engine.step`.
-/

namespace RevisedSimplex

/-- A session of single steps on one augmented problem. -/
structure Engine (α : Type) where
  problem : StandardForm α
  basis : Basis α
  last : Option (Factorization α)

namespace Engine

/-- A step of a session. -/
inductive Step (α : Type) where
  | factorize
  | ratioTest (entering : Nat)
  | pivot (leavingRow entering : Nat)
  | solution
  | contains (column : Nat)
  | scatter (values : List α) (len : Nat)
  | problem

/-- What a step answers. -/
inductive Reply (α : Type) where
  | factorized (f : Factorization α)
  | leaving (row : Option Nat) (events : List (Event α))
  | pivoted
  | solution (values : List α) (objective : α)
  | contains (member : Bool)
  | scattered (values : List α)
  | problem (numConstraints numVariables numColumns : Nat)

/-- Why a step was refused. -/
inductive Fault where
  /-- no factorization has succeeded yet -/
  | noFactorization
  /-- the step names a row or column outside the problem; what was out of range -/
  | outOfRange (what : String)
  /-- a scatter whose length leaves out a column of the basis -/
  | shortScatter
  /-- the basis matrix is singular -/
  | singular (basis : List Nat)
  deriving DecidableEq, Repr

def Fault.message : Fault → String
  | .noFactorization => "no factorization yet"
  | .outOfRange what => what ++ " out of range"
  | .shortScatter => "scatter length too short"
  | .singular b => (SolveError.singularBasis b).message

variable {α : Type} [Scalar α]

def start (p : StandardForm α) : Engine α := ⟨p, Basis.initial p, none⟩

/-- Performs a step: the session after it and its reply, or the fault for which it was
refused (the session is then unchanged). -/
def step (e : Engine α) : Step α → Engine α × Except Fault (Reply α)
  | .factorize =>
    match factorize e.problem e.basis with
    | some f => ({ e with last := some f }, .ok (.factorized f))
    | none => (e, .error (.singular e.basis.indices))
  | .ratioTest entering =>
    if e.problem.numColumns ≤ entering then (e, .error (.outOfRange "entering"))
    else
      match e.last with
      | none => (e, .error .noFactorization)
      | some f =>
        let (row, events) := ratioTest e.problem f entering
        (e, .ok (.leaving row events))
  | .pivot leavingRow entering =>
    if e.problem.numConstraints ≤ leavingRow ∨ e.problem.numColumns ≤ entering then
      (e, .error (.outOfRange "pivot"))
    else ({ e with basis := e.basis.replace leavingRow entering e.problem }, .ok .pivoted)
  | .solution =>
    match e.last with
    | none => (e, .error .noFactorization)
    | some f =>
      let (values, objective) := solution e.problem e.basis f
      (e, .ok (.solution values objective))
  | .contains column => (e, .ok (.contains (e.basis.contains column)))
  | .scatter values len =>
    if (e.basis.indices.zip values).any (fun (col, _) => len ≤ col) then
      (e, .error .shortScatter)
    else (e, .ok (.scattered (e.basis.scatter values len)))
  | .problem =>
    (e, .ok (.problem e.problem.numConstraints e.problem.numVariables e.problem.numColumns))

end Engine

end RevisedSimplex
