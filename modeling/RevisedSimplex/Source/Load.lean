import RevisedSimplex.Source.Parse
import RevisedSimplex.LinearProgram
/-!
Loading a linear program from a problem text.

Roles are positional: the first of exactly three assignments is the objective `c`, the second
the constraint matrix `A` and the third the right-hand side `b`; names appear only in
messages. `c` and `b` must be lists of numbers and `A` a list of rows of numbers, all rows as
long as the first. The numbers then go through `LinearProgram.make?`. Faults are reported in
that order, and within `A` row by row.

Main definitions: `LoadError`, `Document.load`, `loadText`.
-/

namespace RevisedSimplex.Source

/-- Why a text gives no linear program. -/
inductive LoadError where
  /-- the text could not be read -/
  | io (message : String)
  /-- the text is no document -/
  | parse (e : ParseError)
  /-- a document of this many assignments, not three -/
  | assignmentCount (n : Nat)
  /-- the value named is not a list of numbers -/
  | expectedVector (name : String) (span : Span)
  /-- the value named is not a list of rows of numbers -/
  | expectedMatrix (name : String) (span : Span)
  /-- row `row` of the matrix named has `found` entries where the first has `expected` -/
  | raggedMatrix (name : String) (row expected found : Nat)
  /-- the numbers do not form a linear program -/
  | shape (e : ProblemError)
  deriving DecidableEq, Repr

def LoadError.message : LoadError → String
  | .io m => "IO error: " ++ m
  | .parse e => "Parse error: " ++ e.message
  | .assignmentCount n =>
    "Expected 3 assignments (objective, constraint matrix, right-hand side), found " ++ toString n
  | .expectedVector name _ => "'" ++ name ++ "' must be a list of numbers"
  | .expectedMatrix name _ => "'" ++ name ++ "' must be a list of rows of numbers"
  | .raggedMatrix name r x f =>
    "Row " ++ toString r ++ " of '" ++ name ++ "' has " ++ toString f ++ " entries, expected " ++
      toString x
  | .shape e => "Shape mismatch: " ++ e.message

def numbers : List Value → Option (List Float)
  | [] => some []
  | .number _ x :: vs => (numbers vs).map (x :: ·)
  | .list _ _ :: _ => none

def Assignment.vector (a : Assignment) : Except LoadError (List Float) :=
  match a.value with
  | .list _ items =>
    match numbers items with
    | some xs => .ok xs
    | none => .error (.expectedVector a.name a.value.span)
  | .number _ _ => .error (.expectedVector a.name a.value.span)

def Assignment.rowsFrom (a : Assignment) (width : Option Nat) (i : Nat) :
    List Value → Except LoadError (List (List Float))
  | [] => .ok []
  | .number _ _ :: _ => .error (.expectedMatrix a.name a.value.span)
  | .list _ items :: rest =>
    match numbers items with
    | none => .error (.expectedMatrix a.name a.value.span)
    | some xs =>
      match width with
      | some w =>
        if xs.length = w then (xs :: ·) <$> a.rowsFrom width (i + 1) rest
        else .error (.raggedMatrix a.name i w xs.length)
      | none => (xs :: ·) <$> a.rowsFrom (some xs.length) (i + 1) rest

def Assignment.matrix (a : Assignment) : Except LoadError (List (List Float)) :=
  match a.value with
  | .list _ rows => a.rowsFrom none 0 rows
  | .number _ _ => .error (.expectedMatrix a.name a.value.span)

/-- The linear program that a document describes. -/
def Document.load (d : Document) : Except LoadError (LinearProgram Float) :=
  match d.assignments with
  | [c, a, b] => do
    let c ← c.vector
    let a ← a.matrix
    let b ← b.vector
    match LinearProgram.make? c a b with
    | .ok p => .ok p
    | .error e => .error (.shape e)
  | as => .error (.assignmentCount as.length)

def loadText (source : String) : Except LoadError (LinearProgram Float) :=
  match Document.parse source with
  | .ok d => d.load
  | .error e => .error (.parse e)

end RevisedSimplex.Source
