import RevisedSimplex.Scalar
/-!
Dense matrices as lists of rows, with the products and the inverse the simplex method needs.

Every operation fixes the order of its floating-point steps, since rounding makes that order
part of the answer:

* `dot` multiplies position by position over the shorter vector and sums from the left,
  starting from `-0`;
* `mul` forms each row of the product as a sum over the left row's entries, skipping entries
  equal to zero, so `0 * ∞` is never formed; `mulVec` and `vecMul` skip nothing;
* `inverse` is Gauss–Jordan elimination with partial pivoting. In each column the first entry
  of largest magnitude at or below the diagonal is the pivot; a pivot of magnitude below
  `1e-12` makes the matrix singular (a NaN pivot does not). The pivot row is divided by the
  pivot, and every other row with a non-zero entry in the column is reduced by it.

Main definitions: `Matrix`, `dot`, `Matrix.mul`, `Matrix.mulVec`, `Matrix.vecMul`,
`Matrix.inverse`.
-/

namespace RevisedSimplex

/-- A matrix as its rows; the width is kept so that a matrix without rows has one. -/
structure Matrix (α : Type) where
  rows : List (List α)
  cols : Nat

variable {α : Type} [Scalar α]

/-- The sum of the products of the two vectors, position by position over the shorter. -/
def dot (x y : List α) : α := Scalar.sum (List.zipWith (· * ·) x y)

def addScaled : List α → α → List α → List α
  | a :: as, s, v :: vs => (a + s * v) :: addScaled as s vs
  | as, _, [] => as
  | [], _, _ :: _ => []

def subScaled (x : List α) (f : α) (p : List α) : List α :=
  List.zipWith (fun a b => a - f * b) x p

namespace Matrix

def zeros (r c : Nat) : Matrix α := ⟨List.replicate r (List.replicate c 0), c⟩

def identity (n : Nat) : Matrix α :=
  ⟨(List.range n).map fun i => (List.range n).map fun j => if i = j then 1 else 0, n⟩

def numRows (a : Matrix α) : Nat := a.rows.length

def get (a : Matrix α) (i j : Nat) : α := (a.rows.getD i []).getD j 0

def column (a : Matrix α) (j : Nat) : List α := a.rows.map fun row => row.getD j 0

def mulRow (b : Matrix α) (row : List α) : List α :=
  row.zipIdx.foldl
    (fun acc (x, k) => if x == 0 then acc else addScaled acc x (b.rows.getD k []))
    (List.replicate b.cols 0)

def mul (a b : Matrix α) : Matrix α := ⟨a.rows.map (mulRow b), b.cols⟩

/-- The product `a * v`: the dot product of each row with `v`. -/
def mulVec (a : Matrix α) (v : List α) : List α := a.rows.map (dot · v)

/-- The product `vᵀ * a`: starting from zeros, each row of `a` scaled by its entry of `v` is
added, for as many rows as `v` has entries. -/
def vecMul (a : Matrix α) (v : List α) : List α :=
  (a.rows.zip v).foldl (fun acc (row, s) => addScaled acc s row) (List.replicate a.cols 0)

def swapRows (rows : List (List α)) (i j : Nat) : List (List α) :=
  (rows.set i (rows.getD j [])).set j (rows.getD i [])

def pivotRow (work : List (List α)) (col : Nat) : Nat :=
  let entry (r : Nat) : α := Scalar.abs ((work.getD r []).getD col 0)
  (List.range' (col + 1) (work.length - (col + 1))).foldl
    (fun p r => if entry p < entry r then r else p) col

def eliminate (col : Nat) (state : List (List α) × List (List α)) :
    Option (List (List α) × List (List α)) :=
  let (work, inv) := state
  let p := pivotRow work col
  if Scalar.abs ((work.getD p []).getD col 0) < (1e-12 : α) then none
  else
    let work := swapRows work col p
    let inv := swapRows inv col p
    let pivot := (work.getD col []).getD col 0
    let prow := (work.getD col []).map (· / pivot)
    let irow := (inv.getD col []).map (· / pivot)
    let reduce (i : Nat) (wr ir : List α) : List α × List α :=
      if i = col then (prow, irow)
      else
        let factor := wr.getD col 0
        if factor == 0 then (wr, ir) else (subScaled wr factor prow, subScaled ir factor irow)
    let rows := ((work.zip inv).zipIdx).map fun ((wr, ir), i) => reduce i wr ir
    some (rows.map (·.1), rows.map (·.2))

/-- The inverse of a square matrix by Gauss–Jordan elimination, or `none` if the matrix is not
square or a pivot is too small. -/
def inverse (a : Matrix α) : Option (Matrix α) :=
  let n := a.rows.length
  if n ≠ a.cols then none
  else
    ((List.range n).foldlM (fun st col => eliminate col st) (a.rows, (identity n : Matrix α).rows)).map
      fun st => ⟨st.2, n⟩

end Matrix

end RevisedSimplex
