import Mathlib
import RevisedSimplex.Proofs.Inverse
import RevisedSimplex.Proofs.BasisView
import RevisedSimplex.Factorization

/-! # Pricing a basis exactly

Over the rationals `factorize` returns the exact quantities of its basis: `B⁻¹`, the tableau
`B⁻¹ A'`, the basic solution `B⁻¹ b` and the reduced costs `c' - c_Bᵀ B⁻¹ A'` (`Factorization.Exact`).
From them the cost of every solution of `A' y = b` splits into the basic cost and the reduced
costs (`Exact.cost_eq`), the column of a basic variable in the tableau is a unit vector, and its
reduced cost is zero.
-/

open Matrix

namespace RevisedSimplex

/-- The factorization `f` holds the exact quantities of the basis `idx` of `p`. -/
structure Factorization.Exact (p : StandardForm ℚ) (idx : List ℕ) (f : Factorization ℚ) : Prop where
  shape_inverse : f.inverse.Shape p.numConstraints p.numConstraints
  inverse_mul : toMat f.inverse p.numConstraints p.numConstraints * p.basisMatrix idx = 1
  mul_inverse : p.basisMatrix idx * toMat f.inverse p.numConstraints p.numConstraints = 1
  shape_tableau : f.tableau.Shape p.numConstraints p.numColumns
  tableau : toMat f.tableau p.numConstraints p.numColumns =
    toMat f.inverse p.numConstraints p.numConstraints * p.constraintMatrix
  length_basicSolution : f.basicSolution.length = p.numConstraints
  basicSolution : vecOf f.basicSolution p.numConstraints =
    toMat f.inverse p.numConstraints p.numConstraints *ᵥ p.rhsVector
  length_reducedCosts : f.reducedCosts.length = p.numColumns
  reducedCosts : vecOf f.reducedCosts p.numColumns =
    p.costVector - p.basicCosts idx ᵥ* toMat f.tableau p.numConstraints p.numColumns

theorem vecOf_zipWith_sub {x y : List ℚ} {N : ℕ} (hx : x.length = N) (hy : y.length = N) :
    vecOf (List.zipWith (· - ·) x y) N = vecOf x N - vecOf y N := by
  funext j
  have hjx : (j : ℕ) < x.length := hx ▸ j.2
  have hjy : (j : ℕ) < y.length := hy ▸ j.2
  simp [List.getElem?_zipWith, List.getElem?_eq_getElem hjx, List.getElem?_eq_getElem hjy]

variable {p : StandardForm ℚ} {idx : List ℕ} {f : Factorization ℚ}

theorem factorize_exact (hp : p.Shaped) (hlen : idx.length = p.numConstraints)
    (hf : factorize p (Basis.ofIndices p idx) = some f) : f.Exact p idx := by
  obtain ⟨inv, hinv, rfl⟩ := Option.map_eq_some_iff.mp hf
  have hB := StandardForm.shape_ofIndices hlen
  obtain ⟨hshape, hleft, hright⟩ := Matrix.inverse_spec hB hinv
  have hT := Matrix.shape_mul hshape hp.constraints
  have hcosts : (Basis.ofIndices p idx).costs.length = p.numConstraints := by simp [hlen]
  refine
    { shape_inverse := hshape
      inverse_mul := hleft
      mul_inverse := hright
      shape_tableau := hT
      tableau := Matrix.toMat_mul hshape hp.constraints
      length_basicSolution := by simp [hshape.length_rows]
      basicSolution := Matrix.vecOf_mulVec hshape hp.rhs
      length_reducedCosts := ?_
      reducedCosts := ?_ }
  · simp [hp.costs, Matrix.length_vecMul hT hcosts]
  · rw [vecOf_zipWith_sub hp.costs (Matrix.length_vecMul hT hcosts),
      Matrix.vecOf_vecMul hT hcosts]
    rfl

namespace Factorization.Exact

variable (hf : f.Exact p idx)
include hf

theorem inverse_eq : toMat f.inverse p.numConstraints p.numConstraints = (p.basisMatrix idx)⁻¹ :=
  (inv_eq_left_inv hf.inverse_mul).symm

theorem det_ne_zero : (p.basisMatrix idx).det ≠ 0 :=
  fun h => by simpa [h] using congrArg det hf.mul_inverse

theorem tableau_col (h : DistinctColumns p.numConstraints p.numColumns idx)
    (i k : Fin p.numConstraints) :
    toMat f.tableau p.numConstraints p.numColumns i (h.col k) = if i = k then 1 else 0 := by
  have hcol : p.constraintMatrix.submatrix id h.col = p.basisMatrix idx := by
    ext r k'
    rw [submatrix_apply, id, StandardForm.basisMatrix_apply h]
  rw [hf.tableau, ← one_apply, ← hf.inverse_mul, ← hcol, mul_apply, mul_apply]
  rfl

theorem reducedCost_col (h : DistinctColumns p.numConstraints p.numColumns idx)
    (k : Fin p.numConstraints) : vecOf f.reducedCosts p.numColumns (h.col k) = 0 := by
  rw [hf.reducedCosts, Pi.sub_apply, vecMul, dotProduct]
  simp only [hf.tableau_col h, mul_ite, mul_one, mul_zero, Finset.sum_ite_eq', Finset.mem_univ,
    if_true, StandardForm.basicCosts_apply h, sub_self]

/-- The cost of any solution of `A' y = b` is the cost of the basic solution plus the reduced
costs times `y`. -/
theorem cost_eq (y : Fin p.numColumns → ℚ) (hy : p.constraintMatrix *ᵥ y = p.rhsVector) :
    p.costVector ⬝ᵥ y = p.basicCosts idx ⬝ᵥ vecOf f.basicSolution p.numConstraints +
      vecOf f.reducedCosts p.numColumns ⬝ᵥ y := by
  have hprice : (p.basicCosts idx ᵥ* toMat f.tableau p.numConstraints p.numColumns) ⬝ᵥ y =
      p.basicCosts idx ⬝ᵥ vecOf f.basicSolution p.numConstraints := by
    rw [hf.basicSolution, hf.tableau, ← hy, ← vecMul_vecMul, dotProduct_mulVec, dotProduct_mulVec]
  rw [hf.reducedCosts, sub_dotProduct, hprice]
  ring

end Factorization.Exact

end RevisedSimplex
