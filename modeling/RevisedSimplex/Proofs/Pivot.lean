import Mathlib
import RevisedSimplex.Proofs.Pricing
import RevisedSimplex.Proofs.PivotRules

/-! # One pivot of the revised method

A basis that the method can stand on (`StandardForm.FeasibleBasis`) lists `m` distinct columns
in increasing order, has a nonsingular basis matrix and a basic solution `B⁻¹ b ≥ 0`. Its basic
point spreads `B⁻¹ b` over the basis columns and solves `A' x = b`. The edge of a column `e`
outside the basis, one unit of `e` less the tableau column of `e` on the basis columns, lies in
the kernel of `A'` and costs the reduced cost of `e`.

The pivot on the row `r` that the ratio test returns moves along the edge by the least ratio:
the point stays nonnegative and vanishes at the leaving column, so it is the basic point of the
new basis; and the new basis matrix is nonsingular because the tableau entry of `e` in row `r` is
positive (`FeasibleBasis.pivot`). Sorting the new indices changes nothing of this: every notion
here depends on the set of basis columns only.
-/

open Matrix

namespace RevisedSimplex

namespace DistinctColumns

variable {m N : ℕ} {idx : List ℕ} {r e : ℕ}

theorem set (h : DistinctColumns m N idx) (r : ℕ) (he : e < N) (hnot : e ∉ idx) :
    DistinctColumns m N (idx.set r e) where
  length_eq := by rw [List.length_set, h.length_eq]
  nodup := h.nodup.set hnot
  lt j hj := (List.mem_or_eq_of_mem_set hj).elim (h.lt j) fun hje => hje ▸ he

theorem mem_set_of_mem {j : ℕ} (hj : j ∈ idx) (hr : r < idx.length) (hne : j ≠ idx[r]) :
    j ∈ idx.set r e := by
  obtain ⟨i, hi, rfl⟩ := List.getElem_of_mem hj
  have hri : r ≠ i := fun hri => hne (by simp [hri])
  rw [← List.getElem_set_ne hri (by simpa using hi)]
  exact List.getElem_mem _

theorem getElem_not_mem_set (h : DistinctColumns m N idx) (hr : r < idx.length) (hnot : e ∉ idx) :
    idx[r] ∉ idx.set r e := by
  intro hmem
  obtain ⟨i, hi, hget⟩ := List.getElem_of_mem hmem
  rw [List.getElem_set] at hget
  split_ifs at hget with hri
  · exact hnot (hget ▸ List.getElem_mem _)
  · exact hri ((h.nodup.getElem_inj_iff).mp hget).symm

end DistinctColumns

theorem insertAscending_eq_orderedInsert (c : ℕ) (l : List ℕ) :
    insertAscending c l = List.orderedInsert (· ≤ ·) c l := by
  induction l with
  | nil => rfl
  | cons d l ih => simp [insertAscending, List.orderedInsert_cons, ih]

theorem sortAscending_eq_insertionSort (l : List ℕ) :
    sortAscending l = List.insertionSort (· ≤ ·) l := by
  induction l with
  | nil => rfl
  | cons c l ih => rw [sortAscending, ih, insertAscending_eq_orderedInsert, List.insertionSort_cons]

theorem sortAscending_perm (l : List ℕ) : (sortAscending l).Perm l := by
  rw [sortAscending_eq_insertionSort]
  exact List.perm_insertionSort _ l

theorem pairwise_le_sortAscending (l : List ℕ) : (sortAscending l).Pairwise (· ≤ ·) := by
  rw [sortAscending_eq_insertionSort]
  exact List.pairwise_insertionSort _ l

theorem pairwise_lt_sortAscending {l : List ℕ} (hl : l.Nodup) :
    (sortAscending l).Pairwise (· < ·) := by
  have hnd : (sortAscending l).Nodup := (sortAscending_perm l).nodup_iff.mpr hl
  rw [sortAscending_eq_insertionSort] at hnd ⊢
  exact ((List.pairwise_insertionSort _ l).and hnd).imp fun hab => lt_of_le_of_ne hab.1 hab.2

namespace StandardForm

variable {p : StandardForm ℚ}

theorem det_basisMatrix_ne_zero_perm {idx idx' : List ℕ}
    (h : DistinctColumns p.numConstraints p.numColumns idx) (hp : idx'.Perm idx) :
    (p.basisMatrix idx').det ≠ 0 ↔ (p.basisMatrix idx).det ≠ 0 := by
  rw [det_basisMatrix_ne_zero_iff h, det_basisMatrix_ne_zero_iff (h.perm hp)]
  exact ⟨fun hk x hx => hk x (hx.of_perm hp.symm), fun hk x hx => hk x (hx.of_perm hp)⟩

variable (p)

/-- A basis the revised method can stand on: `m` distinct columns in increasing order, a
nonsingular basis matrix and a nonnegative basic solution. -/
structure FeasibleBasis (idx : List ℕ) : Prop where
  sorted : idx.Pairwise (· < ·)
  distinct : DistinctColumns p.numConstraints p.numColumns idx
  det_ne_zero : (p.basisMatrix idx).det ≠ 0
  nonneg : 0 ≤ (p.basisMatrix idx)⁻¹ *ᵥ p.rhsVector

end StandardForm

namespace Factorization

variable (f : Factorization ℚ) (m N : ℕ) (idx : List ℕ)

/-- The basic solution spread over the basis columns. -/
def basicPoint : Fin N → ℚ := spread N idx (vecOf f.basicSolution m)

/-- The edge of column `e`: one unit of `e`, less the tableau column of `e` on the basis
columns. -/
def edge (e : Fin N) : Fin N → ℚ := Pi.single e 1 - spread N idx fun i : Fin m => f.tableau.get i e

/-- The point a pivot on column `e` and row `r` moves to: along the edge of `e` by the ratio of
row `r`. -/
def pivotPoint (e : Fin N) (r : ℕ) : Fin N → ℚ := f.basicPoint m N idx + f.ratio e r • f.edge m N idx e

variable {f m N idx} {e : Fin N}

theorem edge_self (hnot : (e : ℕ) ∉ idx) : f.edge m N idx e e = 1 := by
  simp [edge, DistinctColumns.spread_of_not_mem _ hnot]

theorem edge_col (h : DistinctColumns m N idx) (hnot : (e : ℕ) ∉ idx) (k : Fin m) :
    f.edge m N idx e (h.col k) = -f.tableau.get k e := by
  have hne : h.col k ≠ e := fun hk => hnot (hk ▸ List.getElem_mem _)
  simp [edge, hne, h.spread_col]

theorem edge_of_not_mem {j : Fin N} (hj : (j : ℕ) ∉ idx) (hje : j ≠ e) : f.edge m N idx e j = 0 := by
  simp [edge, hje, DistinctColumns.spread_of_not_mem _ hj]

theorem pivotPoint_col (h : DistinctColumns m N idx) (hnot : (e : ℕ) ∉ idx) (r : ℕ) (k : Fin m) :
    f.pivotPoint m N idx e r (h.col k) =
      vecOf f.basicSolution m k - f.ratio e r * f.tableau.get k e := by
  simp only [pivotPoint, basicPoint, Pi.add_apply, Pi.smul_apply, smul_eq_mul, h.spread_col,
    edge_col h hnot]
  ring

theorem pivotPoint_self (hnot : (e : ℕ) ∉ idx) (r : ℕ) : f.pivotPoint m N idx e r e = f.ratio e r := by
  simp [pivotPoint, basicPoint, DistinctColumns.spread_of_not_mem _ hnot, edge_self hnot]

theorem pivotPoint_of_not_mem {j : Fin N} (hj : (j : ℕ) ∉ idx) (hje : j ≠ e) (r : ℕ) :
    f.pivotPoint m N idx e r j = 0 := by
  simp [pivotPoint, basicPoint, DistinctColumns.spread_of_not_mem _ hj, edge_of_not_mem hj hje]

theorem supportedOn_pivotPoint (h : DistinctColumns m N idx) (hnot : (e : ℕ) ∉ idx) (R : Fin m)
    (hR : f.tableau.get R e ≠ 0) : SupportedOn (f.pivotPoint m N idx e R) (idx.set R e) := by
  intro j hj
  by_cases hji : (j : ℕ) ∈ idx
  · obtain ⟨k, rfl⟩ := (h.mem_iff j).mp hji
    have hk : k = R := by
      by_contra hkR
      exact hj (DistinctColumns.mem_set_of_mem hji (h.lt_length R)
        fun heq => hkR (h.col_injective (Fin.ext heq)))
    subst hk
    rw [pivotPoint_col h hnot, ratio, vecOf_apply,
      div_mul_cancel₀ _ hR, sub_self]
  · have hje : j ≠ e := fun hje => hj (hje ▸ List.mem_set (h.lt_length R) _)
    exact pivotPoint_of_not_mem hji hje R

end Factorization

namespace Factorization.Exact

variable {p : StandardForm ℚ} {idx : List ℕ} {f : Factorization ℚ}
variable (hf : f.Exact p idx) (h : DistinctColumns p.numConstraints p.numColumns idx)
include hf h

theorem mulVec_basicPoint :
    p.constraintMatrix *ᵥ f.basicPoint p.numConstraints p.numColumns idx = p.rhsVector := by
  rw [Factorization.basicPoint, StandardForm.mulVec_spread h, hf.basicSolution, mulVec_mulVec,
    hf.mul_inverse, one_mulVec]

theorem mulVec_edge (e : Fin p.numColumns) :
    p.constraintMatrix *ᵥ f.edge p.numConstraints p.numColumns idx e = 0 := by
  have hcol : (fun i : Fin p.numConstraints => f.tableau.get i e) =
      toMat f.inverse p.numConstraints p.numConstraints *ᵥ p.constraintMatrix.col e := by
    funext i
    rw [← toMat_apply f.tableau p.numConstraints p.numColumns i e, hf.tableau, mul_apply]
    rfl
  rw [Factorization.edge, mulVec_sub, mulVec_single_one, StandardForm.mulVec_spread h, hcol,
    mulVec_mulVec, hf.mul_inverse, one_mulVec]
  exact sub_self _

theorem not_mem_of_reducedCost_neg {e : Fin p.numColumns}
    (hrc : vecOf f.reducedCosts p.numColumns e < 0) : (e : ℕ) ∉ idx := fun hmem => by
  obtain ⟨k, hk⟩ := (h.mem_iff e).mp hmem
  rw [← hk, hf.reducedCost_col h] at hrc
  exact lt_irrefl _ hrc

theorem costVector_dotProduct_edge (e : Fin p.numColumns) :
    p.costVector ⬝ᵥ f.edge p.numConstraints p.numColumns idx e = vecOf f.reducedCosts _ e := by
  rw [Factorization.edge, dotProduct_sub, dotProduct_single_one,
    StandardForm.costVector_dotProduct_spread h, hf.reducedCosts, Pi.sub_apply]
  rfl

end Factorization.Exact

namespace Factorization.Exact

variable {p : StandardForm ℚ} {idx : List ℕ} {f : Factorization ℚ} (hf : f.Exact p idx)
include hf

theorem basicSolution_nonneg (hB : p.FeasibleBasis idx) :
    0 ≤ vecOf f.basicSolution p.numConstraints := by
  rw [hf.basicSolution, hf.inverse_eq]
  exact hB.nonneg

variable (h : DistinctColumns p.numConstraints p.numColumns idx) {e : Fin p.numColumns}
include h

theorem mulVec_pivotPoint (r : ℕ) :
    p.constraintMatrix *ᵥ f.pivotPoint p.numConstraints p.numColumns idx e r = p.rhsVector := by
  rw [Factorization.pivotPoint, mulVec_add, mulVec_smul, hf.mulVec_basicPoint h, hf.mulVec_edge h,
    smul_zero, add_zero]

variable (hnot : (e : ℕ) ∉ idx)
include hnot


theorem det_set (hB : (p.basisMatrix idx).det ≠ 0) (R : Fin p.numConstraints)
    (hR : f.tableau.get R e ≠ 0) : (p.basisMatrix (idx.set R e)).det ≠ 0 := by
  rw [StandardForm.det_basisMatrix_ne_zero_iff (h.set R e.2 hnot)]
  intro z hz hAz
  -- `z` less `z e` times the edge of `e` is supported on the old basis and in the kernel of `A'`
  set y := z - z e • f.edge p.numConstraints p.numColumns idx e with hy_def
  have hy : SupportedOn y idx := by
    intro j hj
    by_cases hje : j = e
    · subst hje
      simp [y, Factorization.edge_self hnot]
    · have hjs : (j : ℕ) ∉ idx.set R e := fun hm =>
        (List.mem_or_eq_of_mem_set hm).elim hj fun hje' => hje (Fin.ext hje')
      simp [y, hz j hjs, Factorization.edge_of_not_mem hj hje]
  have hAy : p.constraintMatrix *ᵥ y = 0 := by
    rw [hy_def, mulVec_sub, mulVec_smul, hAz, hf.mulVec_edge h, smul_zero, sub_zero]
  have hy0 : y = 0 := (StandardForm.det_basisMatrix_ne_zero_iff h).mp hB y hy hAy
  -- at the leaving column `y` is `z e` times the tableau entry, so `z e = 0`
  have hzR : z (h.col R) = 0 := hz _ (h.getElem_not_mem_set (h.lt_length R) hnot)
  have hze : z e = 0 := by
    have hyR := congrFun hy0 (h.col R)
    simp only [y, Pi.sub_apply, Pi.smul_apply, smul_eq_mul, hzR, Factorization.edge_col h hnot,
      Pi.zero_apply] at hyR
    have hprod : z e * f.tableau.get R e = 0 := by linarith
    exact (mul_eq_zero.mp hprod).resolve_right hR
  calc z = y + z e • f.edge p.numConstraints p.numColumns idx e := by rw [hy_def, sub_add_cancel]
    _ = 0 := by rw [hy0, hze, zero_smul, add_zero]

theorem pivotPoint_nonneg (hB : p.FeasibleBasis idx) (R : Fin p.numConstraints)
    (hpos : 0 < f.tableau.get R e)
    (hmin : ∀ i < p.numConstraints, 0 < f.tableau.get i e → f.ratio e R ≤ f.ratio e i) :
    0 ≤ f.pivotPoint p.numConstraints p.numColumns idx e R := by
  have hx := hf.basicSolution_nonneg hB
  have hθ : 0 ≤ f.ratio e R := div_nonneg (by simpa using hx R) hpos.le
  intro j
  by_cases hji : (j : ℕ) ∈ idx
  · obtain ⟨k, rfl⟩ := (h.mem_iff j).mp hji
    rw [Pi.zero_apply, Factorization.pivotPoint_col h hnot]
    by_cases hk : 0 < f.tableau.get k e
    · have hle : f.ratio e R * f.tableau.get k e ≤ vecOf f.basicSolution _ k :=
        (le_div_iff₀ hk).mp (hmin k k.2 hk)
      linarith
    · have hprod := mul_nonneg hθ (neg_nonneg.mpr (not_lt.mp hk))
      rw [mul_neg] at hprod
      have hxk : 0 ≤ vecOf f.basicSolution _ k := hx k
      linarith
  · by_cases hje : j = e
    · subst hje
      rw [Pi.zero_apply, Factorization.pivotPoint_self hnot]
      exact hθ
    · rw [Pi.zero_apply, Factorization.pivotPoint_of_not_mem hji hje]

end Factorization.Exact

/-- One pivot keeps a feasible basis feasible: the column `e`, of negative reduced cost, enters
in place of the row `r` that the ratio test returns, and the indices are sorted. -/
theorem StandardForm.FeasibleBasis.pivot {p : StandardForm ℚ} {idx : List ℕ} {f : Factorization ℚ}
    (hB : p.FeasibleBasis idx) (hf : f.Exact p idx) {e : Fin p.numColumns}
    (hrc : vecOf f.reducedCosts p.numColumns e < 0) {r : ℕ} (hr : (ratioTest p f e).1 = some r) :
    p.FeasibleBasis (sortAscending (idx.set r e)) := by
  have h := hB.distinct
  have hnot := hf.not_mem_of_reducedCost_neg h hrc
  obtain ⟨hrm, hpos, hmin⟩ := ratioTest_eq_some hr
  let R : Fin p.numConstraints := ⟨r, hrm⟩
  have hperm := sortAscending_perm (idx.set r e)
  have hset := h.set r e.2 hnot
  have hdet : (p.basisMatrix (sortAscending (idx.set r e))).det ≠ 0 :=
    (det_basisMatrix_ne_zero_perm hset hperm).mpr (hf.det_set h hnot hB.det_ne_zero R hpos.ne')
  refine ⟨pairwise_lt_sortAscending hset.nodup, hset.perm hperm, hdet, ?_⟩
  rw [inv_mulVec_rhs (hset.perm hperm) hdet
    ((Factorization.supportedOn_pivotPoint h hnot R hpos.ne').of_perm hperm.symm)
    (hf.mulVec_pivotPoint h r)]
  intro k
  rw [(hset.perm hperm).gather_apply]
  exact hf.pivotPoint_nonneg h hnot hB R hpos hmin _

end RevisedSimplex
