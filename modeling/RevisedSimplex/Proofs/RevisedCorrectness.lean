import Mathlib
import RevisedSimplex.Proofs.Reachable

/-! # Correctness of the revised method

Over the rationals the revised method answers the augmented problem
`min c'·y, A' y = b, y ≥ 0` correctly. An optimal result is the basic point of a feasible basis
whose reduced costs are all at least `-tol`, so no feasible point costs less than the reported
value by more than `tol` times its total. An unbounded result is a feasible basic point from
which the edge of the entering column, whose tableau column has no positive entry, is a
feasible ray of negative cost. Every basis a run records is feasible, and its factorization
prices its basic columns at zero with unit tableau columns.
-/

open Matrix

namespace RevisedSimplex

namespace Factorization.Exact

variable {p : StandardForm ℚ} {idx : List ℕ} {f : Factorization ℚ} (hf : f.Exact p idx)
include hf

theorem solution_eq (h : DistinctColumns p.numConstraints p.numColumns idx) :
    (solution p (Basis.ofIndices p idx) f).1.length = p.numColumns ∧
      vecOf (solution p (Basis.ofIndices p idx) f).1 p.numColumns =
        f.basicPoint p.numConstraints p.numColumns idx ∧
      (solution p (Basis.ofIndices p idx) f).2 =
        p.costVector ⬝ᵥ f.basicPoint p.numConstraints p.numColumns idx := by
  obtain ⟨hlen, hvec⟩ := StandardForm.scatter_spec (Basis.ofIndices p idx) h hf.length_basicSolution
  refine ⟨hlen, hvec, ?_⟩
  rw [Factorization.basicPoint, StandardForm.costVector_dotProduct_spread h]
  exact dot_eq_dotProduct (by simp [h.length_eq]) hf.length_basicSolution

theorem basicPoint_feasible (hB : p.FeasibleBasis idx) :
    p.Feasible (f.basicPoint p.numConstraints p.numColumns idx) := by
  refine ⟨fun j => ?_, hf.mulVec_basicPoint hB.distinct⟩
  by_cases hj : (j : ℕ) ∈ idx
  · obtain ⟨k, rfl⟩ := (hB.distinct.mem_iff j).mp hj
    rw [Factorization.basicPoint, hB.distinct.spread_col]
    exact hf.basicSolution_nonneg hB k
  · rw [Factorization.basicPoint, DistinctColumns.spread_of_not_mem _ hj]
    rfl

theorem cost_ge_of_reducedCosts (h : DistinctColumns p.numConstraints p.numColumns idx) {tol : ℚ}
    (hrc : ∀ x ∈ f.reducedCosts, -tol ≤ x) {y : Fin p.numColumns → ℚ} (hy : p.Feasible y) :
    p.costVector ⬝ᵥ f.basicPoint p.numConstraints p.numColumns idx - tol * ∑ j, y j ≤
      p.costVector ⬝ᵥ y := by
  have hprice : -tol * ∑ j, y j ≤ vecOf f.reducedCosts p.numColumns ⬝ᵥ y := by
    rw [Finset.mul_sum, dotProduct]
    refine Finset.sum_le_sum fun j _ => mul_le_mul_of_nonneg_right ?_ (hy.1 j)
    have hj : (j : ℕ) < f.reducedCosts.length := by
      rw [hf.length_reducedCosts]
      exact j.2
    rw [vecOf_apply, List.getElem?_eq_getElem hj, Option.getD_some]
    exact hrc _ (List.getElem_mem hj)
  rw [hf.cost_eq y hy.2, Factorization.basicPoint, StandardForm.costVector_dotProduct_spread h]
  linarith

theorem unbounded_of_edge (hB : p.FeasibleBasis idx) {e : Fin p.numColumns}
    (hrc : vecOf f.reducedCosts p.numColumns e < 0)
    (hT : ∀ i < p.numConstraints, f.tableau.get i e ≤ 0) (M : ℚ) :
    ∃ y, p.Feasible y ∧ p.costVector ⬝ᵥ y < M := by
  have h := hB.distinct
  have hnot := hf.not_mem_of_reducedCost_neg h hrc
  have hd : 0 ≤ f.edge p.numConstraints p.numColumns idx e := by
    intro j
    by_cases hj : (j : ℕ) ∈ idx
    · obtain ⟨k, rfl⟩ := (h.mem_iff j).mp hj
      rw [Pi.zero_apply, Factorization.edge_col h hnot, neg_nonneg]
      exact hT k k.2
    · by_cases hje : j = e
      · rw [hje, Factorization.edge_self hnot]
        exact zero_le_one
      · rw [Pi.zero_apply, Factorization.edge_of_not_mem hj hje]
  set x := f.basicPoint p.numConstraints p.numColumns idx
  obtain ⟨t, ht, hlt⟩ := exists_nonneg_add_mul_lt hrc (p.costVector ⬝ᵥ x) M
  have hx := hf.basicPoint_feasible hB
  refine ⟨x + t • f.edge p.numConstraints p.numColumns idx e,
    ⟨add_nonneg hx.1 (smul_nonneg ht hd), ?_⟩, ?_⟩
  · rw [mulVec_add, mulVec_smul, hx.2, hf.mulVec_edge h, smul_zero, add_zero]
  · rwa [dotProduct_add, dotProduct_smul, smul_eq_mul, hf.costVector_dotProduct_edge h]

theorem basic_columns (h : DistinctColumns p.numConstraints p.numColumns idx) :
    ∀ k (hk : k < idx.length), f.reducedCosts[idx[k]]? = some 0 ∧
      ∀ i < p.numConstraints, f.tableau.get i idx[k] = if i = k then 1 else 0 := by
  intro k hk
  let K : Fin p.numConstraints := ⟨k, by rw [← h.length_eq]; exact hk⟩
  have hcol : ((h.col K : Fin p.numColumns) : ℕ) = idx[k] := rfl
  constructor
  · have hlt : idx[k] < f.reducedCosts.length := by
      rw [hf.length_reducedCosts]
      exact h.lt _ (List.getElem_mem hk)
    have hz := hf.reducedCost_col h K
    rw [vecOf_apply, hcol, List.getElem?_eq_getElem hlt, Option.getD_some] at hz
    rw [List.getElem?_eq_getElem hlt, hz]
  · intro i hi
    have hunit := hf.tableau_col h ⟨i, hi⟩ K
    rw [toMat_apply, hcol] at hunit
    rw [hunit]
    exact if_congr Fin.ext_iff rfl rfl

theorem accepted_not_mem (h : DistinctColumns p.numConstraints p.numColumns idx) {tol : ℚ} {e : ℕ}
    (he : (selectEntering f.reducedCosts).accepted tol = some e) : e ∉ idx := by
  obtain ⟨hlt, hrc⟩ := hf.reducedCost_of_accepted he
  exact hf.not_mem_of_reducedCost_neg h hrc

end Factorization.Exact

namespace Solver

variable (s : Solver ℚ) (prog : LinearProgram ℚ)

theorem run_optimal_spec (htol : 0 ≤ s.tolerance) {value : ℚ} {sol rc : List ℚ} {k : ℕ}
    (h : (s.run prog).result = .ok (.optimal value sol rc k)) :
    sol.length = prog.standardize.numColumns ∧
      prog.standardize.Feasible (vecOf sol prog.standardize.numColumns) ∧
      value = prog.standardize.costVector ⬝ᵥ vecOf sol prog.standardize.numColumns ∧
      ∀ y, prog.standardize.Feasible y →
        value - s.tolerance * ∑ j, y j ≤ prog.standardize.costVector ⬝ᵥ y := by
  obtain ⟨idx, f, hreach, hacc, hsol⟩ := (s.run_ends prog).optimal h
  obtain ⟨hB, hf⟩ := hreach.feasibleBasis
  obtain ⟨hlen, hvec, hval⟩ := hf.solution_eq hB.distinct
  simp only [hsol] at hlen hvec hval
  refine ⟨hlen, hvec ▸ hf.basicPoint_feasible hB, hvec ▸ hval, fun y hy => ?_⟩
  rw [hval]
  exact hf.cost_ge_of_reducedCosts hB.distinct (accepted_selectEntering_eq_none htol hacc) hy

theorem run_unbounded_spec {value : ℚ} {sol rc : List ℚ} {k : ℕ}
    (h : (s.run prog).result = .ok (.unbounded value sol rc k)) :
    sol.length = prog.standardize.numColumns ∧
      prog.standardize.Feasible (vecOf sol prog.standardize.numColumns) ∧
      value = prog.standardize.costVector ⬝ᵥ vecOf sol prog.standardize.numColumns ∧
      ∀ M : ℚ, ∃ y, prog.standardize.Feasible y ∧ prog.standardize.costVector ⬝ᵥ y < M := by
  obtain ⟨idx, f, e, hreach, hacc, hr, hsol⟩ := (s.run_ends prog).unbounded h
  obtain ⟨hB, hf⟩ := hreach.feasibleBasis
  obtain ⟨hlen, hvec, hval⟩ := hf.solution_eq hB.distinct
  simp only [hsol] at hlen hvec hval
  obtain ⟨hlt, hrc⟩ := hf.reducedCost_of_accepted hacc
  exact ⟨hlen, hvec ▸ hf.basicPoint_feasible hB, hvec ▸ hval,
    hf.unbounded_of_edge hB hrc (ratioTest_eq_none hr)⟩

end Solver

/-- Over the rationals the revised method answers the augmented problem
`min c'·y, A' y = b, y ≥ 0` correctly. An optimal result is a feasible point whose cost is the
reported value, and no feasible point costs less by more than the tolerance times its total (so
with tolerance zero it is optimal); an unbounded result is a feasible point with its cost, and
the cost is unbounded below on the feasible points. -/
theorem revised_answers_correct (s : Solver ℚ) (prog : LinearProgram ℚ) (htol : 0 ≤ s.tolerance) :
    (∀ value sol rc k, (s.run prog).result = .ok (.optimal value sol rc k) →
      sol.length = prog.standardize.numColumns ∧
        prog.standardize.Feasible (vecOf sol prog.standardize.numColumns) ∧
        value = prog.standardize.costVector ⬝ᵥ vecOf sol prog.standardize.numColumns ∧
        ∀ y, prog.standardize.Feasible y →
          value - s.tolerance * ∑ j, y j ≤ prog.standardize.costVector ⬝ᵥ y) ∧
    (∀ value sol rc k, (s.run prog).result = .ok (.unbounded value sol rc k) →
      sol.length = prog.standardize.numColumns ∧
        prog.standardize.Feasible (vecOf sol prog.standardize.numColumns) ∧
        value = prog.standardize.costVector ⬝ᵥ vecOf sol prog.standardize.numColumns ∧
        ∀ M : ℚ, ∃ y, prog.standardize.Feasible y ∧ prog.standardize.costVector ⬝ᵥ y < M) :=
  ⟨fun _ _ _ _ h => s.run_optimal_spec prog htol h, fun _ _ _ _ h => s.run_unbounded_spec prog h⟩

theorem Solver.feasibleBasis_of_mem_trace (s : Solver ℚ) {prog : LinearProgram ℚ}
    (hb : ∀ x ∈ prog.rhs, 0 ≤ x) {idx : List ℕ}
    (hidx : Event.initialized idx ∈ (s.run prog).trace ∨
      ∃ c r, Event.basisUpdated c r idx ∈ (s.run prog).trace) :
    prog.standardize.FeasibleBasis idx := by
  rcases hidx with hin | ⟨c, r, hin⟩
  · rcases (s.run_ends prog).trace _ hin with hmem | hno | ⟨_, _, _, heq, -⟩
    · rw [List.mem_singleton, Event.initialized.injEq] at hmem
      rw [hmem]
      exact prog.feasibleBasis_initial hb
    · exact absurd rfl (hno.1 idx)
    · cases heq
  · rcases (s.run_ends prog).trace _ hin with hmem | hno | ⟨_, _, _, heq, idx₀, f₀, hreach, hpiv⟩
    · simp at hmem
    · exact absurd rfl (hno.2 c r idx)
    · rw [Event.basisUpdated.injEq] at heq
      obtain ⟨-, rfl, rfl⟩ := heq
      exact hpiv.feasibleBasis hreach.feasibleBasis.1 hreach.feasibleBasis.2

/-- With `b ≥ 0`, every basis a run of the revised method records (the slack basis and the basis
after each pivot) lists `m` distinct columns in increasing order, has a nonsingular basis matrix
and a nonnegative basic solution; its factorization prices every basic column at zero with the
unit vector of its row as tableau column, so the accepted entering column is never basic, and
the scattered values solve `A' x = b`. -/
theorem revised_bases_feasible (s : Solver ℚ) (prog : LinearProgram ℚ)
    (hb : ∀ x ∈ prog.rhs, 0 ≤ x) (idx : List ℕ)
    (hidx : Event.initialized idx ∈ (s.run prog).trace ∨
      ∃ c r, Event.basisUpdated c r idx ∈ (s.run prog).trace) :
    prog.standardize.FeasibleBasis idx ∧
      ∀ f, factorize prog.standardize (Basis.ofIndices prog.standardize idx) = some f →
        (∀ k (hk : k < idx.length), f.reducedCosts[idx[k]]? = some 0 ∧
          ∀ i < prog.standardize.numConstraints, f.tableau.get i idx[k] = if i = k then 1 else 0) ∧
        (∀ e, (selectEntering f.reducedCosts).accepted s.tolerance = some e → e ∉ idx) ∧
        prog.standardize.constraintMatrix *ᵥ
            vecOf (solution prog.standardize (Basis.ofIndices prog.standardize idx) f).1
              prog.standardize.numColumns =
          prog.standardize.rhsVector := by
  have hB := s.feasibleBasis_of_mem_trace hb hidx
  refine ⟨hB, fun f hfac => ?_⟩
  have hf := factorize_exact prog.shaped_standardize hB.distinct.length_eq hfac
  refine ⟨hf.basic_columns hB.distinct, fun e he => hf.accepted_not_mem hB.distinct he, ?_⟩
  rw [(hf.solution_eq hB.distinct).2.1]
  exact hf.mulVec_basicPoint hB.distinct

/-- A production plan: `min -3x - 5y` with `x ≤ 4`, `2y ≤ 12`, `3x + 2y ≤ 18`, optimal after two
pivots at `x = 2`, `y = 6`. -/
def productionPlan : LinearProgram ℚ where
  objective := [-3, -5]
  constraints := [[1, 0], [0, 2], [3, 2]]
  rhs := [4, 12, 18]
  rows_eq := rfl
  cols_eq := by decide

/-- `min -x` with `x - y + s = 1`: after one pivot `y` can grow without bound. -/
def openRay : LinearProgram ℚ where
  objective := [-1, 0]
  constraints := [[1, -1]]
  rhs := [1]
  rows_eq := rfl
  cols_eq := by decide

theorem revised_answers_correct_examples :
    ((Solver.mk 0 none).run productionPlan).result =
        .ok (.optimal (-36) [2, 6, 2, 0, 0] [0, 0, 0, 3 / 2, 1] 2) ∧
      (productionPlan.standardize.Feasible (vecOf [2, 6, 2, 0, 0] 5) ∧
        ∀ y, productionPlan.standardize.Feasible y →
          -36 - 0 * ∑ j, y j ≤ productionPlan.standardize.costVector ⬝ᵥ y) ∧
      ((Solver.mk 0 none).run openRay).result = .ok (.unbounded (-1) [1, 0, 0] [0, -1, 1] 2) ∧
      ∀ M : ℚ, ∃ y, openRay.standardize.Feasible y ∧ openRay.standardize.costVector ⬝ᵥ y < M := by
  have hopt : ((Solver.mk 0 none).run productionPlan).result =
      .ok (.optimal (-36) [2, 6, 2, 0, 0] [0, 0, 0, 3 / 2, 1] 2) := by decide +kernel
  have hunb : ((Solver.mk 0 none).run openRay).result =
      .ok (.unbounded (-1) [1, 0, 0] [0, -1, 1] 2) := by decide +kernel
  obtain ⟨-, hfeas, -, hleast⟩ :=
    (revised_answers_correct (Solver.mk 0 none) productionPlan le_rfl).1 _ _ _ _ hopt
  obtain ⟨-, -, -, hray⟩ := (revised_answers_correct (Solver.mk 0 none) openRay le_rfl).2 _ _ _ _ hunb
  exact ⟨hopt, ⟨hfeas, hleast⟩, hunb, hray⟩

/-- The second basis of the production plan: column `0` enters in place of the slack of the last
row, and sorting moves it to the front. -/
theorem revised_bases_feasible_example :
    (∀ x ∈ productionPlan.rhs, 0 ≤ x) ∧
      Event.basisUpdated 2 2 [0, 1, 2] ∈ ((Solver.mk 0 none).run productionPlan).trace ∧
      productionPlan.standardize.FeasibleBasis [0, 1, 2] := by
  have hb : ∀ x ∈ productionPlan.rhs, (0 : ℚ) ≤ x := by decide
  have hmem : Event.basisUpdated 2 2 [0, 1, 2] ∈ ((Solver.mk 0 none).run productionPlan).trace := by
    decide +kernel
  exact ⟨hb, hmem, (revised_bases_feasible (Solver.mk 0 none) productionPlan hb [0, 1, 2]
    (.inr ⟨2, 2, hmem⟩)).1⟩

end RevisedSimplex
