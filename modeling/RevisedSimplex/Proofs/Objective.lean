import Mathlib
import RevisedSimplex.Proofs.RevisedCorrectness

/-! # The objective along a run

The objective of a basis is the cost of its basic point, `c_B · B⁻¹ b`, with `B⁻¹ b` spread over
the basis columns (`StandardForm.objective`); it is what `solution` reports for a basis the run
stands on. Over the rationals a pivot moves the basic point along the edge of the entering
column `e` by the least ratio `θ ≥ 0` of the ratio test, and the edge costs the reduced cost of
`e`, which is negative: the objective changes by `θ` times that reduced cost
(`FeasibleBasis.objective_pivot`). It never rises along a run and falls at every pivot with
`θ > 0`. The slack basis costs nothing, so every optimal or unbounded value is at most zero.
-/

open Matrix

namespace RevisedSimplex

namespace StandardForm

variable (p : StandardForm ℚ)

/-- The objective of the basis `idx`: the cost of its basic point. -/
noncomputable def objective (idx : List ℕ) : ℚ :=
  p.costVector ⬝ᵥ spread p.numColumns idx ((p.basisMatrix idx)⁻¹ *ᵥ p.rhsVector)

end StandardForm

variable {p : StandardForm ℚ} {idx : List ℕ} {f : Factorization ℚ}

theorem Factorization.Exact.solution_objective (hf : f.Exact p idx)
    (h : DistinctColumns p.numConstraints p.numColumns idx) :
    (solution p (Basis.ofIndices p idx) f).2 = p.objective idx := by
  rw [(hf.solution_eq h).2.2, Factorization.basicPoint, hf.basicSolution, hf.inverse_eq]
  rfl

namespace StandardForm.FeasibleBasis

variable (hB : p.FeasibleBasis idx) (hf : f.Exact p idx) {e : Fin p.numColumns}
  (hrc : vecOf f.reducedCosts p.numColumns e < 0) {r : ℕ} (hr : (ratioTest p f e).1 = some r)
include hB hf hrc hr

theorem spread_pivot :
    spread p.numColumns (sortAscending (idx.set r e))
        ((p.basisMatrix (sortAscending (idx.set r e)))⁻¹ *ᵥ p.rhsVector) =
      f.pivotPoint p.numConstraints p.numColumns idx e r := by
  have h := hB.distinct
  have hnot := hf.not_mem_of_reducedCost_neg h hrc
  obtain ⟨hrm, hpos, -⟩ := ratioTest_eq_some hr
  have hperm := sortAscending_perm (idx.set r e)
  have h' := (h.set r e.2 hnot).perm hperm
  have hsupp := (Factorization.supportedOn_pivotPoint h hnot ⟨r, hrm⟩ hpos.ne').of_perm hperm.symm
  rw [inv_mulVec_rhs h' (hB.pivot hf hrc hr).det_ne_zero hsupp (hf.mulVec_pivotPoint h r),
    h'.spread_gather hsupp]

/-- A pivot changes the objective by the least ratio times the reduced cost of the entering
column. -/
theorem objective_pivot :
    p.objective (sortAscending (idx.set r e)) =
      p.objective idx + f.ratio e r * vecOf f.reducedCosts p.numColumns e := by
  rw [StandardForm.objective, hB.spread_pivot hf hrc hr, Factorization.pivotPoint, dotProduct_add,
    dotProduct_smul, smul_eq_mul, hf.costVector_dotProduct_edge hB.distinct,
    Factorization.basicPoint, hf.basicSolution, hf.inverse_eq]
  rfl

end StandardForm.FeasibleBasis

theorem StandardForm.FeasibleBasis.ratio_nonneg (hB : p.FeasibleBasis idx) (hf : f.Exact p idx)
    {e r : ℕ} (hr : (ratioTest p f e).1 = some r) : 0 ≤ f.ratio e r := by
  obtain ⟨hrm, hpos, -⟩ := ratioTest_eq_some hr
  have hx := hf.basicSolution_nonneg hB ⟨r, hrm⟩
  rw [Pi.zero_apply, vecOf_apply] at hx
  exact div_nonneg hx hpos.le

theorem LinearProgram.objective_initial (prog : LinearProgram ℚ) :
    prog.standardize.objective (Basis.initial prog.standardize).indices = 0 := by
  rw [StandardForm.objective, StandardForm.costVector_dotProduct_spread prog.distinctColumns_initial,
    prog.basicCosts_initial, zero_dotProduct]

namespace Solver

variable {s : Solver ℚ} {prog : LinearProgram ℚ}

/-- A pivot of a run moves the objective by `θ` times the reduced cost of the entering column,
with `θ ≥ 0` the least ratio and the reduced cost negative. -/
theorem Reachable.objective_pivot {idx' : List ℕ} {r : ℕ}
    (h : s.Reachable prog.standardize idx f) (hpiv : s.Pivots prog.standardize idx f r idx') :
    ∃ e, (selectEntering f.reducedCosts).accepted s.tolerance = some e ∧
      prog.standardize.objective idx' =
        prog.standardize.objective idx + f.ratio e r * f.reducedCosts.getD e 0 ∧
      0 ≤ f.ratio e r ∧ f.reducedCosts.getD e 0 < 0 := by
  obtain ⟨hB, hf⟩ := h.feasibleBasis
  obtain ⟨e, he, hr, rfl⟩ := hpiv
  obtain ⟨hlt, hrc⟩ := hf.reducedCost_of_accepted he
  have hget : vecOf f.reducedCosts _ ⟨e, hlt⟩ = f.reducedCosts.getD e 0 := by
    rw [vecOf_apply, List.getD_eq_getElem?_getD]
  refine ⟨e, he, ?_, hB.ratio_nonneg hf hr, hget ▸ hrc⟩
  rw [← hget]
  exact hB.objective_pivot hf hrc hr

theorem Reachable.objective_nonpos {idx : List ℕ} (h : s.Reachable prog.standardize idx f) :
    prog.standardize.objective idx ≤ 0 := by
  induction h with
  | slack => rw [prog.objective_initial]
  | step h hpiv _ ih =>
    obtain ⟨e, -, hobj, hθ, hrc⟩ := h.objective_pivot hpiv
    rw [hobj]
    nlinarith

theorem Reachable.solution_nonpos {idx : List ℕ} (h : s.Reachable prog.standardize idx f) :
    (solution prog.standardize (Basis.ofIndices prog.standardize idx) f).2 ≤ 0 := by
  obtain ⟨hB, hf⟩ := h.feasibleBasis
  rw [hf.solution_objective hB.distinct]
  exact h.objective_nonpos

end Solver

/-- Over the rationals, along a run of the revised method the objective that `solution` reports
for the basis after a pivot is the objective before it plus `θ` times `r`, where `θ ≥ 0` is the
least ratio of the ratio test and `r < 0` the reduced cost of the entering column: it never
rises, and falls whenever `θ > 0`. Every optimal or unbounded value is at most zero, the
objective of the slack basis. -/
theorem objective_descends (s : Solver ℚ) (prog : LinearProgram ℚ) :
    (∀ {idx : List ℕ} {f f' : Factorization ℚ} {e r : ℕ}, s.Reachable prog.standardize idx f →
      (selectEntering f.reducedCosts).accepted s.tolerance = some e →
      (ratioTest prog.standardize f e).1 = some r →
      factorize prog.standardize
          (Basis.ofIndices prog.standardize (sortAscending (idx.set r e))) = some f' →
      (solution prog.standardize
            (Basis.ofIndices prog.standardize (sortAscending (idx.set r e))) f').2 =
          (solution prog.standardize (Basis.ofIndices prog.standardize idx) f).2 +
            f.ratio e r * f.reducedCosts.getD e 0 ∧
        0 ≤ f.ratio e r ∧ f.reducedCosts.getD e 0 < 0 ∧
        (solution prog.standardize
            (Basis.ofIndices prog.standardize (sortAscending (idx.set r e))) f').2 ≤
          (solution prog.standardize (Basis.ofIndices prog.standardize idx) f).2 ∧
        (0 < f.ratio e r →
          (solution prog.standardize
              (Basis.ofIndices prog.standardize (sortAscending (idx.set r e))) f').2 <
            (solution prog.standardize (Basis.ofIndices prog.standardize idx) f).2)) ∧
    (∀ {value : ℚ} {sol rc : List ℚ} {k : ℕ},
      ((s.run prog).result = .ok (.optimal value sol rc k) ∨
        (s.run prog).result = .ok (.unbounded value sol rc k)) → value ≤ 0) := by
  constructor
  · intro idx f f' e r h he hr hf'
    have hpiv : s.Pivots prog.standardize idx f r (sortAscending (idx.set r e)) := ⟨e, he, hr, rfl⟩
    obtain ⟨hB, hf⟩ := h.feasibleBasis
    obtain ⟨hB', hf''⟩ := (Solver.Reachable.step h hpiv hf').feasibleBasis
    obtain ⟨e', he', hobj, hθ, hrc⟩ := h.objective_pivot hpiv
    obtain rfl : e' = e := Option.some.inj (he'.symm.trans he)
    -- both reported objectives are objectives of their bases
    rw [hf''.solution_objective hB'.distinct, hf.solution_objective hB.distinct, hobj]
    refine ⟨rfl, hθ, hrc, by nlinarith, fun hpos => by nlinarith⟩
  · rintro value sol rc k (hres | hres)
    · obtain ⟨idx, f, hreach, -, hsol⟩ := (s.run_ends prog).optimal hres
      simpa [hsol] using hreach.solution_nonpos
    · obtain ⟨idx, f, e, hreach, -, -, hsol⟩ := (s.run_ends prog).unbounded hres
      simpa [hsol] using hreach.solution_nonpos

/-- The production plan's first pivot: column `1`, of reduced cost `-5`, enters in place of row
`1`, whose ratio `12 / 2 = 6` is the least, and the objective falls from `0` to `-30`; the run
ends optimal at `-36`. -/
theorem objective_descends_productionPlan :
    ∃ f₀ f₁ : Factorization ℚ,
      (Solver.mk 0 none).Reachable productionPlan.standardize
        (Basis.initial productionPlan.standardize).indices f₀ ∧
      (selectEntering f₀.reducedCosts).accepted 0 = some 1 ∧
      (ratioTest productionPlan.standardize f₀ 1).1 = some 1 ∧
      sortAscending ((Basis.initial productionPlan.standardize).indices.set 1 1) = [1, 2, 4] ∧
      factorize productionPlan.standardize (Basis.ofIndices productionPlan.standardize [1, 2, 4]) =
        some f₁ ∧
      (solution productionPlan.standardize (Basis.ofIndices productionPlan.standardize [1, 2, 4])
          f₁).2 = (solution productionPlan.standardize (Basis.initial productionPlan.standardize)
          f₀).2 + 6 * (-5) ∧
      ((Solver.mk 0 none).run productionPlan).result =
        .ok (.optimal (-36) [2, 6, 2, 0, 0] [0, 0, 0, 3 / 2, 1] 2) ∧ (-36 : ℚ) ≤ 0 := by
  set f₀ := (factorize productionPlan.standardize (Basis.initial productionPlan.standardize)).get
    (by decide +kernel)
  set f₁ := (factorize productionPlan.standardize
    (Basis.ofIndices productionPlan.standardize [1, 2, 4])).get (by decide +kernel)
  have hf₀ : factorize productionPlan.standardize (Basis.initial productionPlan.standardize) =
      some f₀ := (Option.some_get _).symm
  have hf₁ : factorize productionPlan.standardize
      (Basis.ofIndices productionPlan.standardize [1, 2, 4]) = some f₁ := (Option.some_get _).symm
  have hreach : (Solver.mk 0 none).Reachable productionPlan.standardize
      (Basis.initial productionPlan.standardize).indices f₀ :=
    .slack hf₀ (by decide +kernel)
  have he : (selectEntering f₀.reducedCosts).accepted 0 = some 1 := by decide +kernel
  have hr : (ratioTest productionPlan.standardize f₀ 1).1 = some 1 := by decide +kernel
  have hsort : sortAscending ((Basis.initial productionPlan.standardize).indices.set 1 1) =
      [1, 2, 4] := by decide +kernel
  have hθ : f₀.ratio 1 1 * f₀.reducedCosts.getD 1 0 = 6 * (-5) := by decide +kernel
  have hopt : ((Solver.mk 0 none).run productionPlan).result =
      .ok (.optimal (-36) [2, 6, 2, 0, 0] [0, 0, 0, 3 / 2, 1] 2) := by decide +kernel
  have hstep := ((objective_descends (Solver.mk 0 none) productionPlan).1 hreach he hr
    (by rw [hsort]; exact hf₁)).1
  rw [hsort, hθ] at hstep
  exact ⟨f₀, f₁, hreach, he, hr, hsort, hf₁, hstep, hopt,
    (objective_descends (Solver.mk 0 none) productionPlan).2 (.inl hopt)⟩

end RevisedSimplex
