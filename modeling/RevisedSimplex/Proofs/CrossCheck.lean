import Mathlib
import RevisedSimplex.Proofs.ReferenceCorrectness
import RevisedSimplex.Reference.Summary

/-! # The two methods agree

Over the rationals, at tolerance zero and with `b ≥ 0`, the revised method and the two-phase
method answer every program alike. With `b ≥ 0` the slack basis is feasible, so the revised
method never reports infeasible, and the point it reports shows the program feasible, so the
two-phase method does not either. Both methods answer correctly, and a correct optimum is the
least cost over the feasible points, so two optima have one value and an optimum never meets
an unbounded answer. The cross-check therefore agrees at every non-negative tolerance.
-/

open Matrix

namespace RevisedSimplex

theorem Factorization.Exact.isFeasible_of_nonneg {p : StandardForm ℚ} {idx : List ℕ}
    {f : Factorization ℚ} (hf : f.Exact p idx) (h : 0 ≤ (p.basisMatrix idx)⁻¹ *ᵥ p.rhsVector) :
    f.isFeasible = true := by
  rw [Factorization.isFeasible_iff]
  intro x hx
  obtain ⟨k, hk, rfl⟩ := List.getElem_of_mem hx
  have hk' : k < p.numConstraints := hf.length_basicSolution ▸ hk
  have hentry := congrFun hf.basicSolution ⟨k, hk'⟩
  rw [vecOf_apply, List.getElem?_eq_getElem hk, Option.getD_some, hf.inverse_eq] at hentry
  rw [hentry]
  exact h ⟨k, hk'⟩

theorem Solver.run_ne_infeasible (s : Solver ℚ) {prog : LinearProgram ℚ}
    (hb : ∀ x ∈ prog.rhs, 0 ≤ x) : (s.run prog).result ≠ .ok .infeasible := by
  intro h
  obtain ⟨f, hf, hfeas⟩ := (s.run_ends prog).infeasible h
  have hex := factorize_exact prog.shaped_standardize prog.distinctColumns_initial.length_eq hf
  rw [hex.isFeasible_of_nonneg (prog.feasibleBasis_initial hb).nonneg] at hfeas
  exact Bool.noConfusion hfeas

theorem optimal_value_unique {P : StandardForm ℚ} {v w : ℚ} {x y : Fin P.numColumns → ℚ}
    (hx : P.Feasible x) (hv : v = P.costVector ⬝ᵥ x) (hvle : ∀ z, P.Feasible z → v ≤ P.costVector ⬝ᵥ z)
    (hy : P.Feasible y) (hw : w = P.costVector ⬝ᵥ y) (hwle : ∀ z, P.Feasible z → w ≤ P.costVector ⬝ᵥ z) :
    v = w :=
  le_antisymm (hw ▸ hvle y hy) (hv ▸ hwle x hx)

theorem not_unbounded_of_le {P : StandardForm ℚ} {v : ℚ}
    (hvle : ∀ z, P.Feasible z → v ≤ P.costVector ⬝ᵥ z)
    (hunb : ∀ M : ℚ, ∃ y, P.Feasible y ∧ P.costVector ⬝ᵥ y < M) : False := by
  obtain ⟨y, hy, hlt⟩ := hunb v
  exact absurd (hvle y hy) (not_le.mpr hlt)

/-- With `b ≥ 0`, at tolerance zero, and when the two-phase method does not reach its cap, the
revised method's result and the two-phase method's answer have matching statuses, neither
infeasible, the same optimal value, and a cross-check that agrees at every non-negative
tolerance. -/
theorem methods_agree (prog : LinearProgram ℚ) (hb : ∀ x ∈ prog.rhs, 0 ≤ x) {o : Outcome ℚ}
    (hrun : ((⟨0, none⟩ : Solver ℚ).run prog).result = .ok o) (maxIterations : ℕ)
    (hcap : ((⟨maxIterations, 0⟩ : Reference.Method ℚ).solve prog.standardize).outcome ≠
      .iterationLimit) :
    (o.summary prog.numVariables).status.matches
        ((⟨maxIterations, 0⟩ : Reference.Method ℚ).solve prog.standardize).summary.status = true ∧
      (o.summary prog.numVariables).status ≠ .infeasible ∧
      ((⟨maxIterations, 0⟩ : Reference.Method ℚ).solve prog.standardize).summary.status ≠
        .infeasible ∧
      ((o.summary prog.numVariables).status = .optimal →
        (o.summary prog.numVariables).optimalValue =
          ((⟨maxIterations, 0⟩ : Reference.Method ℚ).solve prog.standardize).summary.objectiveValue) ∧
      ∀ τ : ℚ, 0 ≤ τ → ((o.summary prog.numVariables).crossCheck
        ((⟨maxIterations, 0⟩ : Reference.Method ℚ).solve prog.standardize).summary τ).agrees =
          true := by
  have href := Reference.Method.solve_correct ⟨maxIterations, 0⟩ rfl prog.shaped_standardize
  generalize (⟨maxIterations, 0⟩ : Reference.Method ℚ).solve prog.standardize = a at href hcap ⊢
  obtain ⟨out, it⟩ := a
  dsimp only at href hcap
  cases o with
  | infeasible => exact absurd hrun (Solver.run_ne_infeasible _ hb)
  | optimal v sol rc k =>
    obtain ⟨-, hx, hv, hvle⟩ := Solver.run_optimal_spec _ prog le_rfl hrun
    have hvle' (y) (hy : prog.standardize.Feasible y) : v ≤ prog.standardize.costVector ⬝ᵥ y := by
      simpa using hvle y hy
    cases out with
    | optimal values obj =>
      -- both optima are least costs of one program
      obtain ⟨-, hy, hobj, hoble⟩ := href.optimal values obj rfl
      have heq := optimal_value_unique hx hv hvle' hy hobj hoble
      refine ⟨rfl, nofun, nofun, fun _ => heq, fun τ hτ => ?_⟩
      simp [Outcome.summary, Reference.Answer.summary, Summary.crossCheck, Status.matches, heq, hτ]
    | unbounded => exact (not_unbounded_of_le hvle' (href.unbounded rfl).2).elim
    | infeasible => exact absurd ⟨_, hx⟩ (href.infeasible rfl)
    | iterationLimit => exact absurd rfl hcap
  | unbounded v sol rc k =>
    obtain ⟨-, hx, -, hunb⟩ := Solver.run_unbounded_spec _ prog hrun
    cases out with
    | optimal values obj =>
      obtain ⟨-, -, -, hoble⟩ := href.optimal values obj rfl
      exact (not_unbounded_of_le hoble hunb).elim
    | unbounded =>
      refine ⟨rfl, nofun, nofun, nofun, fun τ _ => ?_⟩
      simp [Outcome.summary, Reference.Answer.summary, Summary.crossCheck, Status.matches]
    | infeasible => exact absurd ⟨_, hx⟩ (href.infeasible rfl)
    | iterationLimit => exact absurd rfl hcap

/-- On the production plan both methods reach the optimum `-36`, and their cross-check agrees. -/
theorem methods_agree_productionPlan :
    ((Solver.mk 0 none).run productionPlan).result =
        .ok (.optimal (-36) [2, 6, 2, 0, 0] [0, 0, 0, 3 / 2, 1] 2) ∧
      ((⟨100, 0⟩ : Reference.Method ℚ).solve productionPlan.standardize).outcome ≠
        .iterationLimit ∧
      ∀ τ : ℚ, 0 ≤ τ →
        (((Outcome.optimal (-36) [2, 6, 2, 0, 0] [0, 0, 0, 3 / 2, 1] 2).summary
          productionPlan.numVariables).crossCheck
            ((⟨100, 0⟩ : Reference.Method ℚ).solve productionPlan.standardize).summary τ).agrees =
          true := by
  have hb : ∀ x ∈ productionPlan.rhs, (0 : ℚ) ≤ x := by decide
  have hrun : ((Solver.mk 0 none).run productionPlan).result =
      .ok (.optimal (-36) [2, 6, 2, 0, 0] [0, 0, 0, 3 / 2, 1] 2) := by decide +kernel
  have hcap : ((⟨100, 0⟩ : Reference.Method ℚ).solve productionPlan.standardize).outcome ≠
      .iterationLimit := by decide +kernel
  exact ⟨hrun, hcap, (methods_agree productionPlan hb hrun 100 hcap).2.2.2.2⟩

end RevisedSimplex
