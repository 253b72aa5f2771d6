import Mathlib
import RevisedSimplex.Proofs.BasisUpdates
import RevisedSimplex.Proofs.Termination

/-! # What a result reports

A run that ends with a status reports the basis it records last: the slack basis, or the basis
after its last pivot. An unbounded end reports that basis too, since its last iteration stops
before a pivot. The values of all `n + m` columns are that basis's basic solution scattered over
its columns and zero elsewhere, the objective value is `c_B · x_B`, and the reduced costs are
that basis's (`Outcome.FromBasis`, `Solver.run_fromBasis`).

The lengths come from the widths that matrices carry: `B⁻¹ A'` keeps the `n + m` columns of `A'`
even when it has no rows, so the reduced costs have `n + m` entries for every `m`. Without
constraints the prices are zeros and, in binary64, the reduced costs are the costs themselves;
the first round then accepts a column, which has no row to leave it, or none, so a run without a
cap is unbounded exactly when some cost is below `-tolerance`, and optimal otherwise.
-/

namespace RevisedSimplex

variable {α : Type} [Scalar α]

/-! ## Lengths -/

theorem Basis.length_scatter (b : Basis α) (v : List α) (N : ℕ) : (b.scatter v N).length = N := by
  have hform : b.scatter v N =
      (b.indices.zip v).foldl (fun acc (x : ℕ × α) => acc.set x.1 x.2) (List.replicate N 0) := rfl
  rw [hform, Basis.length_foldl_set_zip, List.length_replicate]

theorem Basis.getElem?_scatter_of_not_mem (b : Basis α) (v : List α) {N j : ℕ} (hj : j < N)
    (hnot : j ∉ b.indices) : (b.scatter v N)[j]? = some 0 := by
  have hform : b.scatter v N =
      (b.indices.zip v).foldl (fun acc (x : ℕ × α) => acc.set x.1 x.2) (List.replicate N 0) := rfl
  rw [hform, Basis.getElem?_foldl_set_zip_of_not_mem v _ fun h => hnot (List.mem_of_mem_take h),
    List.getElem?_replicate, if_pos hj]

/-! ## The basis a result reports -/

/-- The values an outcome reports are those of the basis with columns `idx`: its basic solution
scattered over all columns, its objective value `c_B · x_B` and its reduced costs. An infeasible
outcome reports no basis. -/
def Outcome.FromBasis (p : StandardForm α) (idx : List ℕ) : Outcome α → Prop
  | .infeasible => False
  | .optimal v vals rc _ | .unbounded v vals rc _ =>
    ∃ f, factorize p (Basis.ofIndices p idx) = some f ∧
      solution p (Basis.ofIndices p idx) f = (vals, v) ∧ rc = f.reducedCosts

/-- A summary read off the basis with columns `idx`: `n + m` values that split into `n`
structural and `m` slack values and are zero outside the basis, `n + m` reduced costs, and
values, objective value and reduced costs those of the basis. -/
structure Summary.OfBasis (p : StandardForm α) (idx : List ℕ) (r : Summary α) : Prop where
  length_solution : r.solutionVector.length = p.numColumns
  length_reducedCosts : r.reducedCosts.length = p.numColumns
  length_structural : r.structuralSolution.length = p.numVariables
  length_slack : r.slackSolution.length = p.numConstraints
  split : r.structuralSolution ++ r.slackSolution = r.solutionVector
  zero_outside : ∀ j < p.numColumns, j ∉ idx → r.solutionVector[j]? = some 0
  factorized : ∃ f, factorize p (Basis.ofIndices p idx) = some f ∧
    r.solutionVector = (Basis.ofIndices p idx).scatter f.basicSolution p.numColumns ∧
    r.optimalValue = dot (Basis.ofIndices p idx).costs f.basicSolution ∧
    r.reducedCosts = f.reducedCosts

theorem Summary.ofBasis_of_solution {prog : LinearProgram α} {idx : List ℕ}
    {f : Factorization α} (hf : factorize prog.standardize (Basis.ofIndices prog.standardize idx) = some f)
    {v : α} {vals : List α} (hsol : solution prog.standardize (Basis.ofIndices prog.standardize idx) f = (vals, v))
    (st : Status) (k : ℕ) :
    (⟨st, v, vals, f.reducedCosts, k, prog.numVariables⟩ : Summary α).OfBasis prog.standardize idx := by
  have hshape := prog.shaped_standardize
  obtain ⟨hvals, hv⟩ := Prod.mk.inj hsol
  have hlen : vals.length = prog.standardize.numColumns := by
    rw [← hvals]
    exact Basis.length_scatter _ _ _
  have hcols : prog.standardize.numColumns = prog.numVariables + prog.numConstraints := rfl
  refine ⟨hlen, ?_, ?_, ?_, List.take_append_drop _ _, fun j hj hnot => ?_, ⟨f, hf, hvals.symm, hv.symm, rfl⟩⟩
  · rw [length_reducedCosts hf, hshape.costs, hshape.constraints.cols_eq, min_self]
  · simp [Summary.structuralSolution, hlen, hcols]
  · simp [Summary.slackSolution, hlen, hcols]
  · rw [← hvals]
    exact Basis.getElem?_scatter_of_not_mem _ _ hj hnot

theorem Outcome.FromBasis.ofBasis {prog : LinearProgram α} {idx : List ℕ} {o : Outcome α}
    (h : o.FromBasis prog.standardize idx) :
    (o.summary prog.numVariables).OfBasis prog.standardize idx := by
  cases o with
  | infeasible => exact h.elim
  | optimal v vals rc k =>
    obtain ⟨f, hf, hsol, rfl⟩ := h
    exact Summary.ofBasis_of_solution hf hsol .optimal k
  | unbounded v vals rc k =>
    obtain ⟨f, hf, hsol, rfl⟩ := h
    exact Summary.ofBasis_of_solution hf hsol .unbounded k

namespace Solver

variable (s : Solver α) (p : StandardForm α)

theorem loop_fromBasis (L : ℕ) (F : ℕ) :
    ∀ (idx : List ℕ) (f : Factorization α) (c : ℕ) (ev : List (Event α)),
      factorize p (Basis.ofIndices p idx) = some f →
      (ev.reverse.filterMap Event.basis?).getLast? = some idx → ∀ o,
      (s.loop p L F (Basis.ofIndices p idx) f (solution p (Basis.ofIndices p idx) f) c ev).result =
        .ok o →
      ∃ idx', (s.loop p L F (Basis.ofIndices p idx) f (solution p (Basis.ofIndices p idx) f) c
        ev).bases.getLast? = some idx' ∧ o.FromBasis p idx' := by
  -- induction on the rounds left; each round ends, stops, or pivots to a basis it records
  induction F with
  | zero => exact fun _ _ _ _ _ _ _ h => by cases h
  | succ F ih =>
    intro idx f c ev hf hlast o h
    rcases hsol : solution p (Basis.ofIndices p idx) f with ⟨vals, v⟩
    rw [hsol] at h
    rw [loop_succ] at h ⊢
    cases hacc : (selectEntering f.reducedCosts).accepted s.tolerance with
    | none =>
      simp only [hacc, Except.ok.injEq] at h
      subst h
      refine ⟨idx, ?_, f, hf, hsol, rfl⟩
      simp only [Run.bases, List.filterMap_append, List.filterMap_cons, Event.basis?,
        List.filterMap_nil, List.append_nil]
      exact hlast
    | some e =>
      simp only [hacc] at h ⊢
      by_cases hcap : L ≤ c
      · simp [hcap] at h
      simp only [hcap, if_false] at h ⊢
      cases hr : (ratioTest p f e).1 with
      | none =>
        -- unbounded: the ratio test records no basis, so this basis is still the last
        simp only [hr, Except.ok.injEq] at h
        subst h
        refine ⟨idx, ?_, f, hf, hsol, rfl⟩
        simp only [Run.bases, List.filterMap_append, List.filterMap_cons, Event.basis?,
          filterMap_basis_ratioTest, List.filterMap_nil, List.append_nil]
        exact hlast
      | some r =>
        simp only [hr, Basis.replace_ofIndices] at h ⊢
        cases hf' : factorize p (Basis.ofIndices p (sortAscending (idx.set r e))) with
        | none => simp [hf'] at h
        | some f' =>
          simp only [hf'] at h ⊢
          refine ih _ f' (c + 1) _ hf' ?_ o h
          rw [List.reverse_cons, List.filterMap_append, List.getLast?_append]
          rfl

/-- A run that ends with a status other than infeasibility reports the values of the basis it
records last. -/
theorem run_fromBasis (prog : LinearProgram α) {o : Outcome α} (h : (s.run prog).result = .ok o)
    (hne : o ≠ .infeasible) :
    ∃ idx, (s.run prog).bases.getLast? = some idx ∧ o.FromBasis prog.standardize idx := by
  unfold Solver.run at h ⊢
  cases hf : factorize prog.standardize (Basis.initial prog.standardize) with
  | none => simp [hf] at h
  | some f =>
    simp only [hf] at h ⊢
    split at h
    · simp only [Except.ok.injEq] at h
      exact absurd h.symm hne
    · rw [if_neg ‹_›]
      exact s.loop_fromBasis prog.standardize _ _ _ f 0 _ hf rfl o h

end Solver

/-! ## Binary64 without constraints -/

theorem accepted_selectEntering_ne_none_iff {rc : List ℚ} {tol : ℚ} (htol : 0 ≤ tol) :
    (selectEntering rc).accepted tol ≠ none ↔ ∃ x ∈ rc, x < -tol := by
  constructor
  · intro h
    obtain ⟨j, hj⟩ := Option.ne_none_iff_exists'.mp h
    obtain ⟨x, hx, hlt, -, -⟩ := accepted_selectEntering_eq_some hj
    exact ⟨x, List.mem_of_getElem? hx, hlt⟩
  · rintro ⟨x, hx, hlt⟩ h
    exact absurd (accepted_selectEntering_eq_none htol h x hx) (not_le.mpr hlt)

namespace Binary64

theorem sub_zero (x : Binary64) : x - 0 = x := by
  cases x with
  | nan => rfl
  | inf s => rfl
  | zero s =>
    show round (0 + 0) (s && true) = zero s
    rw [add_zero, round_zero, Bool.and_true]
  | finite q hq hr =>
    show round (q + 0) (decide (q < 0) && true) = finite q hq hr
    rw [add_zero, round_finite hq hr]

theorem zipWith_sub_zero (c : List Binary64) :
    List.zipWith (· - ·) c (List.replicate c.length 0) = c := by
  induction c with
  | nil => rfl
  | cons x c ih => rw [List.length_cons, List.replicate_succ, List.zipWith_cons_cons, sub_zero, ih]

theorem IsReal.neg {x : Binary64} (h : IsReal x) : IsReal (neg x) := by
  cases h with
  | zero s => exact .zero _
  | finite q hq hr => exact .finite _ _ _

theorem toRat_neg (x : Binary64) : (neg x).toRat = -x.toRat := by
  cases x <;> simp [neg, toRat]

theorem lt_iff_toRat_lt {x y : Binary64} (hx : IsReal x) (hy : IsReal y) :
    x < y ↔ x.toRat < y.toRat := by
  rw [lt_def, lt_of_isReal hx hy, decide_eq_true_iff]

theorem isReal_or_eq_inf_of_nonneg {x : Binary64} (h : 0 ≤ x) :
    (IsReal x ∧ 0 ≤ x.toRat) ∨ x = inf false := by
  rw [le_def, zero_def] at h
  cases x with
  | nan => exact absurd h Bool.false_ne_true
  | inf s =>
    cases s with
    | false => exact .inr rfl
    | true => exact absurd h Bool.false_ne_true
  | zero s => exact .inl ⟨.zero s, le_rfl⟩
  | finite q hq hr =>
    have hq0 : decide ((0 : ℚ) ≤ q) = true := h
    exact .inl ⟨.finite q hq hr, of_decide_eq_true hq0⟩

theorem not_lt_neg_inf {x : Binary64} (hx : IsReal x) : ¬ x < -(inf false) := by
  cases hx <;> simp [lt, neg]

theorem selectEntering_toRat {L : List Binary64} (hL : ∀ x ∈ L, IsReal x) :
    (selectEntering L).column = (selectEntering (L.map toRat)).column ∧
      IsReal (selectEntering L).minReducedCost ∧
      (selectEntering L).minReducedCost.toRat = (selectEntering (L.map toRat)).minReducedCost := by
  have hl : List.Forall₂ (fun (q : Binary64 × ℕ) (q' : ℚ × ℕ) => IsReal q.1 ∧ q.1.toRat = q'.1 ∧ q.2 = q'.2)
      L.zipIdx (L.map toRat).zipIdx := by
    rw [List.zipIdx_map, List.forall₂_map_right_iff, List.forall₂_same]
    exact fun q hq => ⟨hL q.1 (List.fst_mem_of_mem_zipIdx hq), rfl, rfl⟩
  refine List.rel_foldl (P := fun (c : Entering Binary64) (c' : Entering ℚ) => c.column = c'.column ∧
    IsReal c.minReducedCost ∧ c.minReducedCost.toRat = c'.minReducedCost) ?_ ⟨rfl, .zero false, rfl⟩ hl
  rintro c c' ⟨hcol, hreal, hval⟩ ⟨x, j⟩ ⟨x', j'⟩ ⟨hx, hxx, hj⟩
  dsimp only at hxx hj ⊢
  subst hxx hj
  have hcmp : x < c.minReducedCost ↔ x.toRat < c'.minReducedCost := by
    rw [lt_iff_toRat_lt hx hreal, hval]
  by_cases h : x < c.minReducedCost
  · rw [if_pos h, if_pos (by simpa using hcmp.mp h)]
    exact ⟨rfl, hx, rfl⟩
  · rw [if_neg h, if_neg (by simpa using fun h' => h (hcmp.mpr h'))]
    exact ⟨hcol, hreal, hval⟩

theorem accepted_toRat {L : List Binary64} (hL : ∀ x ∈ L, IsReal x) {tol : Binary64}
    (htol : IsReal tol) :
    (selectEntering L).accepted tol = (selectEntering (L.map toRat)).accepted tol.toRat := by
  obtain ⟨hcol, hreal, hval⟩ := selectEntering_toRat hL
  have hcmp : (selectEntering L).minReducedCost < -tol ↔
      (selectEntering (L.map toRat)).minReducedCost < -tol.toRat := by
    rw [neg_def, lt_iff_toRat_lt hreal htol.neg, hval, toRat_neg]
  unfold Entering.accepted
  by_cases h : (selectEntering L).minReducedCost < -tol
  · rw [if_pos h, if_pos (by simpa using hcmp.mp h), hcol]
  · rw [if_neg h, if_neg (by simpa using fun h' => h (hcmp.mpr h'))]

theorem accepted_ne_none_iff {L : List Binary64} (hL : ∀ x ∈ L, IsReal x) {tol : Binary64}
    (htol : 0 ≤ tol) : (selectEntering L).accepted tol ≠ none ↔ ∃ x ∈ L, x < -tol := by
  rcases isReal_or_eq_inf_of_nonneg htol with ⟨hreal, hnonneg⟩ | rfl
  · rw [accepted_toRat hL hreal, accepted_selectEntering_ne_none_iff hnonneg]
    have hcmp : ∀ x ∈ L, x < -tol ↔ x.toRat < -tol.toRat := fun x hx => by
      rw [neg_def, lt_iff_toRat_lt (hL x hx) hreal.neg, toRat_neg]
    constructor
    · rintro ⟨_, hx', hlt⟩
      obtain ⟨x, hx, rfl⟩ := List.mem_map.mp hx'
      exact ⟨x, hx, (hcmp x hx).mpr hlt⟩
    · rintro ⟨x, hx, hlt⟩
      exact ⟨x.toRat, List.mem_map_of_mem hx, (hcmp x hx).mp hlt⟩
  · have hmin := (selectEntering_toRat hL).2.1
    constructor
    · intro h
      unfold Entering.accepted at h
      exact absurd (if_neg (not_lt_neg_inf hmin)) h
    · rintro ⟨x, hx, hlt⟩
      exact absurd hlt (not_lt_neg_inf (hL x hx))

end Binary64

open Binary64 in
theorem LinearProgram.factorize_noConstraints {prog : LinearProgram Binary64}
    (hm : prog.numConstraints = 0) (idx : List ℕ) :
    ∃ f, factorize prog.standardize (Basis.ofIndices prog.standardize idx) = some f ∧
      f.basicSolution = [] ∧ f.reducedCosts = prog.objective := by
  have hB : (Basis.ofIndices prog.standardize idx).matrix = ⟨[], 0⟩ := by
    simp [Basis.ofIndices, hm]
  have hinv : (⟨[], 0⟩ : Matrix Binary64).inverse = some ⟨[], 0⟩ := rfl
  refine ⟨_, by rw [factorize, hB, hinv]; rfl, rfl, ?_⟩
  have hcosts : prog.standardize.costs = prog.objective := by
    simp [LinearProgram.standardize, hm]
  have hcols : prog.standardize.constraints.cols = prog.objective.length := by
    simp [LinearProgram.standardize, hm, LinearProgram.numVariables]
  show List.zipWith (· - ·) prog.standardize.costs
    (List.replicate prog.standardize.constraints.cols 0) = prog.objective
  rw [hcosts, hcols, zipWith_sub_zero]

theorem LinearProgram.run_noConstraints {prog : LinearProgram Binary64}
    (hm : prog.numConstraints = 0) (tol : Binary64) :
    ∃ o, ((Solver.mk tol none).run prog).result = .ok o ∧
      ((selectEntering prog.objective).accepted tol = none →
        (o.summary prog.numVariables).status = .optimal) ∧
      ((selectEntering prog.objective).accepted tol ≠ none →
        (o.summary prog.numVariables).status = .unbounded) := by
  obtain ⟨f, hf, hsol0, hrc⟩ :=
    prog.factorize_noConstraints hm (Basis.initial prog.standardize).indices
  have hf' : factorize prog.standardize (Basis.initial prog.standardize) = some f := hf
  have hfeas : f.isFeasible = true := by simp [Factorization.isFeasible, hsol0]
  have hlimit : 0 < Nat.pow 2 (prog.standardize.numVariables + 2 * prog.standardize.numConstraints) :=
    Nat.two_pow_pos _
  have hrt : ∀ e, (ratioTest prog.standardize f e).1 = none := fun e => by
    simp [ratioTest, hm]
  unfold Solver.run
  simp only [hf', hfeas, Bool.not_true, Bool.false_eq_true, if_false, Option.getD_none]
  rcases hsol : solution prog.standardize (Basis.initial prog.standardize) f with ⟨vals, v⟩
  rw [Solver.loop_succ, hrc]
  cases hacc : (selectEntering prog.objective).accepted tol with
  | none => exact ⟨_, rfl, fun _ => rfl, fun h => absurd rfl h⟩
  | some e =>
    -- the cap is not reached in the first round, and the ratio test has no row
    simp only [if_neg (Nat.not_le.mpr hlimit), hrt]
    exact ⟨_, rfl, (fun h => by cases h), fun _ => rfl⟩

/-- What a result reports, in binary64 and under every configuration: its count of structural
columns; unless it is infeasible, the values, objective value and reduced costs of the basis the
run records last (the slack basis or the basis after the last pivot, also for an unbounded end),
with `n + m` values, zero outside that basis, that split into `n` structural and `m` slack
values, and `n + m` reduced costs, the costs themselves when there are no constraints. Without
constraints and without a cap, under a tolerance at least zero, the run is unbounded when some
cost is below `-tolerance` and optimal otherwise. -/
theorem run_reports_last_basis {c : List Binary64} {a : List (List Binary64)} {b : List Binary64}
    {prog : LinearProgram Binary64} (hprog : LinearProgram.make? c a b = .ok prog) :
    (∀ (s : Solver Binary64) (o : Outcome Binary64), (s.run prog).result = .ok o →
      (o.summary prog.numVariables).numVariables = prog.numVariables ∧
        ((o.summary prog.numVariables).status ≠ .infeasible →
          ∃ idx, (s.run prog).bases.getLast? = some idx ∧
            (o.summary prog.numVariables).OfBasis prog.standardize idx ∧
            (prog.numConstraints = 0 →
              (o.summary prog.numVariables).reducedCosts = prog.objective))) ∧
      (prog.numConstraints = 0 → ∀ tol : Binary64, 0 ≤ tol →
        ∃ o, ((Solver.mk tol none).run prog).result = .ok o ∧
          ((∃ x ∈ prog.objective, x < -tol) → (o.summary prog.numVariables).status = .unbounded) ∧
          ((¬ ∃ x ∈ prog.objective, x < -tol) →
            (o.summary prog.numVariables).status = .optimal)) := by
  obtain ⟨hc, -, -, hfin, -, -⟩ := LinearProgram.make?_eq_ok hprog
  have hreal : ∀ x ∈ prog.objective, Binary64.IsReal x := fun x hx =>
    (Binary64.isReal_iff x).mpr (hfin x (hc ▸ hx))
  refine ⟨fun s o h => ⟨by cases o <;> rfl, fun hst => ?_⟩, fun hm tol htol => ?_⟩
  · have hne : o ≠ .infeasible := by
      rintro rfl
      exact hst rfl
    obtain ⟨idx, hlast, hfrom⟩ := s.run_fromBasis prog h hne
    refine ⟨idx, hlast, hfrom.ofBasis, fun hm => ?_⟩
    -- without constraints every basis has the costs as reduced costs
    obtain ⟨f, hf, -, -, hrc⟩ := hfrom.ofBasis.factorized
    obtain ⟨f', hf', -, hrc'⟩ := prog.factorize_noConstraints hm idx
    rw [hrc, Option.some.inj (hf.symm.trans hf'), hrc']
  · obtain ⟨o, ho, hopt, hunb⟩ := prog.run_noConstraints hm tol
    have hiff := Binary64.accepted_ne_none_iff hreal htol
    exact ⟨o, ho, fun hlt => hunb (hiff.mpr hlt), fun hlt => hopt (not_not.mp (mt hiff.mp hlt))⟩

/-- One variable of cost `-1` and no constraint: nothing bounds the objective. -/
def freeVariable : LinearProgram Binary64 where
  objective := [-1]
  constraints := []
  rhs := []
  rows_eq := rfl
  cols_eq := by simp

theorem run_reports_last_basis_freeVariable :
    LinearProgram.make? [-1] [] [] = .ok freeVariable ∧
      ∃ o, ((Solver.mk 0 none).run freeVariable).result = .ok o ∧
        (o.summary 1).status = .unbounded ∧ (o.summary 1).reducedCosts = [-1] := by
  have hmake : LinearProgram.make? [-1] [] [] = .ok freeVariable := rfl
  obtain ⟨hall, hnone⟩ := run_reports_last_basis hmake
  obtain ⟨o, ho, hunb, -⟩ := hnone rfl 0 (by decide +kernel)
  have hst : (o.summary 1).status = .unbounded := hunb ⟨-1, List.mem_singleton_self _, by decide +kernel⟩
  obtain ⟨idx, -, -, hrc⟩ := (hall _ o ho).2 (fun h => by cases hst.symm.trans h)
  exact ⟨hmake, o, ho, hst, hrc rfl⟩

end RevisedSimplex
