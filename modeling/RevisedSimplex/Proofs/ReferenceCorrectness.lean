import Mathlib
import RevisedSimplex.Proofs.PhaseOne
import RevisedSimplex.Proofs.RevisedCorrectness

/-! # Correctness of the two-phase method

Phase two prices the real costs against the basis that driving out left. Its pivots enter real
columns only, so the redundant rows, whose artificial column stayed basic, are never touched:
they keep the basic point and every ray zero on the artificial columns. Over the rationals and
at tolerance zero the method therefore answers the augmented problem correctly: an optimal
answer is a feasible point that no feasible point undercuts, an infeasible answer means no
`y ≥ 0` solves `A' y = b`, and an unbounded answer comes with feasible points of every cost.
-/

open Finset Matrix

namespace RevisedSimplex

namespace StandardForm

variable (P : StandardForm ℚ)

/-- The phase-two costs: the real costs, zero on the artificial columns. -/
def realCost (j : ℕ) : ℚ := if j < P.numColumns then P.costs.getD j 0 else 0

variable {P}

theorem sum_realCost (z : ℕ → ℚ) :
    ∑ j ∈ range (P.numColumns + P.numConstraints), P.realCost j * z j =
      P.costVector ⬝ᵥ fun j : Fin P.numColumns => z j := by
  have hart : ∑ x ∈ range P.numConstraints,
      P.realCost (P.numColumns + x) * z (P.numColumns + x) = 0 :=
    Finset.sum_eq_zero fun x _ => by simp [realCost]
  rw [Finset.sum_range_add, hart, add_zero, dotProduct, ← Fin.sum_univ_eq_sum_range]
  refine Finset.sum_congr rfl fun j _ => ?_
  simp [realCost, costVector, List.getD_eq_getElem?_getD]

end StandardForm

theorem length_foldl_of_length {β : Type} (step : List ℚ → β → List ℚ)
    (hstep : ∀ vs p, (step vs p).length = vs.length) (L : List β) (acc : List ℚ) :
    (L.foldl step acc).length = acc.length := by
  induction L generalizing acc with
  | nil => rfl
  | cons p L ih => rw [List.foldl_cons, ih, hstep]

theorem getD_foldl_setBelow (N : ℕ) (g : ℕ → ℚ) (step : List ℚ → ℕ × ℕ → List ℚ)
    (hstep : ∀ vs p, step vs p = if p.1 < N then vs.set p.1 (g p.2) else vs)
    (L : List (ℕ × ℕ)) (hL : (L.map (·.1)).Nodup) (acc : List ℚ) {j : ℕ} (hjN : j < N)
    (hj : j < acc.length) :
    (L.foldl step acc)[j]?.getD 0 =
      (if j ∈ L.map (·.1) then 0 else acc[j]?.getD 0) +
        (L.map fun p => if p.1 = j then g p.2 else 0).sum := by
  induction L generalizing acc with
  | nil => simp
  | cons p L ih =>
    simp only [List.map_cons, List.nodup_cons] at hL
    have hlen : (step acc p).length = acc.length := by
      rw [hstep]
      split_ifs <;> simp
    rw [List.foldl_cons, ih hL.2 (step acc p) (by rw [hlen]; exact hj), hstep]
    simp only [List.map_cons, List.sum_cons]
    by_cases hpj : p.1 = j
    · -- the pair that names `j`: no later pair does
      subst hpj
      simp [hL.1, hjN, hj]
    · have hmem : j ∈ p.1 :: L.map (·.1) ↔ j ∈ L.map (·.1) := by
        simp [List.mem_cons, Ne.symm hpj]
      split_ifs <;> simp_all

namespace Reference.Tableau

section Points

variable {t : Tableau ℚ} {N W m : ℕ} {sys : (ℕ → ℚ) → Prop} {cost : ℕ → ℚ}

theorem Canonical.basic_nodup (h : t.Canonical W m sys cost) : t.basic.Nodup := by
  rw [List.nodup_iff_injective_get]
  intro a b hab
  have ha : (a : ℕ) < m := h.shaped.length_basic ▸ a.2
  have hb : (b : ℕ) < m := h.shaped.length_basic ▸ b.2
  have hget (k : Fin t.basic.length) : t.basic.get k = t.basic.getD k 0 := by
    simp [List.getD_eq_getElem?_getD]
  have h1 := h.unit a ha a ha.le
  rw [← hget a, hab, hget b, h.unit b hb a ha.le, if_pos rfl] at h1
  exact Fin.ext (by simpa using h1)

theorem basicValues_spec (h : t.Canonical W m sys cost) (hN : t.numColumns = N) :
    (Method.basicValues t).length = N ∧
      ∀ j < N, (Method.basicValues t)[j]?.getD 0 = t.basicPoint W m j := by
  have hkeys : ((t.basic.zipIdx).map (·.1)).Nodup := by
    rw [List.zipIdx_map_fst]
    exact h.basic_nodup
  unfold Method.basicValues
  refine ⟨?_, fun j hj => ?_⟩
  · rw [length_foldl_of_length _ (fun vs p => ?_), List.length_replicate, hN]
    dsimp only
    split_ifs <;> simp
  · rw [getD_foldl_setBelow N (fun i => t.get i t.rhsColumn) _ (fun vs p => ?_) _ hkeys _ hj
      (by simpa [hN] using hj)]
    · have hfirst : (if j ∈ (t.basic.zipIdx).map (·.1) then 0
          else (List.replicate t.numColumns (0 : ℚ))[j]?.getD 0) = 0 := by
        split_ifs
        · rfl
        · rw [List.getElem?_replicate, if_pos (by rw [hN]; exact hj), Option.getD_some]
      rw [hfirst, zero_add, sum_zipIdx _ 0, h.shaped.length_basic, h.shaped.rhsColumn]
      simp [basicPoint, onBasis, List.getD_eq_getElem?_getD]
    · rw [hN]

theorem onBasis_eq_zero {w : ℕ → ℚ} (hw : ∀ k < m, N ≤ t.basic.getD k 0 → w k = 0) {j : ℕ}
    (hj : N ≤ j) : t.onBasis m w j = 0 := by
  refine Finset.sum_eq_zero fun k hk => ?_
  split_ifs with hb
  · exact hw k (Finset.mem_range.mp hk) (hb ▸ hj)
  · rfl

theorem basicPoint_artificial (hred : t.RedundantArtificials N W m) {j : ℕ} (hj : N ≤ j) :
    t.basicPoint W m j = 0 :=
  onBasis_eq_zero (fun k hk hNk => (hred k hk hNk).2) hj

theorem ray_artificial (hred : t.RedundantArtificials N W m) {c : ℕ} (hc : c < N) (σ : ℚ)
    {j : ℕ} (hj : N ≤ j) : t.ray W m c σ j = 0 := by
  have hw (k : ℕ) (hk : k < m) (hNk : N ≤ t.basic.getD k 0) : t.get k W - σ * t.get k c = 0 := by
    rw [(hred k hk hNk).2, (hred k hk hNk).1 c hc, mul_zero, sub_zero]
  rw [ray, onBasis_eq_zero hw hj, if_neg (by omega), add_zero]

theorem RedundantArtificials.withObjective (hs : t.Shaped W m)
    (hred : t.RedundantArtificials N W m) (o : List ℚ) :
    (Method.withObjective t o).RedundantArtificials N W m := by
  intro k hk hNk
  simp only [basic_withObjective, get_withObjective hs, if_neg hk.ne] at hNk ⊢
  exact hred k hk hNk

theorem RedundantArtificials.pivot (hs : t.Shaped W m) (hred : t.RedundantArtificials N W m)
    (hNW : N ≤ W) {r c : ℕ} (hr : r < m) (hc : c < N) :
    (t.pivot r c).RedundantArtificials N W m := by
  intro k hk hNk
  rw [getD_basic_pivot hs c hr] at hNk
  split_ifs at hNk with hkr
  · omega
  have hkc : t.get k c = 0 := (hred k hk hNk).1 c hc
  have hrow (j : ℕ) (hj : j ≤ W) : (t.pivot r c).get k j = t.get k j := by
    rw [get_pivot hs c hr.le hk.le hj, if_neg hkr, hkc, zero_mul, sub_zero]
  exact ⟨fun j hj => by rw [hrow j (by omega), (hred k hk hNk).1 j hj],
    by rw [hrow W le_rfl, (hred k hk hNk).2]⟩

end Points

section PhaseTwo

variable {P : StandardForm ℚ} {t : Tableau ℚ} {W m : ℕ}

theorem priceOut_spec {acc : List ℚ} {row : List ℚ × ℕ} (hacc : acc.length = W + 1)
    (hrow : row.1.length = W + 1) :
    (Method.priceOut P P.numColumns acc row).length = W + 1 ∧ ∀ j < W + 1,
      (Method.priceOut P P.numColumns acc row)[j]?.getD 0 =
        acc[j]?.getD 0 + -(P.realCost row.2 * row.1[j]?.getD 0) := by
  have hcost : (if row.2 < P.numColumns then P.costs.getD row.2 0 else 0 : ℚ) = P.realCost row.2 :=
    rfl
  unfold Method.priceOut
  simp only [Scalar.zero_rat, hcost, Scalar.beq_rat]
  by_cases h0 : P.realCost row.2 = 0
  · simp [h0, hacc]
  · simp only [h0, decide_false, Bool.false_eq_true, if_false]
    refine ⟨by simp [hacc, hrow], fun j hj => ?_⟩
    simp [List.getElem?_zipWith, List.getElem?_eq_getElem (hacc ▸ hj),
      List.getElem?_eq_getElem (hrow ▸ hj), sub_eq_add_neg]

theorem phaseTwoObjective_spec (hs : t.Shaped W m) (hN : t.numColumns = P.numColumns)
    (hNW : P.numColumns ≤ W) (hcosts : P.costs.length = P.numColumns) :
    (Method.phaseTwoObjective P t).length = W + 1 ∧ ∀ j ≤ W,
      (Method.phaseTwoObjective P t)[j]?.getD 0 =
        P.realCost j - ∑ i ∈ range m, P.realCost (t.basic.getD i 0) * t.get i j := by
  have hwidth : t.width = W + 1 := hs.length_getD (Nat.zero_le m)
  have hrows (row : List ℚ × ℕ) (hrow : row ∈ (t.rows.take m).zip t.basic) :
      row.1.length = W + 1 :=
    hs.length_row _ (List.mem_of_mem_take (List.of_mem_zip hrow).1)
  have hstart : (P.costs.take P.numColumns ++
      List.replicate (W + 1 - P.numColumns) (0 : ℚ)).length = W + 1 := by
    simp [hcosts]
    omega
  obtain ⟨hl, hg⟩ := foldl_additive (n := W + 1) (Method.priceOut P P.numColumns)
    (fun row j => -(P.realCost row.2 * row.1[j]?.getD 0)) ((t.rows.take m).zip t.basic)
    (fun acc row hrow hacc => (priceOut_spec hacc (hrows row hrow)).1)
    (fun acc row hrow hacc => (priceOut_spec hacc (hrows row hrow)).2) _ hstart
  unfold Method.phaseTwoObjective
  rw [hs.numRows, hN, hwidth]
  refine ⟨hl, fun j hj => ?_⟩
  have hzip : (t.rows.take m).length = t.basic.length := by
    simp [hs.length_rows, hs.length_basic]
  rw [hg j (by omega), sum_zip _ _ [] 0 _ hzip, List.length_take, hs.length_rows,
    Nat.min_eq_left (by omega), Finset.sum_neg_distrib, ← sub_eq_add_neg]
  congr 1
  · -- the start: the real costs, then zeros
    by_cases hjN : j < P.numColumns
    · rw [List.getElem?_append_left (by simp [hcosts, hjN]), List.getElem?_take_of_lt hjN]
      simp [StandardForm.realCost, hjN, List.getD_eq_getElem?_getD]
    · rw [List.getElem?_append_right (by simp [hcosts]; omega), List.getElem?_replicate]
      simp only [StandardForm.realCost, hjN, if_false]
      split_ifs <;> rfl
  · refine Finset.sum_congr rfl fun i hi => ?_
    rw [List.getElem?_take_of_lt (Finset.mem_range.mp hi)]
    simp [get, List.getD_eq_getElem?_getD]

theorem Canonical.phaseTwoStart {sys : (ℕ → ℚ) → Prop} {cost : ℕ → ℚ}
    (h : t.Canonical (P.numColumns + m) m sys cost) (hN : t.numColumns = P.numColumns)
    (hcosts : P.costs.length = P.numColumns) :
    (Method.withObjective t (Method.phaseTwoObjective P t)).Canonical (P.numColumns + m) m sys
      P.realCost := by
  obtain ⟨hl, hg⟩ := phaseTwoObjective_spec h.shaped hN (Nat.le_add_right _ _) hcosts
  exact h.withPricedObjective P.realCost (fun i => P.realCost (t.basic.getD i 0)) hl hg
    (by simp [StandardForm.realCost]) fun _ _ => rfl

end PhaseTwo

end Reference.Tableau

namespace Reference

open Tableau

/-- An outcome that answers `min c'·y, A' y = b, y ≥ 0` correctly: an optimal one reports a
feasible point, its cost, and that no feasible point costs less; an infeasible one that no
point is feasible; an unbounded one that the feasible points have costs below every bound. -/
structure Outcome.Correct (P : StandardForm ℚ) (o : Outcome ℚ) : Prop where
  optimal : ∀ values obj, o = .optimal values obj →
    values.length = P.numColumns ∧ P.Feasible (vecOf values P.numColumns) ∧
      obj = P.costVector ⬝ᵥ vecOf values P.numColumns ∧
      ∀ y, P.Feasible y → obj ≤ P.costVector ⬝ᵥ y
  infeasible : o = .infeasible → ¬∃ y, P.Feasible y
  unbounded : o = .unbounded →
    (∃ y, P.Feasible y) ∧ ∀ M : ℚ, ∃ y, P.Feasible y ∧ P.costVector ⬝ᵥ y < M

namespace Outcome.Correct

variable {P : StandardForm ℚ}

theorem iterationLimit : (Outcome.iterationLimit : Outcome ℚ).Correct P :=
  ⟨fun _ _ h => (nomatch h), fun h => (nomatch h), fun h => nomatch h⟩

theorem infeasible_of (h : ¬∃ y, P.Feasible y) : (Outcome.infeasible : Outcome ℚ).Correct P :=
  ⟨fun _ _ h => (nomatch h), fun _ => h, fun h => nomatch h⟩

theorem unbounded_of
    (h : (∃ y, P.Feasible y) ∧ ∀ M : ℚ, ∃ y, P.Feasible y ∧ P.costVector ⬝ᵥ y < M) :
    (Outcome.unbounded : Outcome ℚ).Correct P :=
  ⟨fun _ _ h => (nomatch h), fun h => (nomatch h), fun _ => h⟩

end Outcome.Correct

section Ends

variable {P : StandardForm ℚ} {t : Tableau ℚ}
  (hP : P.Shaped)
  (h : t.Canonical (P.numColumns + P.numConstraints) P.numConstraints
    ((ofProblem P).Solves (P.numColumns + P.numConstraints)) P.realCost)
  (hred : t.RedundantArtificials P.numColumns (P.numColumns + P.numConstraints) P.numConstraints)
include hP h

omit hP in
theorem cost_eq_value {z : ℕ → ℚ} (hz : t.Solves (P.numColumns + P.numConstraints) z) :
    P.costVector ⬝ᵥ (fun j : Fin P.numColumns => z j) =
      t.value (P.numColumns + P.numConstraints) z := by
  rw [h.value_eq z hz, StandardForm.sum_realCost]

include hred in
theorem extract_correct (hN : t.numColumns = P.numColumns)
    (hopt : ∀ j < P.numColumns, 0 ≤ t.get P.numConstraints j) :
    (Method.extract P t).Correct P := by
  obtain ⟨hlen, hval⟩ := basicValues_spec h hN
  have hvec : vecOf (Method.basicValues t) P.numColumns =
      fun j : Fin P.numColumns =>
        t.basicPoint (P.numColumns + P.numConstraints) P.numConstraints j := by
    funext j
    rw [vecOf_apply, hval j j.2]
  have hfeas := h.feasible_of_solves hP h.basicPoint_nonneg h.solves_basicPoint
    fun j hj _ => basicPoint_artificial hred hj
  refine ⟨fun values obj heq => ?_, fun heq => (nomatch heq), fun heq => nomatch heq⟩
  obtain ⟨rfl, rfl⟩ := Outcome.optimal.inj heq
  have hobj : dot (Method.basicValues t) P.costs = P.costVector ⬝ᵥ vecOf (Method.basicValues t)
      P.numColumns := by
    rw [dot_eq_dotProduct hlen hP.costs, dotProduct_comm]
    rfl
  refine ⟨hlen, hvec ▸ hfeas, hobj, fun y hy => ?_⟩
  -- both costs are values of the objective row, the basic point's the least
  have hz := h.solves_realPoint hP hy.2
  rw [hobj, hvec, cost_eq_value h h.solves_basicPoint, h.value_basicPoint,
    ← StandardForm.realPoint_fin y, cost_eq_value h hz]
  exact h.value_ge hopt (fun j _ => StandardForm.realPoint_nonneg hy.1 j)
    fun j hj _ => StandardForm.realPoint_of_le y hj

include hred in
theorem unbounded_correct {c : ℕ} (hc : c < P.numColumns)
    (hneg : t.get P.numConstraints c < 0) (hcol : ∀ i < P.numConstraints, t.get i c ≤ 0) :
    (∃ y, P.Feasible y) ∧ ∀ M : ℚ, ∃ y, P.Feasible y ∧ P.costVector ⬝ᵥ y < M := by
  refine ⟨⟨_, h.feasible_of_solves hP h.basicPoint_nonneg h.solves_basicPoint
    fun j hj _ => basicPoint_artificial hred hj⟩, fun M => ?_⟩
  have hcW : c < P.numColumns + P.numConstraints := by omega
  obtain ⟨σ, hσ, hlt⟩ := h.exists_value_ray_lt hcW hneg M
  refine ⟨_, h.feasible_of_solves hP (h.ray_nonneg hcol hσ) (h.solves_ray hcW σ)
    fun j hj _ => ray_artificial hred hc σ hj, ?_⟩
  rwa [cost_eq_value h (h.solves_ray hcW σ)]

end Ends

/-- What phase two at tolerance zero leaves from a driven-out tableau: the canonical form for
the real costs with the redundant rows kept, an objective row non-negative on the real columns
when optimal, a real column with no positive entry when unbounded, and never infeasible. -/
structure PhaseTwoEnds (P : StandardForm ℚ) (res : PhaseEnd × Tableau ℚ) : Prop where
  canonical : res.2.Canonical (P.numColumns + P.numConstraints) P.numConstraints
    ((ofProblem P).Solves (P.numColumns + P.numConstraints)) P.realCost
  numColumns : res.2.numColumns = P.numColumns
  redundant : res.2.RedundantArtificials P.numColumns (P.numColumns + P.numConstraints)
    P.numConstraints
  optimal : res.1 = .optimal → ∀ j < P.numColumns, 0 ≤ res.2.get P.numConstraints j
  unbounded : res.1 = .unbounded → ∃ c < P.numColumns, res.2.get P.numConstraints c < 0 ∧
    ∀ i < P.numConstraints, res.2.get i c ≤ 0
  not_infeasible : res.1 ≠ .infeasible

namespace Method

variable {P : StandardForm ℚ} (s : Method ℚ)

theorem phaseTwo_ends (hs0 : s.tolerance = 0) (hP : P.Shaped) {t : Tableau ℚ} {cost : ℕ → ℚ}
    (h : t.Canonical (P.numColumns + P.numConstraints) P.numConstraints
      ((ofProblem P).Solves (P.numColumns + P.numConstraints)) cost)
    (hN : t.numColumns = P.numColumns)
    (hred : t.RedundantArtificials P.numColumns (P.numColumns + P.numConstraints)
      P.numConstraints) :
    PhaseTwoEnds P (s.phaseTwo P t) := by
  -- phase two keeps the canonical form, the real columns and the redundant rows
  have hstep : ∀ (t : Tableau ℚ) (r c k : ℕ),
      (t.Canonical (P.numColumns + P.numConstraints) P.numConstraints
        ((ofProblem P).Solves (P.numColumns + P.numConstraints)) P.realCost ∧
        t.numColumns = P.numColumns ∧
        t.RedundantArtificials P.numColumns (P.numColumns + P.numConstraints)
          P.numConstraints) →
      t.enteringColumn s.tolerance P.numColumns = some c →
      t.leavingRow s.tolerance c = some r →
      (({ t.pivot r c with iterations := k } : Tableau ℚ).Canonical
        (P.numColumns + P.numConstraints) P.numConstraints
        ((ofProblem P).Solves (P.numColumns + P.numConstraints)) P.realCost ∧
        ({ t.pivot r c with iterations := k } : Tableau ℚ).numColumns = P.numColumns ∧
        ({ t.pivot r c with iterations := k } : Tableau ℚ).RedundantArtificials P.numColumns
          (P.numColumns + P.numConstraints) P.numConstraints) := by
    rintro t r c k ⟨ht, hN, hred⟩ he hl
    rw [hs0] at he hl
    have hc := (enteringColumn_eq_some he).1
    have hr := (leavingRow_eq_some hl).1
    rw [ht.shaped.numRows] at hr
    exact ⟨(ht.pivot_bland (Nat.le_add_right _ _) he hl).setIterations k, hN,
      hred.pivot ht.shaped (Nat.le_add_right _ _) hr hc⟩
  have hph := runPhase_ends _ hstep ⟨h.phaseTwoStart hN hP.costs, hN,
    hred.withObjective h.shaped _⟩
  unfold phaseTwo
  rw [hN]
  generalize s.runPhase _ _ = res at hph ⊢
  obtain ⟨e, t'⟩ := res
  obtain ⟨⟨hc, hN', hred'⟩, hopt, hunb, hninf⟩ := hph
  dsimp only at hc hN' hred' hopt hunb hninf ⊢
  rw [hs0] at hopt hunb
  refine ⟨hc, hN', hred', fun he => ?_, fun he => ?_, hninf⟩
  · have hobj := enteringColumn_eq_none (hopt he)
    rwa [hc.shaped.numRows] at hobj
  · obtain ⟨c, hce, hl⟩ := hunb he
    obtain ⟨hcN, hneg⟩ := enteringColumn_eq_some hce
    have hcol := leavingRow_eq_none hl
    rw [hc.shaped.numRows] at hneg hcol
    exact ⟨c, hcN, hneg, hcol⟩

theorem solve_correct (hs0 : s.tolerance = 0) (hP : P.Shaped) : (s.solve P).outcome.Correct P := by
  have h1 := s.phaseOne_ends hs0 hP
  unfold solve
  generalize s.phaseOne (ofProblem P) = res1 at h1 ⊢
  obtain ⟨e1, t2⟩ := res1
  cases e1 with
  | iterationLimit => exact Outcome.Correct.iterationLimit
  | unbounded => exact absurd rfl h1.not_unbounded
  | infeasible => exact Outcome.Correct.infeasible_of (h1.infeasible rfl)
  | optimal =>
    dsimp only
    obtain ⟨hc3, hN3, hred3⟩ := s.driveOut_redundant hs0 (Nat.le_add_right _ _) h1.canonical
      h1.numColumns (h1.artificial_zero rfl)
    have h2 := s.phaseTwo_ends hs0 hP hc3 hN3 hred3
    generalize s.phaseTwo P (s.driveOut t2) = res2 at h2 ⊢
    obtain ⟨e2, t5⟩ := res2
    cases e2 with
    | optimal => exact extract_correct hP h2.canonical h2.redundant h2.numColumns (h2.optimal rfl)
    | unbounded =>
      obtain ⟨c, hc, hneg, hcol⟩ := h2.unbounded rfl
      exact Outcome.Correct.unbounded_of
        (unbounded_correct hP h2.canonical h2.redundant hc hneg hcol)
    | iterationLimit => exact Outcome.Correct.iterationLimit
    | infeasible => exact absurd rfl h2.not_infeasible

end Method

/-- At tolerance zero, and whatever its cap on pivots, the two-phase method answers the
augmented problem of every program correctly. -/
theorem reference_answers_correct (prog : LinearProgram ℚ) (maxIterations : ℕ) :
    (∀ values objective,
      ((⟨maxIterations, 0⟩ : Method ℚ).solve prog.standardize).outcome =
          .optimal values objective →
        values.length = prog.standardize.numColumns ∧
        prog.standardize.Feasible (vecOf values prog.standardize.numColumns) ∧
        objective = prog.standardize.costVector ⬝ᵥ vecOf values prog.standardize.numColumns ∧
        ∀ y, prog.standardize.Feasible y → objective ≤ prog.standardize.costVector ⬝ᵥ y) ∧
    (((⟨maxIterations, 0⟩ : Method ℚ).solve prog.standardize).outcome = .infeasible →
      ¬∃ y, prog.standardize.Feasible y) ∧
    (((⟨maxIterations, 0⟩ : Method ℚ).solve prog.standardize).outcome = .unbounded →
      (∃ y, prog.standardize.Feasible y) ∧
        ∀ M : ℚ, ∃ y, prog.standardize.Feasible y ∧ prog.standardize.costVector ⬝ᵥ y < M) := by
  have h := Method.solve_correct ⟨maxIterations, 0⟩ rfl prog.shaped_standardize
  exact ⟨h.optimal, h.infeasible, h.unbounded⟩

/-- The production plan's optimum, found by both phases, and certified least. -/
theorem reference_answers_correct_example :
    ((⟨100, 0⟩ : Method ℚ).solve productionPlan.standardize).outcome =
        .optimal [2, 6, 2, 0, 0] (-36) ∧
      ∀ y, productionPlan.standardize.Feasible y → -36 ≤ productionPlan.standardize.costVector ⬝ᵥ y := by
  have hopt : ((⟨100, 0⟩ : Method ℚ).solve productionPlan.standardize).outcome =
      .optimal [2, 6, 2, 0, 0] (-36) := by decide +kernel
  exact ⟨hopt, ((reference_answers_correct productionPlan 100).1 _ _ hopt).2.2.2⟩

end Reference

end RevisedSimplex
