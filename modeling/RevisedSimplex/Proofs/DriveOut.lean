import Mathlib
import RevisedSimplex.Proofs.ReferenceCorrectness

/-! # Driving out the artificial columns

At tolerance zero phase one ends optimal only at total infeasibility zero, with every artificial
column still basic at level zero. Driving them out pivots such a row on its first real column
with a non-zero entry, of either sign. The step of that pivot is the row's right-hand side over
the entry, which is zero, so no right-hand side moves and every tableau on the way keeps the
canonical form (`driveOut_prefix`). A row that keeps its artificial column is zero on the real
columns and on the right-hand side, and phase two, which pivots on real columns only, leaves it
as it is (`phaseTwo_keeps_row`).
-/

namespace RevisedSimplex.Reference

open Tableau

namespace Tableau

variable (t : Tableau ℚ) {r c k : ℕ}

theorem rows_getD_pivot (hkr : k ≠ r) (hkc : t.get k c = 0) :
    (t.pivot r c).rows.getD k [] = t.rows.getD k [] := by
  simp only [pivot, List.getD_eq_getElem?_getD, List.getElem?_map, List.getElem?_zipIdx]
  cases hk : t.rows[k]? with
  | none => rfl
  | some row =>
    have hrow : row[c]?.getD 0 = 0 := by
      simpa [get, List.getD_eq_getElem?_getD, hk] using hkc
    simp [hkr, hrow]

theorem basic_getD_pivot (hkr : k ≠ r) : (t.pivot r c).basic.getD k 0 = t.basic.getD k 0 := by
  simp [pivot, List.getD_eq_getElem?_getD, Ne.symm hkr]

theorem rows_getD_withObjective (o : List ℚ) (hk : k ≠ t.numRows) :
    (Method.withObjective t o).rows.getD k [] = t.rows.getD k [] := by
  simp [Method.withObjective, List.getD_eq_getElem?_getD, Ne.symm hk]

/-- Row `k` of `t'` and its basic column are those of `t`. -/
def KeepsRow (k : ℕ) (t' : Tableau ℚ) : Prop :=
  t'.rows.getD k [] = t.rows.getD k [] ∧ t'.basic.getD k 0 = t.basic.getD k 0

variable {t}

theorem KeepsRow.pivot {t' : Tableau ℚ} (h : t.KeepsRow k t') (hkr : k ≠ r)
    (hkc : t'.get k c = 0) : t.KeepsRow k (t'.pivot r c) :=
  ⟨(t'.rows_getD_pivot hkr hkc).trans h.1, (t'.basic_getD_pivot hkr).trans h.2⟩

end Tableau

namespace Method

variable (s : Method ℚ) {P : StandardForm ℚ}

/-- Phase two keeps every constraint row that is zero on the real columns, and its basic
column: it enters only real columns, and leaves only rows positive in the entering one. -/
theorem phaseTwo_keeps_row (hs0 : s.tolerance = 0) {t : Tableau ℚ} {k : ℕ} (hk : k < t.numRows)
    (hzero : ∀ j < t.numColumns, t.get k j = 0) :
    (s.phaseTwo P t).2.rows.getD k [] = t.rows.getD k [] ∧
      (s.phaseTwo P t).2.basic.getD k 0 = t.basic.getD k 0 := by
  have hstep : ∀ t' r c n, t.KeepsRow k t' →
      t'.enteringColumn s.tolerance t.numColumns = some c → t'.leavingRow s.tolerance c = some r →
      t.KeepsRow k { t'.pivot r c with iterations := n } := by
    intro t' r c n hkeep he hl
    rw [hs0] at he hl
    have hkc : t'.get k c = 0 := by
      rw [Tableau.get, hkeep.1]
      exact hzero c (enteringColumn_eq_some he).1
    have hkr : k ≠ r := fun hkr => by
      have hpos := (leavingRow_eq_some hl).2.1
      rw [← hkr, hkc] at hpos
      exact lt_irrefl 0 hpos
    exact hkeep.pivot hkr hkc
  exact (runPhase_ends (t.KeepsRow k) hstep ⟨t.rows_getD_withObjective _ hk.ne, rfl⟩).inv

end Method

theorem PhaseOneEnds.objective_rhs_eq_zero {res : PhaseEnd × Tableau ℚ} (h : PhaseOneEnds P res)
    (hopt : res.1 = .optimal) :
    res.2.get P.numConstraints (P.numColumns + P.numConstraints) = 0 := by
  have hart : ∀ j, P.numColumns ≤ j → j < P.numColumns + P.numConstraints →
      res.2.basicPoint (P.numColumns + P.numConstraints) P.numConstraints j = 0 :=
    fun j hj _ => onBasis_eq_zero (fun k hk hNk => h.artificial_zero hopt k hk hNk) hj
  have hval := h.canonical.value_eq _ h.canonical.solves_basicPoint
  rw [h.canonical.value_basicPoint, StandardForm.sum_artificialCost_eq_zero hart] at hval
  linarith

/-- At tolerance zero, once phase one ends optimal, at total infeasibility zero, every tableau
on the way of driving out keeps the right-hand sides non-negative, the solutions of the
sign-corrected system `[A' | I | b]`, and each basic column the unit vector of its row (zero in
the objective row), although its pivots may fall on negative entries. Afterwards every row whose
basic column is still artificial is zero on the `n + m` real columns and on the right-hand side,
and phase two leaves that row and its basic column as they are. -/
theorem driveOut_keeps_canonical_form (s : Method ℚ) (hs0 : s.tolerance = 0) {P : StandardForm ℚ}
    (hP : P.Shaped) (hopt : (s.phaseOne (ofProblem P)).1 = .optimal) :
    let W := P.numColumns + P.numConstraints
    let t₁ := (s.phaseOne (ofProblem P)).2
    let t₂ := s.driveOut t₁
    t₁.get P.numConstraints W = 0 ∧
    (∀ n ≤ P.numConstraints, let t := (List.range n).foldl s.driveOutRow t₁
      (∀ i < P.numConstraints, 0 ≤ t.get i W) ∧
      (∀ z, t.Solves W z ↔ (ofProblem P).Solves W z) ∧
      ∀ k < P.numConstraints, ∀ i ≤ P.numConstraints,
        t.get i (t.basic.getD k 0) = if i = k then 1 else 0) ∧
    t₂.RedundantArtificials P.numColumns W P.numConstraints ∧
    ∀ k < P.numConstraints, P.numColumns ≤ t₂.basic.getD k 0 →
      (s.phaseTwo P t₂).2.rows.getD k [] = t₂.rows.getD k [] ∧
        (s.phaseTwo P t₂).2.basic.getD k 0 = t₂.basic.getD k 0 := by
  intro W t₁ t₂
  have h1 := s.phaseOne_ends hs0 hP
  obtain ⟨hcan, hN, hred⟩ :=
    s.driveOut_redundant hs0 (Nat.le_add_right _ _) h1.canonical h1.numColumns
      (h1.artificial_zero hopt)
  refine ⟨h1.objective_rhs_eq_zero hopt, fun n hn => ?_, hred, fun k hk hNk => ?_⟩
  · have hpre := (s.driveOut_prefix hs0 (Nat.le_add_right _ _) h1.canonical h1.numColumns
      (h1.artificial_zero hopt) hn).canonical
    exact ⟨hpre.rhs_nonneg, hpre.solves_iff, hpre.unit⟩
  · -- a row that keeps its artificial column is zero on every column phase two can enter
    refine s.phaseTwo_keeps_row hs0 (hcan.shaped.numRows ▸ hk) fun j hj => ?_
    exact (hred k hk hNk).1 j (hN ▸ hj)

/-- Two copies of the row `x = 1`: the second row's artificial column stays basic. -/
def duplicatedRow : StandardForm ℚ where
  constraints := ⟨[[1, 0, 0], [1, 0, 0]], 3⟩
  rhs := [1, 1]
  costs := [0, 0, 0]
  numConstraints := 2
  numVariables := 1

theorem driveOut_keeps_canonical_form_duplicatedRow :
    duplicatedRow.Shaped ∧
      ((⟨100, 0⟩ : Method ℚ).phaseOne (ofProblem duplicatedRow)).1 = .optimal ∧
      ((⟨100, 0⟩ : Method ℚ).driveOut
        ((⟨100, 0⟩ : Method ℚ).phaseOne (ofProblem duplicatedRow)).2).basic = [0, 4] ∧
      ((⟨100, 0⟩ : Method ℚ).driveOut ((⟨100, 0⟩ : Method ℚ).phaseOne
        (ofProblem duplicatedRow)).2).RedundantArtificials 3 5 2 := by
  have hP : duplicatedRow.Shaped := ⟨⟨rfl, rfl, by decide⟩, rfl, rfl⟩
  have hopt : ((⟨100, 0⟩ : Method ℚ).phaseOne (ofProblem duplicatedRow)).1 = .optimal := by
    decide +kernel
  exact ⟨hP, hopt, by decide +kernel,
    (driveOut_keeps_canonical_form ⟨100, 0⟩ rfl hP hopt).2.2.1⟩

end RevisedSimplex.Reference
