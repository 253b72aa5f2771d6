import Mathlib
import RevisedSimplex.Proofs.BasisView
import RevisedSimplex.Proofs.BlandRule

/-! # The first tableau and phase one

The first tableau of an augmented problem with `m` rows and `N` columns has `W = N + m`
columns before its right-hand side: row `i` is `σᵢ A'ᵢ`, the unit vector of the artificial
column `N + i`, and `σᵢ bᵢ`, where the sign `σᵢ` makes the right-hand side non-negative. It is
canonical for its own system with the artificial basis, and a vector zero on the artificial
columns solves that system exactly when its real part solves `A' y = b`.

Phase one prices the sum of the artificial columns against that basis. At tolerance zero it
never ends unbounded, since the sum is bounded below by zero; it reports infeasible only when
no `y ≥ 0` solves `A' y = b`; and when it ends optimal every artificial column still basic sits
at zero. Driving the artificial columns out keeps all of this and leaves every row whose
artificial column stays basic zero on the real columns.
-/

open Finset Matrix

namespace RevisedSimplex

namespace StandardForm

variable (P : StandardForm ℚ)

/-- The sign that makes the right-hand side of row `i` non-negative. -/
def rowSign (i : ℕ) : ℚ := if P.rhs.getD i 0 < 0 then -1 else 1

/-- A vector over the real columns, as a vector over all columns, zero past them. -/
def realPoint (y : Fin P.numColumns → ℚ) (j : ℕ) : ℚ :=
  if h : j < P.numColumns then y ⟨j, h⟩ else 0

/-- The phase-one costs: one on each artificial column. -/
def artificialCost (j : ℕ) : ℚ :=
  if P.numColumns ≤ j ∧ j < P.numColumns + P.numConstraints then 1 else 0

variable {P}

theorem rowSign_ne_zero (i : ℕ) : P.rowSign i ≠ 0 := by
  unfold rowSign
  split_ifs <;> norm_num

theorem rowSign_mul_rhs_nonneg (i : ℕ) : 0 ≤ P.rowSign i * P.rhs.getD i 0 := by
  unfold rowSign
  split_ifs with h
  · linarith
  · simpa using not_lt.mp h

theorem realPoint_fin (y : Fin P.numColumns → ℚ) :
    (fun j : Fin P.numColumns => P.realPoint y j) = y := by
  funext j
  simp [realPoint]

theorem realPoint_of_le (y : Fin P.numColumns → ℚ) {j : ℕ} (hj : P.numColumns ≤ j) :
    P.realPoint y j = 0 := by
  simp [realPoint, not_lt.mpr hj]

theorem realPoint_nonneg {y : Fin P.numColumns → ℚ} (hy : 0 ≤ y) (j : ℕ) : 0 ≤ P.realPoint y j := by
  unfold realPoint
  split_ifs
  · exact hy _
  · exact le_rfl

theorem artificialCost_nonneg (j : ℕ) : 0 ≤ P.artificialCost j := by
  unfold artificialCost
  split_ifs <;> norm_num

theorem sum_artificialCost_eq_zero {z : ℕ → ℚ}
    (hz : ∀ j, P.numColumns ≤ j → j < P.numColumns + P.numConstraints → z j = 0) :
    ∑ j ∈ range (P.numColumns + P.numConstraints), P.artificialCost j * z j = 0 := by
  refine Finset.sum_eq_zero fun j hj => ?_
  unfold artificialCost
  split_ifs with h
  · rw [hz j h.1 h.2, mul_zero]
  · rw [zero_mul]

end StandardForm

theorem sum_map_take {β : Type} (l : List β) (d : β) (f : β → ℚ) {m : ℕ} (hm : m ≤ l.length) :
    ((l.take m).map f).sum = ∑ i ∈ range m, f (l[i]?.getD d) := by
  induction m with
  | zero => simp
  | succ m ih =>
    have hm' : m < l.length := by omega
    rw [List.take_add_one, List.getElem?_eq_getElem hm', List.map_append, List.sum_append,
      ih (by omega), Finset.sum_range_succ]
    simp [List.getElem?_eq_getElem hm']

namespace Reference.Tableau

variable {P : StandardForm ℚ}

theorem length_ofProblem_row (hP : P.Shaped) {i : ℕ} (hi : i < P.numConstraints) :
    (P.constraints.rows.getD i []).length = P.numColumns := by
  have hi' : i < P.constraints.rows.length := by rw [hP.constraints.length_rows]; exact hi
  rw [List.getD_eq_getElem _ _ hi']
  exact hP.constraints.length_getElem hi'

theorem get_ofProblem (hP : P.Shaped) {i j : ℕ} (hi : i < P.numConstraints)
    (hj : j ≤ P.numColumns + P.numConstraints) :
    (ofProblem P).get i j =
      if j < P.numColumns then P.rowSign i * P.constraints.get i j
      else if j < P.numColumns + P.numConstraints then if j = P.numColumns + i then 1 else 0
      else P.rowSign i * P.rhs.getD i 0 := by
  have hrow := length_ofProblem_row hP hi
  rw [List.getD_eq_getElem?_getD] at hrow
  simp only [get, ofProblem, Matrix.get, List.getD_eq_getElem?_getD, Scalar.lt_rat, Scalar.neg_rat,
    Scalar.one_rat, Scalar.mul_rat, Scalar.zero_rat]
  rw [List.getElem?_append_left (by simpa using hi), List.getElem?_map, List.getElem?_range hi,
    Option.map_some, Option.getD_some]
  have hsign : (if P.rhs[i]?.getD 0 < 0 then -1 else 1 : ℚ) = P.rowSign i := by
    simp [StandardForm.rowSign, List.getD_eq_getElem?_getD]
  rw [hsign]
  by_cases h1 : j < P.numColumns
  · -- the row of `A'`, signed
    rw [if_pos h1, List.append_assoc, List.getElem?_append_left (by simpa [hrow] using h1),
      List.getElem?_map, List.getElem?_eq_getElem (by omega)]
    simp
  by_cases h2 : j < P.numColumns + P.numConstraints
  · -- the artificial columns, a unit vector
    rw [if_neg h1, if_pos h2, List.getElem?_append_left (by simp [hrow]; omega),
      List.getElem?_append_right (by simp [hrow]; omega), List.getElem?_map, List.length_map, hrow,
      List.getElem?_range (by omega)]
    simp only [Option.map_some, Option.getD_some]
    by_cases hji : j = P.numColumns + i
    · simp [hji]
    · have hji' : j - P.numColumns ≠ i := by omega
      simp [hji, hji']
  · -- the right-hand side, signed
    have hjW : j = P.numColumns + P.numConstraints := by omega
    rw [if_neg h1, if_neg h2, List.getElem?_append_right (by simp [hrow]; omega)]
    simp [hrow, hjW]

theorem get_ofProblem_objective (j : ℕ) : (ofProblem P).get P.numConstraints j = 0 := by
  simp only [get, ofProblem, List.getD_eq_getElem?_getD, Scalar.zero_rat]
  rw [List.getElem?_append_right (by simp), List.length_map, List.length_range, Nat.sub_self]
  simp only [List.getElem?_singleton, if_true, Option.getD_some, List.getElem?_replicate]
  split_ifs <;> rfl

@[simp] theorem numRows_ofProblem : (ofProblem P).numRows = P.numConstraints := by
  simp [numRows, ofProblem]

@[simp] theorem numColumns_ofProblem : (ofProblem P).numColumns = P.numColumns := rfl

theorem basic_ofProblem {k : ℕ} (hk : k < P.numConstraints) :
    (ofProblem P).basic.getD k 0 = P.numColumns + k := by
  simp [ofProblem, List.getD_eq_getElem?_getD, hk]

theorem shaped_ofProblem (hP : P.Shaped) :
    (ofProblem P).Shaped (P.numColumns + P.numConstraints) P.numConstraints where
  length_rows := by simp [ofProblem]
  length_row row hrow := by
    simp only [ofProblem, List.mem_append, List.mem_map, List.mem_range,
      List.mem_singleton] at hrow
    rcases hrow with ⟨i, hi, rfl⟩ | rfl
    · have hrow := length_ofProblem_row hP hi
      rw [List.getD_eq_getElem?_getD] at hrow
      simp [hrow]
      omega
    · simp
  length_basic := by simp [ofProblem]

theorem canonical_ofProblem (hP : P.Shaped) :
    (ofProblem P).Canonical (P.numColumns + P.numConstraints) P.numConstraints
      ((ofProblem P).Solves (P.numColumns + P.numConstraints)) (fun _ => 0) where
  shaped := shaped_ofProblem hP
  basic_lt k hk := by
    rw [basic_ofProblem hk]
    omega
  unit k hk i hi := by
    rw [basic_ofProblem hk]
    rcases Nat.lt_or_eq_of_le hi with hi | rfl
    · rw [get_ofProblem hP hi (by omega), if_neg (by omega), if_pos (by omega)]
      by_cases hik : i = k
      · simp [hik]
      · simp [hik, Ne.symm hik]
    · rw [get_ofProblem_objective, if_neg (by omega)]
  rhs_nonneg i hi := by
    rw [get_ofProblem hP hi le_rfl, if_neg (by omega), if_neg (by omega)]
    exact StandardForm.rowSign_mul_rhs_nonneg i
  solves_iff _ := Iff.rfl
  value_eq z _ := by simp [value, rowDot, get_ofProblem_objective]

theorem solves_ofProblem_iff (hP : P.Shaped) {z : ℕ → ℚ}
    (hz : ∀ j, P.numColumns ≤ j → j < P.numColumns + P.numConstraints → z j = 0) :
    (ofProblem P).Solves (P.numColumns + P.numConstraints) z ↔
      P.constraintMatrix *ᵥ (fun j : Fin P.numColumns => z j) = P.rhsVector := by
  -- each row is its row of `A'` times the sign, the artificial part contributing nothing
  have hrow (i : ℕ) (hi : i < P.numConstraints) :
      (ofProblem P).rowDot (P.numColumns + P.numConstraints) i z =
        P.rowSign i * (P.constraintMatrix *ᵥ fun j : Fin P.numColumns => z j) ⟨i, hi⟩ := by
    have hart : ∑ x ∈ range P.numConstraints,
        (ofProblem P).get i (P.numColumns + x) * z (P.numColumns + x) = 0 := by
      refine Finset.sum_eq_zero fun x hx => ?_
      rw [hz _ (by omega) (by simp at hx; omega), mul_zero]
    rw [rowDot, Finset.sum_range_add, hart, add_zero, mulVec, dotProduct, Finset.mul_sum,
      ← Fin.sum_univ_eq_sum_range]
    refine Finset.sum_congr rfl fun j _ => ?_
    rw [get_ofProblem hP hi (by omega), if_pos j.2]
    simp [StandardForm.constraintMatrix]
    ring
  have hrhs (i : ℕ) (hi : i < P.numConstraints) :
      (ofProblem P).get i (P.numColumns + P.numConstraints) =
        P.rowSign i * P.rhsVector ⟨i, hi⟩ := by
    rw [get_ofProblem hP hi le_rfl, if_neg (by omega), if_neg (by omega)]
    simp [StandardForm.rhsVector, List.getD_eq_getElem?_getD]
  constructor
  · intro h
    funext i
    have hi := h i (by simp)
    rw [hrow i i.2, hrhs i i.2] at hi
    exact mul_left_cancel₀ (StandardForm.rowSign_ne_zero i) hi
  · intro h i hi
    rw [numRows_ofProblem] at hi
    rw [hrow i hi, hrhs i hi, h]

section Feasible

variable {t : Tableau ℚ} {cost : ℕ → ℚ}

theorem Canonical.solves_realPoint (hP : P.Shaped)
    (h : t.Canonical (P.numColumns + P.numConstraints) P.numConstraints
      ((ofProblem P).Solves (P.numColumns + P.numConstraints)) cost)
    {y : Fin P.numColumns → ℚ} (hy : P.constraintMatrix *ᵥ y = P.rhsVector) :
    t.Solves (P.numColumns + P.numConstraints) (P.realPoint y) := by
  refine (h.solves_iff _).mpr ((solves_ofProblem_iff hP fun j hj _ => ?_).mpr ?_)
  · exact StandardForm.realPoint_of_le y hj
  · rwa [StandardForm.realPoint_fin]

theorem Canonical.feasible_of_solves (hP : P.Shaped)
    (h : t.Canonical (P.numColumns + P.numConstraints) P.numConstraints
      ((ofProblem P).Solves (P.numColumns + P.numConstraints)) cost)
    {z : ℕ → ℚ} (hz0 : ∀ j, 0 ≤ z j) (hz : t.Solves (P.numColumns + P.numConstraints) z)
    (hart : ∀ j, P.numColumns ≤ j → j < P.numColumns + P.numConstraints → z j = 0) :
    P.Feasible fun j => z j :=
  ⟨fun j => hz0 j, (solves_ofProblem_iff hP hart).mp ((h.solves_iff z).mp hz)⟩

end Feasible

section Objective

variable {t : Tableau ℚ} {W m : ℕ} {o : List ℚ}

@[simp] theorem numRows_withObjective : (Method.withObjective t o).numRows = t.numRows := rfl

@[simp] theorem basic_withObjective : (Method.withObjective t o).basic = t.basic := rfl

theorem get_withObjective (hs : t.Shaped W m) (i j : ℕ) :
    (Method.withObjective t o).get i j = if i = m then o[j]?.getD 0 else t.get i j := by
  have hm : m < t.rows.length := by rw [hs.length_rows]; omega
  simp only [get, Method.withObjective, List.getD_eq_getElem?_getD, List.getElem?_set,
    hs.numRows, hm, if_true]
  by_cases hi : i = m
  · simp [hi]
  · simp [hi, Ne.symm hi]

theorem Shaped.withObjective (hs : t.Shaped W m) (ho : o.length = W + 1) :
    (Method.withObjective t o).Shaped W m where
  length_rows := by simp [Method.withObjective, hs.length_rows]
  length_row row hrow := by
    obtain ⟨i, hi, rfl⟩ := List.getElem_of_mem hrow
    simp only [Method.withObjective, List.getElem_set]
    split_ifs
    · exact ho
    · exact hs.length_row _ (List.getElem_mem _)
  length_basic := hs.length_basic

theorem solves_withObjective_iff (hs : t.Shaped W m) {z : ℕ → ℚ} :
    (Method.withObjective t o).Solves W z ↔ t.Solves W z := by
  have hrow (i : ℕ) (hi : i < m) : (Method.withObjective t o).rowDot W i z = t.rowDot W i z :=
    Finset.sum_congr rfl fun j _ => by rw [get_withObjective hs, if_neg hi.ne]
  simp only [Solves, numRows_withObjective, hs.numRows]
  refine forall₂_congr fun i hi => ?_
  rw [hrow i hi, get_withObjective hs, if_neg hi.ne]

variable {sys : (ℕ → ℚ) → Prop} {cost cost' : ℕ → ℚ}

theorem Canonical.withObjective (h : t.Canonical W m sys cost) (ho : o.length = W + 1)
    (hbasic : ∀ k < m, o[t.basic.getD k 0]?.getD 0 = 0)
    (hval : ∀ z, t.Solves W z →
      ∑ j ∈ range W, o[j]?.getD 0 * z j - o[W]?.getD 0 = ∑ j ∈ range W, cost' j * z j) :
    (Method.withObjective t o).Canonical W m sys cost' where
  shaped := h.shaped.withObjective ho
  basic_lt := h.basic_lt
  unit k hk i hi := by
    rw [basic_withObjective, get_withObjective h.shaped]
    by_cases him : i = m
    · rw [if_pos him, hbasic k hk, if_neg (by omega)]
    · rw [if_neg him]
      exact h.unit k hk i hi
  rhs_nonneg i hi := by
    rw [get_withObjective h.shaped, if_neg hi.ne]
    exact h.rhs_nonneg i hi
  solves_iff z := (solves_withObjective_iff h.shaped).trans (h.solves_iff z)
  value_eq z hz := by
    have hz' := (solves_withObjective_iff h.shaped).mp hz
    rw [← hval z hz', value, numRows_withObjective, h.shaped.numRows, get_withObjective h.shaped,
      if_pos rfl]
    congr 1
    exact Finset.sum_congr rfl fun j _ => by rw [get_withObjective h.shaped, if_pos rfl]

theorem Canonical.withPricedObjective (h : t.Canonical W m sys cost) (c w : ℕ → ℚ)
    (ho : o.length = W + 1) (hentry : ∀ j ≤ W, o[j]?.getD 0 = c j - ∑ i ∈ range m, w i * t.get i j)
    (hcW : c W = 0) (hw : ∀ k < m, w k = c (t.basic.getD k 0)) :
    (Method.withObjective t o).Canonical W m sys c := by
  refine h.withObjective ho (fun k hk => ?_) (fun z hz => ?_)
  · -- the basic column of row `k` is the unit vector of that row
    have hsum : ∑ i ∈ range m, w i * t.get i (t.basic.getD k 0) = w k := by
      rw [Finset.sum_congr rfl fun i hi => by
        rw [h.unit k hk i (Finset.mem_range.mp hi).le, mul_ite, mul_one, mul_zero]]
      simp [hk]
    rw [hentry _ (h.basic_lt k hk).le, hsum, hw k hk, sub_self]
  · -- on a solution each row applied to `z` is its right-hand side
    have hrows : ∑ i ∈ range m, w i * t.rowDot W i z = ∑ i ∈ range m, w i * t.get i W :=
      Finset.sum_congr rfl fun i hi => by rw [hz i (by simpa [h.shaped.numRows] using hi)]
    calc ∑ j ∈ range W, o[j]?.getD 0 * z j - o[W]?.getD 0
        = ∑ j ∈ range W, (c j - ∑ i ∈ range m, w i * t.get i j) * z j -
            (c W - ∑ i ∈ range m, w i * t.get i W) := by
          rw [hentry W le_rfl]
          congr 1
          exact Finset.sum_congr rfl fun j hj => by rw [hentry j (Finset.mem_range.mp hj).le]
      _ = ∑ j ∈ range W, c j * z j - ∑ i ∈ range m, w i * t.rowDot W i z +
            ∑ i ∈ range m, w i * t.get i W := by
          simp only [sub_mul, Finset.sum_sub_distrib, Finset.sum_mul, rowDot, Finset.mul_sum,
            hcW]
          rw [Finset.sum_comm]
          simp only [mul_assoc]
          ring
      _ = ∑ j ∈ range W, c j * z j := by rw [hrows]; ring

end Objective

section PhaseOne

variable {t : Tableau ℚ} {W m : ℕ}

theorem phaseOneObjective_spec (hs : t.Shaped W m) :
    (Method.phaseOneObjective t).length = W + 1 ∧ ∀ j ≤ W,
      (Method.phaseOneObjective t)[j]?.getD 0 =
        (if t.numColumns ≤ j ∧ j < t.numColumns + m then 1 else 0) -
          ∑ i ∈ range m, 1 * t.get i j := by
  have hwidth : t.width = W + 1 := hs.length_getD (Nat.zero_le m)
  have hrows (r : List ℚ) (hr : r ∈ t.rows.take m) : r.length = W + 1 :=
    hs.length_row r (List.mem_of_mem_take hr)
  obtain ⟨hl, hg⟩ := foldl_additive (n := W + 1) (fun o r => List.zipWith (· - ·) o r)
    (fun r j => -(r[j]?.getD 0)) (t.rows.take m)
    (fun acc r hr hacc => by simp [hacc, hrows r hr])
    (fun acc r hr hacc j hj => by
      have hjr : j < r.length := by rw [hrows r hr]; exact hj
      simp [List.getElem?_zipWith, List.getElem?_eq_getElem (hacc ▸ hj),
        List.getElem?_eq_getElem hjr, sub_eq_add_neg])
    ((List.range t.width).map fun j =>
      if t.numColumns ≤ j ∧ j < t.numColumns + t.numRows then 1 else 0)
    (by simp [hwidth])
  unfold Method.phaseOneObjective
  rw [hs.numRows] at hl hg ⊢
  refine ⟨hl, fun j hj => ?_⟩
  rw [hg j (by omega), sum_map_take _ [] _ (by rw [hs.length_rows]; omega), List.getElem?_map,
    List.getElem?_range (by omega)]
  simp [get, List.getD_eq_getElem?_getD, sub_eq_add_neg]

end PhaseOne

/-- Every constraint row whose basic column is artificial, at `N` or past it, is zero on the
real columns and on the right-hand side: a redundant row. -/
def RedundantArtificials (t : Tableau ℚ) (N W m : ℕ) : Prop :=
  ∀ k < m, N ≤ t.basic.getD k 0 → (∀ j < N, t.get k j = 0) ∧ t.get k W = 0

/-- What driving out has kept after the first `n` rows: the canonical form, the real columns,
every artificial basic column at zero, and the rows it has passed that kept their artificial
column zero on the real columns. -/
structure DrivenOut (t : Tableau ℚ) (N W m n : ℕ) (sys : (ℕ → ℚ) → Prop) (cost : ℕ → ℚ) :
    Prop where
  canonical : t.Canonical W m sys cost
  numColumns : t.numColumns = N
  artificial_zero : ∀ k < m, N ≤ t.basic.getD k 0 → t.get k W = 0
  redundant : ∀ k < n, N ≤ t.basic.getD k 0 → ∀ j < N, t.get k j = 0

end Reference.Tableau

namespace Reference

open Tableau

variable {P : StandardForm ℚ}

/-- What phase one at tolerance zero leaves from the first tableau: the canonical form for the
artificial costs, never an unbounded end, infeasible only when `A' y = b` has no solution
`y ≥ 0`, and, when optimal, every artificial column still basic at zero. -/
structure PhaseOneEnds (P : StandardForm ℚ) (res : PhaseEnd × Tableau ℚ) : Prop where
  canonical : res.2.Canonical (P.numColumns + P.numConstraints) P.numConstraints
    ((ofProblem P).Solves (P.numColumns + P.numConstraints)) P.artificialCost
  numColumns : res.2.numColumns = P.numColumns
  not_unbounded : res.1 ≠ .unbounded
  infeasible : res.1 = .infeasible → ¬∃ y, P.Feasible y
  artificial_zero : res.1 = .optimal → ∀ k < P.numConstraints,
    P.numColumns ≤ res.2.basic.getD k 0 → res.2.get k (P.numColumns + P.numConstraints) = 0

theorem canonical_phaseOneStart (hP : P.Shaped) :
    (Method.withObjective (ofProblem P) (Method.phaseOneObjective (ofProblem P))).Canonical
      (P.numColumns + P.numConstraints) P.numConstraints
      ((ofProblem P).Solves (P.numColumns + P.numConstraints)) P.artificialCost := by
  obtain ⟨hl, hg⟩ := phaseOneObjective_spec (shaped_ofProblem hP)
  refine (canonical_ofProblem hP).withPricedObjective P.artificialCost (fun _ => 1) hl
    (fun j hj => by rw [hg j hj]; rfl) (by simp [StandardForm.artificialCost]) fun k hk => ?_
  rw [basic_ofProblem hk]
  simp [StandardForm.artificialCost, hk]

namespace Method

variable (s : Method ℚ)

theorem phaseOne_ends (hs0 : s.tolerance = 0) (hP : P.Shaped) :
    PhaseOneEnds P (s.phaseOne (ofProblem P)) := by
  have hstep : ∀ (t : Tableau ℚ) (r c k : ℕ), (t.Canonical (P.numColumns + P.numConstraints) P.numConstraints
        ((ofProblem P).Solves (P.numColumns + P.numConstraints)) P.artificialCost ∧
        t.numColumns = P.numColumns) →
      t.enteringColumn s.tolerance (P.numColumns + P.numConstraints) = some c →
      t.leavingRow s.tolerance c = some r →
      (({ t.pivot r c with iterations := k } : Tableau ℚ).Canonical
        (P.numColumns + P.numConstraints) P.numConstraints
        ((ofProblem P).Solves (P.numColumns + P.numConstraints)) P.artificialCost ∧
        ({ t.pivot r c with iterations := k } : Tableau ℚ).numColumns = P.numColumns) := by
    rintro t r c k ⟨ht, hN⟩ he hl
    rw [hs0] at he hl
    exact ⟨(ht.pivot_bland le_rfl he hl).setIterations k, hN⟩
  have hph := runPhase_ends _ hstep ⟨canonical_phaseOneStart hP, rfl⟩
  unfold phaseOne
  simp only [numColumns_ofProblem, numRows_ofProblem]
  generalize s.runPhase _ _ = res at hph ⊢
  obtain ⟨e, t2⟩ := res
  obtain ⟨⟨hcan, hN⟩, hopt, hunb, hninf⟩ := hph
  dsimp only at hcan hN hopt hunb hninf ⊢
  rw [hs0] at hopt hunb
  rw [hs0, hcan.shaped.rhsColumn]
  simp only [zero_mul, Scalar.lt_rat, Scalar.neg_rat]
  -- phase one cannot end unbounded: the artificial costs are never negative
  have hnot_unb : e ≠ .unbounded := by
    intro he
    obtain ⟨c, hc, hl⟩ := hunb he
    obtain ⟨hcW, hneg⟩ := enteringColumn_eq_some hc
    have hcol := leavingRow_eq_none hl
    rw [hcan.shaped.numRows] at hneg hcol
    exact hcan.not_ray_of_cost_nonneg StandardForm.artificialCost_nonneg hcW hneg hcol
  split_ifs with hne hinf
  · exact ⟨hcan, hN, hnot_unb, fun he => absurd he hninf, fun he => absurd he hne⟩
  · -- a feasible `y` would give the artificial costs the value zero, below the optimum
    refine ⟨hcan, hN, PhaseEnd.noConfusion, fun _ => ?_, PhaseEnd.noConfusion⟩
    rintro ⟨y, hy0, hy⟩
    have hzart : ∀ j, P.numColumns ≤ j → j < P.numColumns + P.numConstraints →
        P.realPoint y j = 0 := fun j hj _ => StandardForm.realPoint_of_le y hj
    have hz := hcan.solves_realPoint hP hy
    have hobj := enteringColumn_eq_none (hopt (not_not.mp hne))
    rw [hcan.shaped.numRows] at hobj
    have hge := hcan.value_ge hobj (fun j _ => StandardForm.realPoint_nonneg hy0 j)
      (fun j h1 h2 => absurd h2 (not_lt.mpr h1))
    rw [hcan.value_eq _ hz, StandardForm.sum_artificialCost_eq_zero hzart] at hge
    linarith
  · -- at the optimum the artificial costs are zero, so each artificial basic column is too
    refine ⟨hcan, hN, PhaseEnd.noConfusion, PhaseEnd.noConfusion, fun _ k hk hNk => ?_⟩
    dsimp only at hNk ⊢
    have hle := hcan.cost_mul_rhs_le StandardForm.artificialCost_nonneg hk
    rw [StandardForm.artificialCost, if_pos ⟨hNk, hcan.basic_lt k hk⟩, one_mul] at hle
    linarith [hcan.rhs_nonneg k hk]

variable {t : Tableau ℚ} {N W m : ℕ} {sys : (ℕ → ℚ) → Prop} {cost : ℕ → ℚ}

theorem driveOutRow_drivenOut (hs0 : s.tolerance = 0) (hNW : N ≤ W) {k : ℕ} (hk : k < m)
    (h : t.DrivenOut N W m k sys cost) : (s.driveOutRow t k).DrivenOut N W m (k + 1) sys cost := by
  have hs := h.canonical.shaped
  unfold driveOutRow
  split_ifs with hreal
  · refine ⟨h.canonical, h.numColumns, h.artificial_zero, fun k' hk' hNk' => ?_⟩
    rcases Nat.lt_succ_iff_lt_or_eq.mp hk' with hk' | rfl
    · exact h.redundant k' hk' hNk'
    · rw [h.numColumns] at hreal
      omega
  have hart : N ≤ t.basic.getD k 0 := by rw [h.numColumns] at hreal; omega
  split
  next col hfind =>
    rw [List.find?_eq_some_iff_append] at hfind
    obtain ⟨hpos, as, bs, hrange, -⟩ := hfind
    have hcolN : col < N := by
      have hmem : col ∈ List.range t.numColumns := by rw [hrange]; simp
      rw [List.mem_range, h.numColumns] at hmem
      exact hmem
    rw [hs0] at hpos
    simp only [Scalar.lt_rat, Scalar.abs_rat, decide_eq_true_eq] at hpos
    have hp : t.get k col ≠ 0 := abs_pos.mp hpos
    -- the pivot row's right-hand side is zero, so the step is zero and no right-hand side moves
    have hθ : t.get k W / t.get k col = 0 := by rw [h.artificial_zero k hk hart, zero_div]
    have hcan := h.canonical.pivot hk (by omega) hp hθ.ge fun i hi => by
      rw [hθ, mul_zero]
      exact h.canonical.rhs_nonneg i hi
    have hbasic (k' : ℕ) (hk' : k' < m) (hNk' : N ≤ (t.pivot k col).basic.getD k' 0) :
        k' ≠ k ∧ N ≤ t.basic.getD k' 0 := by
      rw [getD_basic_pivot hs col hk] at hNk'
      split_ifs at hNk' with hkk
      · omega
      · exact ⟨hkk, hNk'⟩
    refine ⟨hcan, h.numColumns, fun k' hk' hNk' => ?_, fun k' hk' hNk' j hj => ?_⟩
    · obtain ⟨hkk, hNk'⟩ := hbasic k' hk' hNk'
      rw [get_pivot hs col hk.le hk'.le le_rfl, if_neg hkk, hθ, mul_zero, sub_zero]
      exact h.artificial_zero k' hk' hNk'
    · -- a row passed before: zero on the real columns, the pivot column among them
      have hk'm : k' < m := by omega
      obtain ⟨hkk, hNk'⟩ := hbasic k' hk'm hNk'
      have hk'k : k' < k := by omega
      rw [get_pivot hs col hk.le hk'm.le (by omega), if_neg hkk, h.redundant k' hk'k hNk' j hj,
        h.redundant k' hk'k hNk' col hcolN, zero_mul, sub_zero]
  next hfind =>
    refine ⟨h.canonical, h.numColumns, h.artificial_zero, fun k' hk' hNk' j hj => ?_⟩
    rcases Nat.lt_succ_iff_lt_or_eq.mp hk' with hk' | rfl
    · exact h.redundant k' hk' hNk' j hj
    · -- no real column has a non-zero entry in this row
      rw [List.find?_eq_none] at hfind
      have hj' := hfind j (by rw [List.mem_range, h.numColumns]; exact hj)
      rw [hs0] at hj'
      simpa using hj'

theorem driveOut_prefix (hs0 : s.tolerance = 0) (hNW : N ≤ W)
    (h : t.Canonical W m sys cost) (hN : t.numColumns = N)
    (hzero : ∀ k < m, N ≤ t.basic.getD k 0 → t.get k W = 0) {n : ℕ} (hn : n ≤ m) :
    ((List.range n).foldl s.driveOutRow t).DrivenOut N W m n sys cost :=
  foldl_range_invariant (fun n t' => t'.DrivenOut N W m n sys cost) s.driveOutRow n
    ⟨h, hN, hzero, fun k hk => absurd hk (Nat.not_lt_zero k)⟩
    fun k hk _ ht' => driveOutRow_drivenOut s hs0 hNW (by omega) ht'

theorem driveOut_redundant (hs0 : s.tolerance = 0) (hNW : N ≤ W)
    (h : t.Canonical W m sys cost) (hN : t.numColumns = N)
    (hzero : ∀ k < m, N ≤ t.basic.getD k 0 → t.get k W = 0) :
    (s.driveOut t).Canonical W m sys cost ∧ (s.driveOut t).numColumns = N ∧
      (s.driveOut t).RedundantArtificials N W m := by
  have hfold := s.driveOut_prefix hs0 hNW h hN hzero le_rfl
  unfold driveOut
  rw [h.shaped.numRows]
  exact ⟨hfold.canonical, hfold.numColumns,
    fun k hk hNk => ⟨hfold.redundant k hk hNk, hfold.artificial_zero k hk hNk⟩⟩

end Method

end Reference

end RevisedSimplex
