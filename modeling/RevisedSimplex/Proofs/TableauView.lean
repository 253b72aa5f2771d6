import Mathlib
import RevisedSimplex.Proofs.Exact
import RevisedSimplex.Reference.Method

/-! # The tableau as a linear system

Over the rationals a tableau with `m` constraint rows and `W` columns, the right-hand side in
column `W`, stands for the system `∑ j < W, T i j * z j = T i W` (`Tableau.Solves`), and its
objective row, row `m`, for the value `∑ j < W, o j * z j - o W` (`Tableau.value`). A pivot on a
non-zero entry keeps the solutions of the system and, on them, the value of the objective row;
it makes the entering column the unit vector of its row and keeps the other basic columns.
-/

open Finset

namespace RevisedSimplex.Reference.Tableau

variable (t : Tableau ℚ) (W : ℕ)

/-- Row `i` times `z` over the first `W` columns. -/
def rowDot (i : ℕ) (z : ℕ → ℚ) : ℚ := ∑ j ∈ range W, t.get i j * z j

def Solves (z : ℕ → ℚ) : Prop := ∀ i < t.numRows, t.rowDot W i z = t.get i W

def value (z : ℕ → ℚ) : ℚ := t.rowDot W t.numRows z - t.get t.numRows W

/-- `m` constraint rows and the objective row, each of `W + 1` entries, and `m` basic columns. -/
structure Shaped (m : ℕ) : Prop where
  length_rows : t.rows.length = m + 1
  length_row : ∀ row ∈ t.rows, row.length = W + 1
  length_basic : t.basic.length = m

/-- The canonical form the two phases keep, for the system `sys` and the costs `cost`: basic
column `k` is the unit vector of row `k` (its objective entry zero), the right-hand side is
non-negative, the rows have the solutions of `sys`, and on them the objective row gives the
cost. -/
structure Canonical (m : ℕ) (sys : (ℕ → ℚ) → Prop) (cost : ℕ → ℚ) : Prop where
  shaped : t.Shaped W m
  basic_lt : ∀ k < m, t.basic.getD k 0 < W
  unit : ∀ k < m, ∀ i ≤ m, t.get i (t.basic.getD k 0) = if i = k then 1 else 0
  rhs_nonneg : ∀ i < m, 0 ≤ t.get i W
  solves_iff : ∀ z, t.Solves W z ↔ sys z
  value_eq : ∀ z, t.Solves W z → t.value W z = ∑ j ∈ range W, cost j * z j

/-- The vector with `w k` at the basic column of row `k`, for the first `m` rows. -/
def onBasis (m : ℕ) (w : ℕ → ℚ) (j : ℕ) : ℚ :=
  ∑ k ∈ range m, if t.basic.getD k 0 = j then w k else 0

/-- The basic point: each basic column at the right-hand side of its row, the rest zero. -/
def basicPoint (m : ℕ) : ℕ → ℚ := t.onBasis m fun k => t.get k W

/-- The basic point moved by `s` along column `c`: column `c` raised to `s`, each basic column
lowered by `s` times its row's entry in `c`. -/
def ray (m c : ℕ) (s : ℚ) (j : ℕ) : ℚ :=
  t.onBasis m (fun k => t.get k W - s * t.get k c) j + if j = c then s else 0

variable {t W}

theorem Shaped.numRows {m : ℕ} (hs : t.Shaped W m) : t.numRows = m := hs.length_basic

theorem Shaped.length_getD {m : ℕ} (hs : t.Shaped W m) {i : ℕ} (hi : i ≤ m) :
    (t.rows.getD i []).length = W + 1 := by
  have hi' : i < t.rows.length := by rw [hs.length_rows]; omega
  rw [List.getD_eq_getElem _ _ hi']
  exact hs.length_row _ (List.getElem_mem hi')

theorem get_pivot {m : ℕ} (hs : t.Shaped W m) {r i j : ℕ} (c : ℕ) (hr : r ≤ m) (hi : i ≤ m)
    (hj : j ≤ W) :
    (t.pivot r c).get i j =
      if i = r then t.get r j / t.get r c
      else t.get i j - t.get i c * (t.get r j / t.get r c) := by
  have hi' : i < t.rows.length := by rw [hs.length_rows]; omega
  have hjr : j < (t.rows.getD r []).length := by rw [hs.length_getD hr]; omega
  have hji : j < (t.rows.getD i []).length := by rw [hs.length_getD hi]; omega
  have hrows : (t.pivot r c).rows.getD i [] =
      if i = r then (t.rows.getD r []).map (· / t.get r c)
      else if (t.rows.getD i []).getD c 0 == 0 then t.rows.getD i []
      else subScaled (t.rows.getD i []) ((t.rows.getD i []).getD c 0)
        ((t.rows.getD r []).map (· / t.get r c)) := by
    simp only [pivot]
    rw [List.getD_eq_getElem _ _ (by simpa using hi'), List.getD_eq_getElem _ _ hi']
    simp
  have hprow : ((t.rows.getD r []).map (· / t.get r c))[j]?.getD 0 = t.get r j / t.get r c := by
    rw [List.getElem?_map, List.getElem?_eq_getElem hjr, Option.map_some, Option.getD_some]
    unfold get
    rw [List.getD_eq_getElem _ _ hjr]
  rw [get, hrows]
  split_ifs with hir hf
  · rw [List.getD_eq_getElem?_getD, hprow]
  · simp only [beq_iff_eq] at hf
    rw [show t.get i c = 0 from hf, zero_mul, sub_zero]
    rfl
  · rw [List.getD_eq_getElem?_getD, getD_subScaled _ hji (by simpa using hjr), hprow]
    simp [get, List.getD_eq_getElem?_getD]

@[simp] theorem numRows_pivot (r c : ℕ) : (t.pivot r c).numRows = t.numRows := by
  simp [pivot, numRows]

theorem getD_basic_pivot {m : ℕ} (hs : t.Shaped W m) {r : ℕ} (c : ℕ) (hr : r < m) (k : ℕ) :
    (t.pivot r c).basic.getD k 0 = if k = r then c else t.basic.getD k 0 := by
  have hr' : r < t.basic.length := hs.length_basic ▸ hr
  simp only [pivot, List.getD_eq_getElem?_getD, List.getElem?_set, hr', if_true]
  by_cases hkr : k = r
  · simp [hkr]
  · simp [Ne.symm hkr, hkr]

theorem Shaped.pivot {m : ℕ} (hs : t.Shaped W m) {r : ℕ} (c : ℕ) (hr : r ≤ m) :
    (t.pivot r c).Shaped W m where
  length_rows := by simp [Tableau.pivot, hs.length_rows]
  length_row row hrow := by
    simp only [Tableau.pivot, List.mem_map] at hrow
    obtain ⟨⟨x, i⟩, hxi, rfl⟩ := hrow
    have hx : x.length = W + 1 := hs.length_row x (List.fst_mem_of_mem_zipIdx hxi)
    have hR : (t.rows[r]?.getD []).length = W + 1 := by
      rw [← List.getD_eq_getElem?_getD]
      exact hs.length_getD hr
    dsimp only
    split_ifs <;> simp [hx, hR]
  length_basic := by simp [Tableau.pivot, hs.length_basic]

theorem rowDot_pivot {m : ℕ} (hs : t.Shaped W m) {r i : ℕ} (c : ℕ) (hr : r ≤ m) (hi : i ≤ m)
    (z : ℕ → ℚ) :
    (t.pivot r c).rowDot W i z =
      if i = r then t.rowDot W r z / t.get r c
      else t.rowDot W i z - t.get i c * (t.rowDot W r z / t.get r c) := by
  unfold rowDot
  split_ifs with hir
  · rw [Finset.sum_div]
    refine Finset.sum_congr rfl fun j hj => ?_
    rw [get_pivot hs c hr hi (Finset.mem_range.mp hj).le, if_pos hir]
    ring
  · rw [Finset.sum_div, Finset.mul_sum, ← Finset.sum_sub_distrib]
    refine Finset.sum_congr rfl fun j hj => ?_
    rw [get_pivot hs c hr hi (Finset.mem_range.mp hj).le, if_neg hir]
    ring

theorem solves_pivot_iff {m : ℕ} (hs : t.Shaped W m) {r c : ℕ} (hr : r < m) (hp : t.get r c ≠ 0)
    {z : ℕ → ℚ} : (t.pivot r c).Solves W z ↔ t.Solves W z := by
  simp only [Solves, numRows_pivot, hs.numRows]
  constructor
  · intro h i hi
    have hrz : t.rowDot W r z = t.get r W := by
      have hrow := h r hr
      rw [rowDot_pivot hs c hr.le hr.le, if_pos rfl, get_pivot hs c hr.le hr.le le_rfl,
        if_pos rfl] at hrow
      exact (div_left_inj' hp).mp hrow
    by_cases hir : i = r
    · rw [hir]
      exact hrz
    · have hrow := h i hi
      rw [rowDot_pivot hs c hr.le hi.le, if_neg hir, get_pivot hs c hr.le hi.le le_rfl,
        if_neg hir, hrz] at hrow
      linarith
  · intro h i hi
    rw [rowDot_pivot hs c hr.le hi.le, get_pivot hs c hr.le hi.le le_rfl, h r hr, h i hi]

theorem value_pivot {m : ℕ} (hs : t.Shaped W m) {r : ℕ} (c : ℕ) (hr : r < m) {z : ℕ → ℚ}
    (hz : t.Solves W z) : (t.pivot r c).value W z = t.value W z := by
  have hrz : t.rowDot W r z = t.get r W := hz r (hs.numRows ▸ hr)
  simp only [value, numRows_pivot, hs.numRows]
  rw [rowDot_pivot hs c hr.le le_rfl, get_pivot hs c hr.le le_rfl le_rfl, if_neg hr.ne',
    if_neg hr.ne', hrz]
  ring

section Canonical

variable {m : ℕ} {sys : (ℕ → ℚ) → Prop} {cost : ℕ → ℚ}

theorem Canonical.pivot (h : t.Canonical W m sys cost) {r c : ℕ} (hr : r < m) (hc : c < W)
    (hp : t.get r c ≠ 0) (hθ : 0 ≤ t.get r W / t.get r c)
    (hrows : ∀ i < m, t.get i c * (t.get r W / t.get r c) ≤ t.get i W) :
    (t.pivot r c).Canonical W m sys cost where
  shaped := h.shaped.pivot c hr.le
  basic_lt k hk := by
    rw [getD_basic_pivot h.shaped c hr]
    split_ifs
    · exact hc
    · exact h.basic_lt k hk
  unit k hk i hi := by
    rw [getD_basic_pivot h.shaped c hr]
    by_cases hkr : k = r
    · -- the entering column becomes the unit vector of the pivot row
      rw [if_pos hkr, hkr, get_pivot h.shaped c hr.le hi hc.le, div_self hp]
      by_cases hir : i = r <;> simp [hir]
    · -- another basic column is zero in the pivot row, so the pivot leaves it as it was
      have hrk : t.get r (t.basic.getD k 0) = 0 := by
        rw [h.unit k hk r hr.le, if_neg (Ne.symm hkr)]
      rw [if_neg hkr, get_pivot h.shaped _ hr.le hi (h.basic_lt k hk).le, hrk, zero_div, mul_zero,
        sub_zero, h.unit k hk i hi]
      by_cases hir : i = r
      · simp [hir, Ne.symm hkr]
      · simp [hir]
  rhs_nonneg i hi := by
    rw [get_pivot h.shaped c hr.le hi.le le_rfl]
    split_ifs with hir
    · exact hθ
    · linarith [hrows i hi]
  solves_iff z := (solves_pivot_iff h.shaped hr hp).trans (h.solves_iff z)
  value_eq z hz := by
    have hz' := (solves_pivot_iff h.shaped hr hp).mp hz
    rw [value_pivot h.shaped c hr hz', h.value_eq z hz']

theorem Canonical.setIterations (h : t.Canonical W m sys cost) (k : ℕ) :
    ({ t with iterations := k } : Tableau ℚ).Canonical W m sys cost :=
  ⟨⟨h.shaped.1, h.shaped.2, h.shaped.3⟩, h.basic_lt, h.unit, h.rhs_nonneg, h.solves_iff,
    h.value_eq⟩

theorem rowDot_onBasis_eq_sum (hb : ∀ k < m, t.basic.getD k 0 < W) (t' : Tableau ℚ) (i : ℕ)
    (w : ℕ → ℚ) :
    t'.rowDot W i (t.onBasis m w) = ∑ k ∈ range m, t'.get i (t.basic.getD k 0) * w k := by
  unfold rowDot onBasis
  simp_rw [Finset.mul_sum, mul_ite, mul_zero]
  rw [Finset.sum_comm]
  refine Finset.sum_congr rfl fun k hk => ?_
  rw [Finset.sum_ite_eq, if_pos (Finset.mem_range.mpr (hb k (by simpa using hk)))]

theorem Canonical.rowDot_onBasis (h : t.Canonical W m sys cost) (w : ℕ → ℚ) {i : ℕ} (hi : i ≤ m) :
    t.rowDot W i (t.onBasis m w) = if i < m then w i else 0 := by
  calc t.rowDot W i (t.onBasis m w)
      = ∑ k ∈ range m, t.get i (t.basic.getD k 0) * w k := rowDot_onBasis_eq_sum h.basic_lt t i w
    _ = ∑ k ∈ range m, if i = k then w k else 0 := by
        refine Finset.sum_congr rfl fun k hk => ?_
        rw [h.unit k (by simpa using hk) i hi]
        split_ifs <;> ring
    _ = if i < m then w i else 0 := by simp [Finset.sum_ite_eq]

theorem rowDot_add (i : ℕ) (z z' : ℕ → ℚ) :
    t.rowDot W i (fun j => z j + z' j) = t.rowDot W i z + t.rowDot W i z' := by
  simp [rowDot, mul_add, Finset.sum_add_distrib]

theorem rowDot_single (i : ℕ) {c : ℕ} (hc : c < W) (s : ℚ) :
    t.rowDot W i (fun j => if j = c then s else 0) = t.get i c * s := by
  simp [rowDot, hc]

theorem Canonical.solves_ray (h : t.Canonical W m sys cost) {c : ℕ} (hc : c < W) (s : ℚ) :
    t.Solves W (t.ray W m c s) := by
  intro i hi
  rw [h.shaped.numRows] at hi
  unfold ray
  rw [rowDot_add, h.rowDot_onBasis _ hi.le, if_pos hi, rowDot_single i hc]
  ring

theorem Canonical.value_ray (h : t.Canonical W m sys cost) {c : ℕ} (hc : c < W) (s : ℚ) :
    t.value W (t.ray W m c s) = t.get m c * s - t.get m W := by
  unfold ray
  rw [value, h.shaped.numRows, rowDot_add, h.rowDot_onBasis _ le_rfl, if_neg (lt_irrefl m),
    rowDot_single m hc, zero_add]

theorem Canonical.ray_nonneg (h : t.Canonical W m sys cost) {c : ℕ}
    (hcol : ∀ k < m, t.get k c ≤ 0) {s : ℚ} (hs : 0 ≤ s) (j : ℕ) : 0 ≤ t.ray W m c s j := by
  refine add_nonneg (Finset.sum_nonneg fun k hk => ?_) (by split_ifs <;> simp [hs])
  have hk' : k < m := Finset.mem_range.mp hk
  split_ifs
  · nlinarith [h.rhs_nonneg k hk', hcol k hk']
  · exact le_rfl

theorem Canonical.solves_basicPoint (h : t.Canonical W m sys cost) :
    t.Solves W (t.basicPoint W m) := by
  intro i hi
  rw [h.shaped.numRows] at hi
  rw [basicPoint, h.rowDot_onBasis _ hi.le, if_pos hi]

theorem Canonical.value_basicPoint (h : t.Canonical W m sys cost) :
    t.value W (t.basicPoint W m) = -t.get m W := by
  rw [value, h.shaped.numRows, basicPoint, h.rowDot_onBasis _ le_rfl, if_neg (lt_irrefl m),
    zero_sub]

theorem Canonical.onBasis_basic (h : t.Canonical W m sys cost) (w : ℕ → ℚ) {k : ℕ} (hk : k < m) :
    t.onBasis m w (t.basic.getD k 0) = w k := by
  unfold onBasis
  rw [Finset.sum_eq_single k]
  · simp
  · intro l hl hlk
    have hne : t.basic.getD l 0 ≠ t.basic.getD k 0 := by
      intro heq
      have h1 := h.unit k hk k hk.le
      rw [← heq, h.unit l (Finset.mem_range.mp hl) k hk.le, if_neg (Ne.symm hlk),
        if_pos rfl] at h1
      exact zero_ne_one h1
    rw [if_neg hne]
  · intro hk'
    exact absurd (Finset.mem_range.mpr hk) hk'

theorem Canonical.basicPoint_nonneg (h : t.Canonical W m sys cost) (j : ℕ) :
    0 ≤ t.basicPoint W m j := by
  unfold basicPoint onBasis
  refine Finset.sum_nonneg fun k hk => ?_
  split_ifs
  · exact h.rhs_nonneg k (Finset.mem_range.mp hk)
  · exact le_rfl

theorem Canonical.exists_value_ray_lt (h : t.Canonical W m sys cost) {c : ℕ} (hc : c < W)
    (hneg : t.get m c < 0) (M : ℚ) : ∃ s, 0 ≤ s ∧ t.value W (t.ray W m c s) < M := by
  obtain ⟨s, hs, hlt⟩ := exists_nonneg_add_mul_lt hneg (-t.get m W) M
  refine ⟨s, hs, ?_⟩
  rw [h.value_ray hc]
  linarith

theorem Canonical.value_ge (h : t.Canonical W m sys cost) {e : ℕ} (hobj : ∀ j < e, 0 ≤ t.get m j)
    {z : ℕ → ℚ} (hz : ∀ j < W, 0 ≤ z j) (hzero : ∀ j, e ≤ j → j < W → z j = 0) :
    -t.get m W ≤ t.value W z := by
  have hsum : 0 ≤ t.rowDot W m z := by
    refine Finset.sum_nonneg fun j hj => ?_
    have hjW : j < W := Finset.mem_range.mp hj
    by_cases hje : j < e
    · exact mul_nonneg (hobj j hje) (hz j hjW)
    · rw [hzero j (not_lt.mp hje) hjW, mul_zero]
  rw [value, h.shaped.numRows]
  linarith

theorem Canonical.not_ray_of_cost_nonneg (h : t.Canonical W m sys cost) (hcost : ∀ j, 0 ≤ cost j)
    {c : ℕ} (hc : c < W) (hneg : t.get m c < 0) (hcol : ∀ k < m, t.get k c ≤ 0) : False := by
  obtain ⟨s, hs, hlt⟩ := h.exists_value_ray_lt hc hneg 0
  have hnn : 0 ≤ ∑ j ∈ range W, cost j * t.ray W m c s j :=
    Finset.sum_nonneg fun j _ => mul_nonneg (hcost j) (h.ray_nonneg hcol hs j)
  rw [h.value_eq _ (h.solves_ray hc s)] at hlt
  linarith

theorem Canonical.cost_mul_rhs_le (h : t.Canonical W m sys cost) (hcost : ∀ j, 0 ≤ cost j)
    {k : ℕ} (hk : k < m) : cost (t.basic.getD k 0) * t.get k W ≤ -t.get m W := by
  have hterm : cost (t.basic.getD k 0) * t.basicPoint W m (t.basic.getD k 0) ≤
      ∑ j ∈ range W, cost j * t.basicPoint W m j :=
    Finset.single_le_sum (fun j _ => mul_nonneg (hcost j) (h.basicPoint_nonneg j))
      (Finset.mem_range.mpr (h.basic_lt k hk))
  rwa [← h.value_eq _ h.solves_basicPoint, h.value_basicPoint, basicPoint,
    h.onBasis_basic _ hk] at hterm

end Canonical

end RevisedSimplex.Reference.Tableau
