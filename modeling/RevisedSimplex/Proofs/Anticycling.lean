import Mathlib
import RevisedSimplex.Proofs.ReferenceCorrectness

/-! # Bland's rule does not cycle

At tolerance zero a phase pivots by Bland's rule: the entering column is the first with a
negative objective entry, and the leaving row has the least ratio and, among rows of that
ratio, the least basic column. Along such pivots from a canonical tableau no set of basic
columns comes back. A pivot never lowers the objective's right-hand side `T m W`, so on a
return it stays constant, every pivot in between has step zero, and the basic point stays put.
Of the columns that enter in between take the largest, `t`, entering at tableau `A`; it also
leaves, at tableau `B`, where a smaller column `s` enters. Priced by the objective row of `A`,
the edge of `s` from the basic point of `B` costs the objective entry of `s` in `B`, which is
negative; so some basic column `q` of `B` has a positive objective entry in `A` and a positive
entry in column `s` in `B`. Then `q` enters in between too, so `q < t`, and `q` sits at zero
like `t`: its row ties with `t`'s at ratio zero, and the rule would have picked it.

A phase therefore passes through at most `C(W, m)` bases of `m` rows among `W` columns, and two
phases make fewer than `2 C(W, m)` pivots: with a cap that large the method never stops at it.
-/

open Finset

namespace RevisedSimplex

namespace Reference

namespace Tableau

/-- One pivot by Bland's rule at tolerance zero among the first `e` columns, with the count of
pivots set to any `k`. -/
def BlandPivot (e : ℕ) (t t' : Tableau ℚ) : Prop :=
  ∃ c r k, t.enteringColumn 0 e = some c ∧ t.leavingRow 0 c = some r ∧
    t' = { t.pivot r c with iterations := k }

/-- Column `j` leaves `t` by Bland's rule among the first `e` columns: it is basic in the
leaving row. -/
def Leaves (e : ℕ) (t : Tableau ℚ) (j : ℕ) : Prop :=
  ∃ c r, t.enteringColumn 0 e = some c ∧ t.leavingRow 0 c = some r ∧ t.basic.getD r 0 = j

/-- `K` pivots by Bland's rule among the first `e ≤ W` columns, from the canonical tableau
`T 0`. -/
structure BlandChain (W m : ℕ) (sys : (ℕ → ℚ) → Prop) (cost : ℕ → ℚ) (e : ℕ)
    (T : ℕ → Tableau ℚ) (K : ℕ) : Prop where
  eligible : e ≤ W
  start : (T 0).Canonical W m sys cost
  step : ∀ k < K, BlandPivot e (T k) (T (k + 1))

/-- Tableau `b` of a run of `K` pivots comes back to the basic columns of an earlier tableau
`a`. -/
structure Returns (T : ℕ → Tableau ℚ) (K a b : ℕ) : Prop where
  lt : a < b
  le : b ≤ K
  mem_iff : ∀ j, j ∈ (T b).basic ↔ j ∈ (T a).basic

variable {t t' : Tableau ℚ} {W m e : ℕ} {sys : (ℕ → ℚ) → Prop} {cost : ℕ → ℚ}

section Canonical

theorem Canonical.mem_basic_iff (h : t.Canonical W m sys cost) {j : ℕ} :
    j ∈ t.basic ↔ ∃ k < m, t.basic.getD k 0 = j := by
  have hlen := h.shaped.length_basic
  constructor
  · intro hj
    obtain ⟨k, hk, rfl⟩ := List.getElem_of_mem hj
    exact ⟨k, by omega, List.getD_eq_getElem _ _ hk⟩
  · rintro ⟨k, hk, rfl⟩
    have hk' : k < t.basic.length := by omega
    rw [List.getD_eq_getElem _ _ hk']
    exact List.getElem_mem hk'

theorem Canonical.lt_of_mem_basic (h : t.Canonical W m sys cost) {j : ℕ} (hj : j ∈ t.basic) :
    j < W := by
  obtain ⟨k, hk, rfl⟩ := h.mem_basic_iff.mp hj
  exact h.basic_lt k hk

theorem Canonical.distinctColumns (h : t.Canonical W m sys cost) : DistinctColumns m W t.basic :=
  ⟨h.shaped.length_basic, h.basic_nodup, fun _ hj => h.lt_of_mem_basic hj⟩

theorem Canonical.getD_basic_inj (h : t.Canonical W m sys cost) {k k' : ℕ} (hk : k < m)
    (hk' : k' < m) (heq : t.basic.getD k 0 = t.basic.getD k' 0) : k = k' := by
  by_contra hne
  have h1 := h.unit k' hk' k hk.le
  rw [← heq, h.unit k hk k hk.le, if_pos rfl, if_neg hne] at h1
  exact one_ne_zero h1

theorem Canonical.objective_basic (h : t.Canonical W m sys cost) {j : ℕ} (hj : j ∈ t.basic) :
    t.get m j = 0 := by
  obtain ⟨k, hk, rfl⟩ := h.mem_basic_iff.mp hj
  rw [h.unit k hk m le_rfl, if_neg hk.ne']

theorem Canonical.entering_not_mem (h : t.Canonical W m sys cost) {c : ℕ}
    (he : t.enteringColumn 0 e = some c) : c ∉ t.basic := by
  intro hc
  have hneg := (enteringColumn_eq_some he).2
  rw [h.shaped.numRows, h.objective_basic hc] at hneg
  exact lt_irrefl 0 hneg

theorem Canonical.onBasis_of_not_mem (h : t.Canonical W m sys cost) (w : ℕ → ℚ) {j : ℕ}
    (hj : j ∉ t.basic) : t.onBasis m w j = 0 :=
  Finset.sum_eq_zero fun k hk =>
    if_neg fun hkj => hj (h.mem_basic_iff.mpr ⟨k, Finset.mem_range.mp hk, hkj⟩)

theorem Canonical.basicPoint_basic (h : t.Canonical W m sys cost) {k : ℕ} (hk : k < m) :
    t.basicPoint W m (t.basic.getD k 0) = t.get k W :=
  h.onBasis_basic _ hk

theorem Canonical.basicPoint_of_not_mem (h : t.Canonical W m sys cost) {j : ℕ}
    (hj : j ∉ t.basic) : t.basicPoint W m j = 0 :=
  h.onBasis_of_not_mem _ hj

theorem Canonical.onBasis_restrict (h : t.Canonical W m sys cost) {z : ℕ → ℚ}
    (hz : ∀ j, j ∉ t.basic → z j = 0) : t.onBasis m (fun k => z (t.basic.getD k 0)) = z := by
  funext j
  by_cases hj : j ∈ t.basic
  · obtain ⟨k, hk, rfl⟩ := h.mem_basic_iff.mp hj
    exact h.onBasis_basic _ hk
  · rw [h.onBasis_of_not_mem _ hj, hz j hj]

theorem Canonical.eq_basicPoint (h : t.Canonical W m sys cost) {z : ℕ → ℚ}
    (hsol : t.Solves W z) (hz : ∀ j, j ∉ t.basic → z j = 0) : z = t.basicPoint W m := by
  have hrow (k : ℕ) (hk : k < m) : z (t.basic.getD k 0) = t.get k W := by
    have hk' := hsol k (h.shaped.numRows ▸ hk)
    rwa [← h.onBasis_restrict hz, h.rowDot_onBasis _ hk.le, if_pos hk] at hk'
  calc z = t.onBasis m (fun k => z (t.basic.getD k 0)) := (h.onBasis_restrict hz).symm
    _ = t.basicPoint W m := by
      unfold basicPoint onBasis
      funext j
      refine Finset.sum_congr rfl fun k hk => ?_
      dsimp only
      rw [hrow k (Finset.mem_range.mp hk)]

theorem Canonical.basicPoint_eq (h : t.Canonical W m sys cost) {cost' : ℕ → ℚ}
    (h' : t'.Canonical W m sys cost') (hb : ∀ j, j ∈ t'.basic ↔ j ∈ t.basic) :
    t'.basicPoint W m = t.basicPoint W m :=
  h.eq_basicPoint ((h.solves_iff _).mpr ((h'.solves_iff _).mp h'.solves_basicPoint))
    fun j hj => h'.basicPoint_of_not_mem fun hj' => hj ((hb j).mp hj')

theorem Canonical.basicPoint_pivot (h : t.Canonical W m sys cost) {r c : ℕ} (hr : r < m)
    (h' : (t.pivot r c).Canonical W m sys cost) (h0 : t.get r W = 0) :
    (t.pivot r c).basicPoint W m = t.basicPoint W m := by
  symm
  refine h'.eq_basicPoint ((h'.solves_iff _).mpr ((h.solves_iff _).mp h.solves_basicPoint))
    fun j hj => ?_
  by_cases hjb : j ∈ t.basic
  · obtain ⟨k, hk, rfl⟩ := h.mem_basic_iff.mp hjb
    have hkr : k = r := by
      by_contra hkr
      refine hj (h'.mem_basic_iff.mpr ⟨k, hk, ?_⟩)
      rw [getD_basic_pivot h.shaped c hr, if_neg hkr]
    rw [hkr, h.basicPoint_basic hr, h0]
  · exact h.basicPoint_of_not_mem hjb

theorem get_objective_pivot (hs : t.Shaped W m) {r : ℕ} (c : ℕ) (hr : r < m) :
    (t.pivot r c).get m W = t.get m W - t.get m c * (t.get r W / t.get r c) := by
  rw [get_pivot hs c hr.le le_rfl le_rfl, if_neg hr.ne']

theorem Canonical.objective_edge (h : t.Canonical W m sys cost) (h' : t'.Canonical W m sys cost)
    {s : ℕ} (hs : s < W) :
    t'.get m s - ∑ k ∈ range m, t'.get m (t.basic.getD k 0) * t.get k s = t.get m s := by
  have hray := h.solves_ray hs 1
  have hbp := h.solves_basicPoint
  have hval : t'.value W (t.ray W m s 1) - t'.value W (t.basicPoint W m) = t.get m s := by
    rw [h'.value_eq _ ((h'.solves_iff _).mpr ((h.solves_iff _).mp hray)),
      h'.value_eq _ ((h'.solves_iff _).mpr ((h.solves_iff _).mp hbp)), ← h.value_eq _ hray,
      ← h.value_eq _ hbp, h.value_ray hs, h.value_basicPoint]
    ring
  rw [← hval]
  unfold ray basicPoint
  rw [value, value, h'.shaped.numRows, rowDot_add, rowDot_single m hs,
    rowDot_onBasis_eq_sum h.basic_lt, rowDot_onBasis_eq_sum h.basic_lt]
  simp only [mul_sub, one_mul, mul_one, Finset.sum_sub_distrib]
  ring

theorem Canonical.exists_row_pays (h : t.Canonical W m sys cost)
    (h' : t'.Canonical W m sys cost) {c s : ℕ} (he : t'.enteringColumn 0 e = some c)
    (hsc : s < c) (hs : s < W) (hneg : t.get m s < 0) :
    ∃ k < m, 0 < t'.get m (t.basic.getD k 0) * t.get k s := by
  have hedge := h.objective_edge h' hs
  have hfirst : 0 ≤ t'.get m s := h'.shaped.numRows ▸ enteringColumn_first he s hsc
  by_contra hnone
  push Not at hnone
  have hsum := Finset.sum_nonpos fun k hk => hnone k (Finset.mem_range.mp hk)
  linarith

theorem Canonical.leaving_le_of_rhs_zero (h : t.Canonical W m sys cost) {c r k : ℕ}
    (hl : t.leavingRow 0 c = some r) (hk : k < m) (hpos : 0 < t.get k c)
    (hk0 : t.get k W = 0) (hr0 : t.get r W = 0) : t.basic.getD r 0 ≤ t.basic.getD k 0 :=
  leavingRow_tie hl (h.shaped.numRows ▸ hk) hpos
    (by rw [h.shaped.rhsColumn, hk0, hr0, zero_div, zero_div])

end Canonical

section Pivot

theorem BlandPivot.canonical (hp : BlandPivot e t t') (h : t.Canonical W m sys cost)
    (heW : e ≤ W) : t'.Canonical W m sys cost := by
  obtain ⟨c, r, k, he, hl, rfl⟩ := hp
  exact (h.pivot_bland heW he hl).setIterations k

theorem BlandPivot.mem_basic (hp : BlandPivot e t t') {j : ℕ} (hj : j ∈ t'.basic) :
    j ∈ t.basic ∨ t.enteringColumn 0 e = some j := by
  obtain ⟨c, r, k, he, -, rfl⟩ := hp
  rcases List.mem_or_eq_of_mem_set hj with hj | rfl
  · exact Or.inl hj
  · exact Or.inr he

theorem BlandPivot.entering_mem (hp : BlandPivot e t t') {c : ℕ}
    (he : t.enteringColumn 0 e = some c) : c ∈ t'.basic := by
  obtain ⟨c', r, k, he', hl, rfl⟩ := hp
  obtain rfl : c' = c := Option.some.inj (he'.symm.trans he)
  exact List.mem_set (leavingRow_eq_some hl).1 c'

theorem BlandPivot.leaves (hp : BlandPivot e t t') {j : ℕ} (hj : j ∈ t.basic)
    (hj' : j ∉ t'.basic) : Leaves e t j := by
  obtain ⟨c, r, k, he, hl, rfl⟩ := hp
  have hr : r < t.basic.length := (leavingRow_eq_some hl).1
  refine ⟨c, r, he, hl, ?_⟩
  by_contra hne
  rw [List.getD_eq_getElem _ _ hr] at hne
  exact hj' (DistinctColumns.mem_set_of_mem hj hr (Ne.symm hne))

theorem BlandPivot.objective_le (hp : BlandPivot e t t') (h : t.Canonical W m sys cost) :
    t.get m W ≤ t'.get m W := by
  obtain ⟨c, r, k, he, hl, rfl⟩ := hp
  obtain ⟨-, hneg⟩ := enteringColumn_eq_some he
  obtain ⟨hr, hpos, -⟩ := leavingRow_eq_some hl
  rw [h.shaped.numRows] at hneg hr
  have hθ : 0 ≤ t.get r W / t.get r c := div_nonneg (h.rhs_nonneg r hr) hpos.le
  show t.get m W ≤ (t.pivot r c).get m W
  rw [get_objective_pivot h.shaped c hr]
  linarith [mul_nonpos_of_nonpos_of_nonneg hneg.le hθ]

theorem BlandPivot.basicPoint_eq (hp : BlandPivot e t t') (h : t.Canonical W m sys cost)
    (heW : e ≤ W) (hobj : t'.get m W = t.get m W) : t'.basicPoint W m = t.basicPoint W m := by
  obtain ⟨c, r, k, he, hl, rfl⟩ := hp
  obtain ⟨-, hneg⟩ := enteringColumn_eq_some he
  obtain ⟨hr, hpos, -⟩ := leavingRow_eq_some hl
  rw [h.shaped.numRows] at hneg hr
  change (t.pivot r c).get m W = t.get m W at hobj
  rw [get_objective_pivot h.shaped c hr] at hobj
  have hθ : t.get r W / t.get r c = 0 :=
    (mul_eq_zero.mp (by linarith : t.get m c * (t.get r W / t.get r c) = 0)).resolve_left hneg.ne
  have h0 : t.get r W = 0 := (div_eq_zero_iff.mp hθ).resolve_right hpos.ne'
  exact h.basicPoint_pivot hr (h.pivot_bland heW he hl) h0

end Pivot

namespace BlandChain

variable {T : ℕ → Tableau ℚ} {K : ℕ}

theorem canonical (hT : BlandChain W m sys cost e T K) :
    ∀ k ≤ K, (T k).Canonical W m sys cost
  | 0, _ => hT.start
  | k + 1, hk => (hT.step k (by omega)).canonical (hT.canonical k (by omega)) hT.eligible

theorem enters_of_mem (hT : BlandChain W m sys cost e T K) {j k₁ : ℕ} (k₂ : ℕ)
    (h12 : k₁ ≤ k₂) (h2K : k₂ ≤ K) (hj₁ : j ∉ (T k₁).basic) (hj₂ : j ∈ (T k₂).basic) :
    ∃ k, k₁ ≤ k ∧ k < k₂ ∧ (T k).enteringColumn 0 e = some j := by
  induction k₂, h12 using Nat.le_induction with
  | base => exact absurd hj₂ hj₁
  | succ k hk ih =>
    rcases (hT.step k (by omega)).mem_basic hj₂ with hj | he
    · obtain ⟨k', h1, h2, he⟩ := ih (by omega) hj
      exact ⟨k', h1, by omega, he⟩
    · exact ⟨k, hk, by omega, he⟩

theorem leaves_of_mem (hT : BlandChain W m sys cost e T K) {j k₁ : ℕ} (k₂ : ℕ)
    (h12 : k₁ ≤ k₂) (h2K : k₂ ≤ K) (hj₁ : j ∈ (T k₁).basic) (hj₂ : j ∉ (T k₂).basic) :
    ∃ k, k₁ ≤ k ∧ k < k₂ ∧ Leaves e (T k) j := by
  induction k₂, h12 using Nat.le_induction with
  | base => exact absurd hj₁ hj₂
  | succ k hk ih =>
    by_cases hj : j ∈ (T k).basic
    · exact ⟨k, hk, by omega, (hT.step k (by omega)).leaves hj hj₂⟩
    · obtain ⟨k', h1, h2, hl⟩ := ih (by omega) hj
      exact ⟨k', h1, by omega, hl⟩

theorem objective_mono (hT : BlandChain W m sys cost e T K) {k₁ : ℕ} (k₂ : ℕ)
    (h12 : k₁ ≤ k₂) (h2K : k₂ ≤ K) : (T k₁).get m W ≤ (T k₂).get m W := by
  induction k₂, h12 using Nat.le_induction with
  | base => exact le_rfl
  | succ k hk ih =>
    exact (ih (by omega)).trans ((hT.step k (by omega)).objective_le (hT.canonical k (by omega)))

section Return

variable {a b : ℕ}

theorem return_objective (hT : BlandChain W m sys cost e T K) (hr : Returns T K a b) :
    (T b).get m W = (T a).get m W := by
  have ha := hT.canonical a (by have := hr.lt; have := hr.le; omega)
  have hb := hT.canonical b hr.le
  have hva := ha.value_basicPoint
  have hvb := hb.value_basicPoint
  rw [ha.value_eq _ ha.solves_basicPoint] at hva
  rw [hb.value_eq _ hb.solves_basicPoint, ha.basicPoint_eq hb hr.mem_iff] at hvb
  linarith

theorem return_basicPoint (hT : BlandChain W m sys cost e T K) (hr : Returns T K a b) (k : ℕ)
    (hak : a ≤ k) (hkb : k ≤ b) : (T k).basicPoint W m = (T a).basicPoint W m := by
  have hbK := hr.le
  induction k, hak using Nat.le_induction with
  | base => rfl
  | succ k hak ih =>
    have hk := hT.canonical k (by omega)
    have hobj : (T (k + 1)).get m W = (T k).get m W := by
      refine le_antisymm ?_ ((hT.step k (by omega)).objective_le hk)
      calc (T (k + 1)).get m W ≤ (T b).get m W := hT.objective_mono b (by omega) hbK
        _ = (T a).get m W := hT.return_objective hr
        _ ≤ (T k).get m W := hT.objective_mono k hak (by omega)
    rw [(hT.step k (by omega)).basicPoint_eq hk hT.eligible hobj, ih (by omega)]

theorem return_basicPoint_entering (hT : BlandChain W m sys cost e T K) (hr : Returns T K a b)
    {j k k' : ℕ} (hk : a ≤ k ∧ k < b) (he : (T k).enteringColumn 0 e = some j)
    (hk' : a ≤ k' ∧ k' ≤ b) : (T k').basicPoint W m j = 0 := by
  have hcan := hT.canonical k (by have := hr.le; omega)
  rw [hT.return_basicPoint hr k' hk'.1 hk'.2, ← hT.return_basicPoint hr k hk.1 hk.2.le]
  exact hcan.basicPoint_of_not_mem (hcan.entering_not_mem he)

theorem return_enters (hT : BlandChain W m sys cost e T K) (hr : Returns T K a b)
    {j k₁ k₂ : ℕ} (h₁ : a ≤ k₁ ∧ k₁ ≤ b) (h₂ : a ≤ k₂ ∧ k₂ ≤ b) (hj₁ : j ∉ (T k₁).basic)
    (hj₂ : j ∈ (T k₂).basic) : ∃ k, a ≤ k ∧ k < b ∧ (T k).enteringColumn 0 e = some j := by
  have hbK := hr.le
  rcases le_or_gt k₁ k₂ with h12 | h21
  · obtain ⟨k, hk₁, hk₂, he⟩ := hT.enters_of_mem k₂ h12 (by omega) hj₁ hj₂
    exact ⟨k, by omega, by omega, he⟩
  · by_cases hja : j ∈ (T a).basic
    · obtain ⟨k, hk₁, hk₂, he⟩ := hT.enters_of_mem b h₁.2 hbK hj₁ ((hr.mem_iff j).mpr hja)
      exact ⟨k, by omega, hk₂, he⟩
    · obtain ⟨k, hk₁, hk₂, he⟩ := hT.enters_of_mem k₂ h₂.1 (by omega) hja hj₂
      exact ⟨k, hk₁, by omega, he⟩

theorem return_leaves (hT : BlandChain W m sys cost e T K) (hr : Returns T K a b)
    {j k₁ k₂ : ℕ} (h₁ : a ≤ k₁ ∧ k₁ ≤ b) (h₂ : a ≤ k₂ ∧ k₂ ≤ b) (hj₁ : j ∈ (T k₁).basic)
    (hj₂ : j ∉ (T k₂).basic) : ∃ k, a ≤ k ∧ k < b ∧ Leaves e (T k) j := by
  have hbK := hr.le
  rcases le_or_gt k₁ k₂ with h12 | h21
  · obtain ⟨k, hk₁, hk₂, hl⟩ := hT.leaves_of_mem k₂ h12 (by omega) hj₁ hj₂
    exact ⟨k, by omega, by omega, hl⟩
  · by_cases hja : j ∈ (T a).basic
    · obtain ⟨k, hk₁, hk₂, hl⟩ := hT.leaves_of_mem k₂ h₂.1 (by omega) hja hj₂
      exact ⟨k, hk₁, by omega, hl⟩
    · obtain ⟨k, hk₁, hk₂, hl⟩ :=
        hT.leaves_of_mem b h₁.2 hbK hj₁ fun hjb => hja ((hr.mem_iff j).mp hjb)
      exact ⟨k, by omega, hk₂, hl⟩

theorem exists_max_entering (hT : BlandChain W m sys cost e T K) (hr : Returns T K a b) :
    ∃ k c, a ≤ k ∧ k < b ∧ (T k).enteringColumn 0 e = some c ∧
      ∀ k' j, a ≤ k' → k' < b → (T k').enteringColumn 0 e = some j → j ≤ c := by
  obtain ⟨k, hk, hmax⟩ := (Finset.Ico a b).exists_max_image
    (fun k => ((T k).enteringColumn 0 e).getD 0) (Finset.nonempty_Ico.mpr hr.lt)
  obtain ⟨hak, hkb⟩ := Finset.mem_Ico.mp hk
  obtain ⟨c, -, -, he, -, -⟩ := hT.step k (by have := hr.le; omega)
  refine ⟨k, c, hak, hkb, he, fun k' j h1 h2 hj => ?_⟩
  simpa [he, hj] using hmax k' (Finset.mem_Ico.mpr ⟨h1, h2⟩)

theorem no_return (hT : BlandChain W m sys cost e T K) : ¬ Returns T K a b := by
  intro hret
  have hbK := hret.le
  -- the largest column `t` entering in between enters at `A = T D'`
  obtain ⟨D', t, hD'a, hD'b, het, hmax⟩ := hT.exists_max_entering hret
  have hA := hT.canonical D' (by omega)
  have ht_in : t ∈ (T (D' + 1)).basic := (hT.step D' (by omega)).entering_mem het
  -- and leaves at `B = T D`, where column `s` enters on row `r`
  obtain ⟨D, hDa, hDb, s, r, hes, hlr, hrt⟩ := hT.return_leaves hret ⟨by omega, by omega⟩
    ⟨hD'a, hD'b.le⟩ ht_in (hA.entering_not_mem het)
  have hB := hT.canonical D (by omega)
  obtain ⟨hse, hsneg⟩ := enteringColumn_eq_some hes
  obtain ⟨hr, hrpos, -⟩ := leavingRow_eq_some hlr
  rw [hB.shaped.numRows] at hsneg hr
  have hst : s < t := by
    refine lt_of_le_of_ne (hmax D s hDa hDb hes) fun hst => hB.entering_not_mem hes ?_
    rw [hst, ← hrt]
    exact hB.mem_basic_iff.mpr ⟨r, hr, rfl⟩
  -- priced in `A`, the edge of `s` at `B` is negative, so some row `k` of `B` pays for it
  obtain ⟨k, hkm, hprod⟩ :=
    hB.exists_row_pays hA het hst (by have := hT.eligible; omega) hsneg
  set q := (T D).basic.getD k 0 with hq
  -- `q` is basic at `B` but not at `A`, so it enters in between: `q ≤ t`
  have hq_out : q ∉ (T D').basic := fun hq' => by
    rw [hA.objective_basic hq', zero_mul] at hprod
    exact lt_irrefl 0 hprod
  obtain ⟨Dq, hDqa, hDqb, heq⟩ := hT.return_enters hret ⟨hD'a, hD'b.le⟩ ⟨hDa, hDb.le⟩ hq_out
    (hB.mem_basic_iff.mpr ⟨k, hkm, rfl⟩)
  rcases lt_or_eq_of_le (hmax Dq q hDqa hDqb heq) with hqt | hqt
  · -- `q < t`: its objective entry in `A` is not negative, so its entry in `s` is positive,
    -- and both rows sit at zero; Bland's tie-break would have chosen `q`'s row
    have hfirst : 0 ≤ (T D').get m q := hA.shaped.numRows ▸ enteringColumn_first het q hqt
    have hks : 0 < (T D).get k s := pos_of_mul_pos_right hprod hfirst
    have hk0 : (T D).get k W = 0 := by
      rw [← hB.basicPoint_basic hkm]
      exact hT.return_basicPoint_entering hret ⟨hDqa, hDqb⟩ heq ⟨hDa, hDb.le⟩
    have hr0 : (T D).get r W = 0 := by
      rw [← hB.basicPoint_basic hr, hrt]
      exact hT.return_basicPoint_entering hret ⟨hD'a, hD'b⟩ het ⟨hDa, hDb.le⟩
    have htie := hB.leaving_le_of_rhs_zero hlr hkm hks hk0 hr0
    rw [hrt] at htie
    omega
  · -- `q = t`: it is basic in row `r`, where its objective entry in `A` is negative
    have hkr : k = r := hB.getD_basic_inj hkm hr (by rw [← hq, hqt, hrt])
    have htneg : (T D').get m t < 0 := hA.shaped.numRows ▸ (enteringColumn_eq_some het).2
    rw [hqt, hkr] at hprod
    linarith [mul_neg_of_neg_of_pos htneg hrpos]

end Return

theorem length_le_choose (hT : BlandChain W m sys cost e T K) : K + 1 ≤ W.choose m := by
  have hL := DistinctColumns.length_le_choose (m := m) (N := W)
    (L := (List.range (K + 1)).map fun k => (T k).basic) (fun idx hidx => ?_) ?_
  · simpa using hL
  · obtain ⟨k, hk, rfl⟩ := List.mem_map.mp hidx
    exact (hT.canonical k (Nat.lt_succ_iff.mp (List.mem_range.mp hk))).distinctColumns
  · rw [List.pairwise_map]
    refine List.pairwise_lt_range.imp_of_mem fun {a b} _ hb hab hperm => ?_
    exact hT.no_return
      ⟨hab, Nat.lt_succ_iff.mp (List.mem_range.mp hb), fun j => hperm.mem_iff.symm⟩

end BlandChain

end Tableau

namespace Method

open Tableau

variable (s : Method ℚ) {e W m : ℕ} {sys : (ℕ → ℚ) → Prop} {cost : ℕ → ℚ}

theorem iterate_chain (hs0 : s.tolerance = 0) (e : ℕ) :
    ∀ fuel t, ∃ K, ∃ T : ℕ → Tableau ℚ, T 0 = t ∧ T K = (s.iterate e fuel t).2 ∧
      (∀ k < K, BlandPivot e (T k) (T (k + 1))) ∧
      (s.iterate e fuel t).2.iterations = t.iterations + K
  | 0, t => ⟨0, fun _ => t, rfl, rfl, fun _ hk => absurd hk (Nat.not_lt_zero _), rfl⟩
  | fuel + 1, t => by
    have hstop : ∃ K, ∃ T : ℕ → Tableau ℚ, T 0 = t ∧ T K = t ∧
        (∀ k < K, BlandPivot e (T k) (T (k + 1))) ∧ t.iterations = t.iterations + K :=
      ⟨0, fun _ => t, rfl, rfl, fun _ hk => absurd hk (Nat.not_lt_zero _), rfl⟩
    rw [iterate]
    split
    next => exact hstop
    next c he =>
      split
      next => exact hstop
      next r hl =>
        split_ifs
        · exact hstop
        · obtain ⟨K, T, h0, hK, hstep, hit⟩ :=
            iterate_chain hs0 e fuel { t.pivot r c with iterations := t.iterations + 1 }
          refine ⟨K + 1, fun k => Nat.rec (motive := fun _ => Tableau ℚ) t (fun k _ => T k) k,
            rfl, hK, fun k hk => ?_, ?_⟩
          · cases k with
            | zero => exact ⟨c, r, t.iterations + 1, hs0 ▸ he, hs0 ▸ hl, h0⟩
            | succ k => exact hstep k (by omega)
          · rw [hit]
            show t.iterations + 1 + K = t.iterations + (K + 1)
            omega

theorem iterate_limit : ∀ fuel t, s.maxIterations + 1 ≤ fuel + t.iterations →
    (s.iterate e fuel t).1 = .iterationLimit →
      s.maxIterations ≤ (s.iterate e fuel t).2.iterations
  | 0, t, hf, _ => by
    simp only [iterate]
    omega
  | fuel + 1, t, hf, hlim => by
    rw [iterate] at hlim ⊢
    cases he : t.enteringColumn s.tolerance e with
    | none => simp [he] at hlim
    | some c =>
      cases hl : t.leavingRow s.tolerance c with
      | none => simp [he, hl] at hlim
      | some r =>
        simp only [he, hl] at hlim ⊢
        split_ifs at hlim ⊢ with hcap
        · exact hcap
        · exact iterate_limit fuel _ (by show _ ≤ fuel + (t.iterations + 1); omega) hlim

theorem runPhase_chain (hs0 : s.tolerance = 0) (heW : e ≤ W) {t : Tableau ℚ}
    (h : t.Canonical W m sys cost) :
    ∃ K, ∃ T : ℕ → Tableau ℚ, T 0 = t ∧ T K = (s.runPhase e t).2 ∧
      BlandChain W m sys cost e T K ∧ (s.runPhase e t).2.iterations = t.iterations + K := by
  obtain ⟨K, T, h0, hK, hstep, hit⟩ :=
    s.iterate_chain hs0 e (s.maxIterations - t.iterations + 1) t
  exact ⟨K, T, h0, hK, ⟨heW, h0 ▸ h, hstep⟩, hit⟩

theorem runPhase_pivots (hs0 : s.tolerance = 0) (heW : e ≤ W) {t : Tableau ℚ}
    (h : t.Canonical W m sys cost) :
    (s.runPhase e t).2.iterations < t.iterations + W.choose m ∧
      ((s.runPhase e t).1 = .iterationLimit →
        s.maxIterations ≤ (s.runPhase e t).2.iterations) := by
  obtain ⟨K, T, -, -, hT, hit⟩ := s.runPhase_chain hs0 heW h
  have hlen := hT.length_le_choose
  exact ⟨by omega, s.iterate_limit _ t (by omega)⟩

theorem driveOut_iterations (t : Tableau ℚ) : (s.driveOut t).iterations = t.iterations := by
  unfold driveOut
  refine foldl_range_invariant (fun _ t' => t'.iterations = t.iterations) s.driveOutRow t.numRows
    rfl fun k _ t' ht' => ?_
  unfold driveOutRow
  split_ifs
  · exact ht'
  · split <;> exact ht'

variable {P : StandardForm ℚ}

theorem phaseOne_pivots (hs0 : s.tolerance = 0) (hP : P.Shaped) :
    (s.phaseOne (ofProblem P)).2.iterations <
        (P.numColumns + P.numConstraints).choose P.numConstraints ∧
      ((s.phaseOne (ofProblem P)).1 = .iterationLimit →
        s.maxIterations ≤ (s.phaseOne (ofProblem P)).2.iterations) := by
  have h := s.runPhase_pivots hs0 le_rfl (canonical_phaseOneStart hP)
  have h0 : (withObjective (ofProblem P) (phaseOneObjective (ofProblem P))).iterations = 0 := rfl
  rw [h0, zero_add] at h
  unfold phaseOne
  simp only [numColumns_ofProblem, numRows_ofProblem]
  generalize s.runPhase _ _ = res at h ⊢
  obtain ⟨ending, t⟩ := res
  dsimp only at h ⊢
  split_ifs
  · exact h
  · exact ⟨h.1, by simp⟩
  · exact ⟨h.1, by simp⟩

theorem phaseTwo_pivots (hs0 : s.tolerance = 0) (hP : P.Shaped) {t : Tableau ℚ}
    (h : t.Canonical (P.numColumns + P.numConstraints) P.numConstraints sys cost)
    (hN : t.numColumns = P.numColumns) :
    (s.phaseTwo P t).2.iterations <
        t.iterations + (P.numColumns + P.numConstraints).choose P.numConstraints ∧
      ((s.phaseTwo P t).1 = .iterationLimit →
        s.maxIterations ≤ (s.phaseTwo P t).2.iterations) := by
  unfold phaseTwo
  rw [hN]
  exact s.runPhase_pivots hs0 (Nat.le_add_right _ _) (h.phaseTwoStart hN hP.costs)

theorem solve_ne_iterationLimit (hs0 : s.tolerance = 0) (hP : P.Shaped)
    (hcap : 2 * (P.numColumns + P.numConstraints).choose P.numConstraints ≤ s.maxIterations) :
    (s.solve P).outcome ≠ .iterationLimit := by
  have h1 := s.phaseOne_ends hs0 hP
  have hp1 := s.phaseOne_pivots hs0 hP
  unfold solve
  generalize s.phaseOne (ofProblem P) = res1 at h1 hp1 ⊢
  obtain ⟨e1, t2⟩ := res1
  dsimp only at hp1
  cases e1 with
  | iterationLimit =>
    exfalso
    have := hp1.2 rfl
    omega
  | unbounded =>
      intro h
      cases h
  | infeasible =>
      intro h
      cases h
  | optimal =>
    dsimp only
    obtain ⟨hc3, hN3, -⟩ := s.driveOut_redundant hs0 (Nat.le_add_right _ _) h1.canonical
      h1.numColumns (h1.artificial_zero rfl)
    have hp2 := s.phaseTwo_pivots hs0 hP hc3 hN3
    rw [driveOut_iterations] at hp2
    generalize s.phaseTwo P (s.driveOut t2) = res2 at hp2 ⊢
    obtain ⟨e2, t5⟩ := res2
    dsimp only at hp2
    cases e2 with
    | iterationLimit =>
      exfalso
      have := hp2.2 rfl
      omega
    | optimal =>
      intro h
      cases h
    | unbounded =>
      intro h
      cases h
    | infeasible =>
      intro h
      cases h

end Method

/-- At tolerance zero each phase of the two-phase method, run from a canonical tableau of a
program's augmented system (`m` rows, `n + 2m` columns with the artificial ones), is a chain of
counted Bland pivots that never comes back to a set of basic columns, and so makes fewer than
`C(n + 2m, m)` pivots; with a cap of at least twice that the method never stops at the cap. -/
theorem bland_never_revisits (prog : LinearProgram ℚ) (maxIterations : ℕ) :
    (∀ (e : ℕ) (cost : ℕ → ℚ) (t : Tableau ℚ),
      e ≤ prog.standardize.numColumns + prog.standardize.numConstraints →
      t.Canonical (prog.standardize.numColumns + prog.standardize.numConstraints)
        prog.standardize.numConstraints
        ((Tableau.ofProblem prog.standardize).Solves
          (prog.standardize.numColumns + prog.standardize.numConstraints)) cost →
      ∃ (K : ℕ) (T : ℕ → Tableau ℚ), T 0 = t ∧
        T K = ((⟨maxIterations, 0⟩ : Method ℚ).runPhase e t).2 ∧
        (∀ k < K, Tableau.BlandPivot e (T k) (T (k + 1))) ∧
        ((⟨maxIterations, 0⟩ : Method ℚ).runPhase e t).2.iterations = t.iterations + K ∧
        (∀ a b, a < b → b ≤ K → ¬ (T b).basic.Perm (T a).basic) ∧
        K < (prog.standardize.numColumns + prog.standardize.numConstraints).choose
          prog.standardize.numConstraints) ∧
    (2 * (prog.standardize.numColumns + prog.standardize.numConstraints).choose
        prog.standardize.numConstraints ≤ maxIterations →
      ((⟨maxIterations, 0⟩ : Method ℚ).solve prog.standardize).outcome ≠ .iterationLimit) := by
  refine ⟨fun e cost t heW h => ?_,
    Method.solve_ne_iterationLimit ⟨maxIterations, 0⟩ rfl prog.shaped_standardize⟩
  obtain ⟨K, T, h0, hK, hT, hit⟩ := Method.runPhase_chain ⟨maxIterations, 0⟩ rfl heW h
  exact ⟨K, T, h0, hK, hT.step, hit,
    fun a b hab hbK hperm => hT.no_return ⟨hab, hbK, fun j => hperm.mem_iff⟩,
    hT.length_le_choose⟩

/-- Phase one of the production plan (`m = 3` rows, `8` columns) makes fewer than `C(8, 3) = 56`
pivots, and with a cap of `112` the method does not stop at the cap. -/
theorem bland_never_revisits_productionPlan :
    ((⟨112, 0⟩ : Method ℚ).runPhase
        (productionPlan.standardize.numColumns + productionPlan.standardize.numConstraints)
        (Method.withObjective (Tableau.ofProblem productionPlan.standardize)
          (Method.phaseOneObjective (Tableau.ofProblem productionPlan.standardize)))).2.iterations
        < 56 ∧
      ((⟨112, 0⟩ : Method ℚ).solve productionPlan.standardize).outcome ≠ .iterationLimit := by
  have hC : (productionPlan.standardize.numColumns +
      productionPlan.standardize.numConstraints).choose
        productionPlan.standardize.numConstraints = 56 := by decide +kernel
  have h := bland_never_revisits productionPlan 112
  obtain ⟨K, T, -, -, -, hit, -, hK⟩ :=
    h.1 _ _ _ le_rfl (canonical_phaseOneStart productionPlan.shaped_standardize)
  refine ⟨?_, h.2 (by rw [hC])⟩
  rw [hit, ← hC]
  exact (Nat.zero_add K).trans_lt hK

end Reference

end RevisedSimplex
