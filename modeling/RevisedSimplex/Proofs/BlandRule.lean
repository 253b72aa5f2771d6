import Mathlib
import RevisedSimplex.Proofs.TableauView

/-! # Bland's rule at tolerance zero

With tolerance zero the entering column is the first eligible column whose objective entry is
negative, or none when the objective row is non-negative on all of them; the leaving row has a
positive entry in that column and the least ratio among such rows, or there is none when the
column has no positive entry. A pivot so chosen keeps the canonical form. A phase is a run of
such pivots: it ends optimal with no entering column, unbounded at a column with no leaving
row, or at the cap, and never infeasible.
-/

open Finset

namespace RevisedSimplex.Reference

namespace Tableau

variable {t : Tableau ℚ} {W m : ℕ}

theorem foldl_range_invariant {β : Type} (P : ℕ → β → Prop) (f : β → ℕ → β) {b : β} (n : ℕ)
    (h0 : P 0 b) (hf : ∀ k < n, ∀ b, P k b → P (k + 1) (f b k)) :
    P n ((List.range n).foldl f b) := by
  induction n with
  | zero => simpa using h0
  | succ n ih =>
    rw [List.range_succ, List.foldl_append, List.foldl_cons, List.foldl_nil]
    exact hf n (by omega) _ (ih fun k hk => hf k (by omega))

theorem Shaped.rhsColumn (hs : t.Shaped W m) : t.rhsColumn = W := by
  have h0 : 0 < t.rows.length := by rw [hs.length_rows]; omega
  simp only [Tableau.rhsColumn, width]
  rw [hs.length_getD (Nat.zero_le m)]
  omega

theorem enteringColumn_eq_some {e c : ℕ} (h : t.enteringColumn 0 e = some c) :
    c < e ∧ t.get t.numRows c < 0 := by
  simp only [enteringColumn, List.find?_eq_some_iff_append] at h
  obtain ⟨hc, as, bs, hr, -⟩ := h
  have hmem : c ∈ List.range e := by rw [hr]; simp
  simpa [List.mem_range] using And.intro hmem hc

theorem enteringColumn_first {e c : ℕ} (h : t.enteringColumn 0 e = some c) :
    ∀ j < c, 0 ≤ t.get t.numRows j := by
  intro j hj
  simp only [enteringColumn, List.find?_range_eq_some] at h
  simpa using h.2.2 j hj

theorem enteringColumn_eq_none {e : ℕ} (h : t.enteringColumn 0 e = none) :
    ∀ j < e, 0 ≤ t.get t.numRows j := by
  intro j hj
  simp only [enteringColumn, List.find?_eq_none] at h
  simpa using h j (List.mem_range.mpr hj)

/-- What the leaving-row fold knows after reading the first `n` rows at tolerance zero: with no
candidate, none of them is positive in column `c`; with candidate `(r, ρ)`, row `r` is one of
them, positive in `c`, with ratio `ρ`, and no positive row has a smaller ratio. -/
def LeavingChoice (t : Tableau ℚ) (c n : ℕ) : Option (ℕ × ℚ) → Prop
  | none => ∀ i < n, t.get i c ≤ 0
  | some (r, ρ) => r < n ∧ 0 < t.get r c ∧ ρ = t.get r t.rhsColumn / t.get r c ∧
      ∀ i < n, 0 < t.get i c → ρ ≤ t.get i t.rhsColumn / t.get i c

/-- Bland's choice after reading the first `n` rows at tolerance zero: `LeavingChoice`, and
besides no positive row of the same ratio has a smaller basic column than the candidate's. -/
def BlandChoice (t : Tableau ℚ) (c n : ℕ) : Option (ℕ × ℚ) → Prop
  | none => ∀ i < n, t.get i c ≤ 0
  | some (r, ρ) => r < n ∧ 0 < t.get r c ∧ ρ = t.get r t.rhsColumn / t.get r c ∧
      ∀ i < n, 0 < t.get i c → ρ ≤ t.get i t.rhsColumn / t.get i c ∧
        (t.get i t.rhsColumn / t.get i c ≤ ρ → t.basic.getD r 0 ≤ t.basic.getD i 0)

theorem BlandChoice.leavingChoice {c n : ℕ} :
    ∀ {best : Option (ℕ × ℚ)}, t.BlandChoice c n best → t.LeavingChoice c n best
  | none, h => h
  | some (_, _), ⟨hr, hpos, hρ, hmin⟩ => ⟨hr, hpos, hρ, fun i hi hi0 => (hmin i hi hi0).1⟩

theorem leavingRow_bland (c : ℕ) :
    ∃ best, t.BlandChoice c t.numRows best ∧ t.leavingRow 0 c = best.map (·.1) := by
  refine ⟨_, ?_, rfl⟩
  apply foldl_range_invariant (BlandChoice t c)
  · intro i hi
    omega
  · intro n _ best hbest
    dsimp only
    split_ifs with hpos
    · rw [Scalar.lt_rat] at hpos
      cases best with
      | none =>
        refine ⟨by omega, hpos, rfl, fun i hi hi0 => ?_⟩
        rcases Nat.lt_succ_iff_lt_or_eq.mp hi with hi | rfl
        · exact absurd (hbest i hi) (not_le.mpr hi0)
        · exact ⟨le_rfl, fun _ => le_rfl⟩
      | some best =>
        obtain ⟨r, ρ⟩ := best
        obtain ⟨hr, hrpos, hρ, hmin⟩ := hbest
        dsimp only
        split_ifs with hwin
        · -- row `n` takes over: its ratio is below `ρ`, or equal with a smaller basic column
          simp only [Scalar.lt_rat, Scalar.le_rat, sub_zero, add_zero] at hwin
          refine ⟨by omega, hpos, rfl, fun i hi hi0 => ?_⟩
          rcases Nat.lt_succ_iff_lt_or_eq.mp hi with hi | rfl
          · obtain ⟨hρi, htie⟩ := hmin i hi hi0
            rcases hwin with hlt | ⟨hle, hbasic⟩
            · exact ⟨hlt.le.trans hρi, fun hi' => absurd (hi'.trans_lt hlt) (not_lt.mpr hρi)⟩
            · exact ⟨hle.trans hρi, fun hi' => hbasic.le.trans (htie (hi'.trans hle))⟩
          · exact ⟨le_rfl, fun _ => le_rfl⟩
        · -- the candidate stays: row `n`'s ratio is not below `ρ`, nor equal with a smaller
          simp only [Scalar.lt_rat, Scalar.le_rat, sub_zero, add_zero, not_or, not_and,
            not_lt] at hwin
          refine ⟨by omega, hrpos, hρ, fun i hi hi0 => ?_⟩
          rcases Nat.lt_succ_iff_lt_or_eq.mp hi with hi | rfl
          · exact hmin i hi hi0
          · exact hwin
    · rw [Scalar.lt_rat, not_lt] at hpos
      cases best with
      | none =>
        intro i hi
        rcases Nat.lt_succ_iff_lt_or_eq.mp hi with hi | rfl
        · exact hbest i hi
        · exact hpos
      | some best =>
        obtain ⟨hr, hrpos, hρ, hmin⟩ := hbest
        refine ⟨by omega, hrpos, hρ, fun i hi hi0 => ?_⟩
        rcases Nat.lt_succ_iff_lt_or_eq.mp hi with hi | rfl
        · exact hmin i hi hi0
        · exact absurd hpos (not_le.mpr hi0)

theorem leavingRow_choice (c : ℕ) :
    ∃ best, t.LeavingChoice c t.numRows best ∧ t.leavingRow 0 c = best.map (·.1) := by
  obtain ⟨best, hbest, heq⟩ := t.leavingRow_bland c
  exact ⟨best, hbest.leavingChoice, heq⟩

theorem leavingRow_eq_none {c : ℕ} (h : t.leavingRow 0 c = none) :
    ∀ i < t.numRows, t.get i c ≤ 0 := by
  obtain ⟨best, hbest, heq⟩ := t.leavingRow_choice c
  cases best with
  | none => exact hbest
  | some best => simp [h] at heq

theorem leavingRow_eq_some {c r : ℕ} (h : t.leavingRow 0 c = some r) :
    r < t.numRows ∧ 0 < t.get r c ∧ ∀ i < t.numRows, 0 < t.get i c →
      t.get r t.rhsColumn / t.get r c ≤ t.get i t.rhsColumn / t.get i c := by
  obtain ⟨best, hbest, heq⟩ := t.leavingRow_choice c
  cases best with
  | none => simp [h] at heq
  | some best =>
    obtain ⟨r', ρ⟩ := best
    obtain ⟨hr, hpos, rfl, hmin⟩ := hbest
    obtain rfl : r = r' := by simpa [h] using heq
    exact ⟨hr, hpos, hmin⟩

theorem leavingRow_tie {c r : ℕ} (h : t.leavingRow 0 c = some r) {i : ℕ} (hi : i < t.numRows)
    (hpos : 0 < t.get i c)
    (hle : t.get i t.rhsColumn / t.get i c ≤ t.get r t.rhsColumn / t.get r c) :
    t.basic.getD r 0 ≤ t.basic.getD i 0 := by
  obtain ⟨best, hbest, heq⟩ := t.leavingRow_bland c
  cases best with
  | none => simp [h] at heq
  | some best =>
    obtain ⟨r', ρ⟩ := best
    obtain ⟨-, -, rfl, hmin⟩ := hbest
    obtain rfl : r = r' := by simpa [h] using heq
    exact (hmin i hi hpos).2 hle

variable {sys : (ℕ → ℚ) → Prop} {cost : ℕ → ℚ}

theorem Canonical.pivot_bland (h : t.Canonical W m sys cost) {e r c : ℕ} (heW : e ≤ W)
    (he : t.enteringColumn 0 e = some c) (hl : t.leavingRow 0 c = some r) :
    (t.pivot r c).Canonical W m sys cost := by
  obtain ⟨hce, -⟩ := enteringColumn_eq_some he
  obtain ⟨hr, hpos, hmin⟩ := leavingRow_eq_some hl
  rw [h.shaped.numRows] at hr hmin
  rw [h.shaped.rhsColumn] at hmin
  have hθ : 0 ≤ t.get r W / t.get r c := div_nonneg (h.rhs_nonneg r hr) hpos.le
  refine h.pivot hr (by omega) hpos.ne' hθ fun i hi => ?_
  by_cases hic : 0 < t.get i c
  · have := mul_le_mul_of_nonneg_left (hmin i hi hic) hic.le
    rwa [mul_div_cancel₀ _ hic.ne'] at this
  · exact (mul_nonpos_of_nonpos_of_nonneg (not_lt.mp hic) hθ).trans (h.rhs_nonneg i hi)

end Tableau

namespace Method

variable (s : Method ℚ) (e : ℕ) (Inv : Tableau ℚ → Prop)

/-- How a phase run from a tableau with `Inv` ended: `Inv` still holds; optimal means no
column enters; unbounded means a column enters that no row can leave; never infeasible. -/
structure PhaseEnds (res : PhaseEnd × Tableau ℚ) : Prop where
  inv : Inv res.2
  optimal : res.1 = .optimal → res.2.enteringColumn s.tolerance e = none
  unbounded : res.1 = .unbounded →
    ∃ c, res.2.enteringColumn s.tolerance e = some c ∧ res.2.leavingRow s.tolerance c = none
  not_infeasible : res.1 ≠ .infeasible

variable {s e}

theorem iterate_ends
    (hstep : ∀ t r c k, Inv t → t.enteringColumn s.tolerance e = some c →
      t.leavingRow s.tolerance c = some r → Inv { t.pivot r c with iterations := k }) :
    ∀ fuel t, Inv t → s.PhaseEnds e Inv (s.iterate e fuel t)
  | 0, t, ht => ⟨ht, nofun, nofun, nofun⟩
  | fuel + 1, t, ht => by
    rw [iterate]
    split
    next he => exact ⟨ht, fun _ => he, nofun, nofun⟩
    next c he =>
      split
      next hl => exact ⟨ht, nofun, fun _ => ⟨c, he, hl⟩, nofun⟩
      next r hl =>
        split_ifs
        · exact ⟨ht, nofun, nofun, nofun⟩
        · exact iterate_ends hstep fuel _ (hstep t r c _ ht he hl)

theorem runPhase_ends
    (hstep : ∀ t r c k, Inv t → t.enteringColumn s.tolerance e = some c →
      t.leavingRow s.tolerance c = some r → Inv { t.pivot r c with iterations := k })
    {t : Tableau ℚ} (ht : Inv t) : s.PhaseEnds e Inv (s.runPhase e t) :=
  iterate_ends Inv hstep _ t ht

end Method

end RevisedSimplex.Reference
