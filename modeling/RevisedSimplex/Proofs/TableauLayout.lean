import Mathlib
import RevisedSimplex.Proofs.BasisView
import RevisedSimplex.Proofs.BlandRule

/-! # The layout of the two-phase tableau

The tableau of an augmented problem with `N` columns and `m` rows has `m` constraint rows and
the objective row, each of `N + m + 1` entries (the columns, one artificial column per row, the
right-hand side), and `m` basic columns, each a column or an artificial column
(`Tableau.Layout`). The first tableau has this layout, and every step of the method keeps it,
whatever the arithmetic, the tolerance and the cap: a pivot on a constraint row and a column
before the right-hand side, a new objective row, and so each phase, the drive-out of the
artificial columns, and the phase-two objective. The rules choose only such pivots: the
entering column lies below the eligible count, which is at most `N + m`, and the leaving row
below `m`. So every entry the method reads lies inside its tableau, and the values it extracts
are one per column.
-/

namespace RevisedSimplex.Reference

namespace Tableau

variable {α : Type}

/-- The tableau of an augmented problem with `N` columns and `m` rows: `m` constraint rows and
the objective row, each of `N + m + 1` entries, and `m` basic columns below `N + m`. -/
structure Layout (N m : ℕ) (t : Tableau α) : Prop where
  numColumns_eq : t.numColumns = N
  length_rows : t.rows.length = m + 1
  length_row : ∀ row ∈ t.rows, row.length = N + m + 1
  length_basic : t.basic.length = m
  basic_lt : ∀ j ∈ t.basic, j < N + m

variable {N m : ℕ} {t : Tableau α}

namespace Layout

variable (h : t.Layout N m)
include h

theorem numRows : t.numRows = m := h.length_basic

theorem length_getD {i : ℕ} (hi : i ≤ m) : (t.rows.getD i []).length = N + m + 1 := by
  have hi' : i < t.rows.length := by rw [h.length_rows]; omega
  rw [List.getD_eq_getElem _ _ hi']
  exact h.length_row _ (List.getElem_mem hi')

theorem width : t.width = N + m + 1 := h.length_getD (Nat.zero_le m)

theorem rhsColumn : t.rhsColumn = N + m := by
  simp [Tableau.rhsColumn, h.width]

theorem withIterations (k : ℕ) : { t with iterations := k }.Layout N m :=
  ⟨h.numColumns_eq, h.length_rows, h.length_row, h.length_basic, h.basic_lt⟩

theorem withObjective {o : List α} (ho : o.length = N + m + 1) :
    (Method.withObjective t o).Layout N m where
  numColumns_eq := h.numColumns_eq
  length_rows := by simp [Method.withObjective, h.length_rows]
  length_row row hrow := by
    rcases List.mem_or_eq_of_mem_set hrow with hrow | rfl
    · exact h.length_row row hrow
    · exact ho
  length_basic := h.length_basic
  basic_lt := h.basic_lt

end Layout

variable [Scalar α]

theorem layout_ofProblem {P : StandardForm α} (hP : P.Shaped) :
    (ofProblem P).Layout P.numColumns P.numConstraints where
  numColumns_eq := rfl
  length_rows := by simp [ofProblem]
  length_row row hrow := by
    simp only [ofProblem, List.mem_append, List.mem_map, List.mem_range,
      List.mem_singleton] at hrow
    rcases hrow with ⟨i, hi, rfl⟩ | rfl
    · have hi' : i < P.constraints.rows.length := by rw [hP.constraints.length_rows]; exact hi
      have hrow : (P.constraints.rows.getD i []).length = P.numColumns := by
        rw [List.getD_eq_getElem _ _ hi']
        exact hP.constraints.length_getElem hi'
      rw [List.getD_eq_getElem?_getD] at hrow
      simp [hrow]
      omega
    · simp
  length_basic := by simp [ofProblem]
  basic_lt j hj := by
    simp only [ofProblem, List.mem_map, List.mem_range] at hj
    obtain ⟨k, hk, rfl⟩ := hj
    omega

theorem enteringColumn_lt {tol : α} {e c : ℕ} (h : t.enteringColumn tol e = some c) : c < e :=
  List.mem_range.mp (List.mem_of_find?_eq_some h)

theorem leavingRow_lt {tol : α} {c r : ℕ} (h : t.leavingRow tol c = some r) : r < t.numRows := by
  simp only [leavingRow] at h
  obtain ⟨⟨r', q⟩, hfold, rfl⟩ := Option.map_eq_some_iff.mp h
  refine foldl_range_invariant (fun k (b : Option (ℕ × α)) => ∀ x ∈ b, x.1 < k) _ t.numRows
    (by simp) ?_ _ hfold
  intro k _ b hb x hx
  split_ifs at hx
  · split at hx
    · cases hx
      omega
    · split_ifs at hx
      · cases hx
        omega
      · exact Nat.lt_succ_of_lt (hb x hx)
  · exact Nat.lt_succ_of_lt (hb x hx)

namespace Layout

variable (h : t.Layout N m)
include h

theorem pivot {r c : ℕ} (hr : r < m) (hc : c < N + m) : (t.pivot r c).Layout N m where
  numColumns_eq := h.numColumns_eq
  length_rows := by simp [Tableau.pivot, h.length_rows]
  length_row row hrow := by
    simp only [Tableau.pivot, List.mem_map] at hrow
    obtain ⟨⟨x, i⟩, hxi, rfl⟩ := hrow
    have hx : x.length = N + m + 1 := h.length_row x (List.fst_mem_of_mem_zipIdx hxi)
    have hR : (t.rows[r]?.getD []).length = N + m + 1 := by
      rw [← List.getD_eq_getElem?_getD]
      exact h.length_getD hr.le
    dsimp only
    split_ifs <;> simp [hx, hR]
  length_basic := by simp [Tableau.pivot, h.length_basic]
  basic_lt j hj := by
    rcases List.mem_or_eq_of_mem_set hj with hj | rfl
    · exact h.basic_lt j hj
    · exact hc

theorem length_phaseOneObjective : (Method.phaseOneObjective t).length = N + m + 1 := by
  unfold Method.phaseOneObjective
  refine List.foldlRecOn (motive := fun o : List α => o.length = N + m + 1) _ _
    (by simp [h.width]) fun o ho r hr => ?_
  rw [List.length_zipWith, ho, h.length_row r (List.mem_of_mem_take hr), min_self]

theorem length_phaseTwoObjective {P : StandardForm α} (hc : P.costs.length = N) :
    (Method.phaseTwoObjective P t).length = N + m + 1 := by
  unfold Method.phaseTwoObjective
  refine List.foldlRecOn (motive := fun o : List α => o.length = N + m + 1) _ _ ?_
    fun o ho row hrow => ?_
  · simp only [List.length_append, List.length_take, List.length_replicate, h.width,
      h.numColumns_eq, hc, min_self]
    omega
  · have hlen : ∀ cost : α, (if cost == 0 then o
        else List.zipWith (fun x y => x - cost * y) o row.1).length = N + m + 1 := by
      intro cost
      split_ifs
      · exact ho
      · rw [List.length_zipWith, ho,
          h.length_row row.1 (List.mem_of_mem_take (List.of_mem_zip hrow).1), min_self]
    exact hlen _

theorem driveOutRow (s : Method α) {row : ℕ} (hrow : row < m) :
    (s.driveOutRow t row).Layout N m := by
  unfold Method.driveOutRow
  split_ifs
  · exact h
  · split
    next col hcol =>
      have hcol : col < N := h.numColumns_eq ▸ List.mem_range.mp (List.mem_of_find?_eq_some hcol)
      exact h.pivot hrow (by omega)
    next => exact h

end Layout

end Tableau

namespace Method

open Tableau

variable {α : Type} [Scalar α] (s : Method α) {N m : ℕ}

theorem iterate_layout {e : ℕ} (he : e ≤ N + m) :
    ∀ (fuel : ℕ) (t : Tableau α), t.Layout N m → (s.iterate e fuel t).2.Layout N m
  | 0, _, h => h
  | fuel + 1, t, h => by
    rw [iterate]
    split
    · exact h
    next c hc =>
      split
      · exact h
      next r hr =>
        split_ifs
        · exact h
        · have hr' : r < m := h.numRows ▸ leavingRow_lt hr
          exact iterate_layout he fuel _
            ((h.pivot hr' ((enteringColumn_lt hc).trans_le he)).withIterations _)

theorem phaseOne_layout {t : Tableau α} (h : t.Layout N m) : (s.phaseOne t).2.Layout N m := by
  have hrun := s.iterate_layout (e := t.numColumns + t.numRows)
    (by rw [h.numColumns_eq, h.numRows])
    (s.maxIterations - (Method.withObjective t (phaseOneObjective t)).iterations + 1) _
    (h.withObjective h.length_phaseOneObjective)
  unfold phaseOne runPhase
  dsimp only
  split_ifs <;> exact hrun

theorem driveOut_layout {t : Tableau α} (h : t.Layout N m) : (s.driveOut t).Layout N m := by
  unfold driveOut
  refine List.foldlRecOn (motive := fun t' : Tableau α => t'.Layout N m) _ _ h
    fun t' ht' row hrow => ht'.driveOutRow s ?_
  rw [← h.numRows]
  exact List.mem_range.mp hrow

theorem phaseTwo_layout {P : StandardForm α} (hc : P.costs.length = N) {t : Tableau α}
    (h : t.Layout N m) : (s.phaseTwo P t).2.Layout N m :=
  s.iterate_layout (by rw [h.numColumns_eq]; omega) _ _
    (h.withObjective (h.length_phaseTwoObjective hc))

theorem length_basicValues (t : Tableau α) : (basicValues t).length = t.numColumns := by
  unfold basicValues
  refine List.foldlRecOn (motive := fun vs : List α => vs.length = t.numColumns) _ _
    (List.length_replicate ..) fun vs hvs x _ => ?_
  dsimp only
  split_ifs
  · rw [List.length_set, hvs]
  · exact hvs

end Method

end RevisedSimplex.Reference
