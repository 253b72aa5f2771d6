import Mathlib
import RevisedSimplex.Proofs.Exact
import RevisedSimplex.Factorization

/-! # The pivot rules

Over the rationals both scans of an iteration choose what the simplex method needs. The
entering scan keeps a running minimum of the reduced costs that starts at zero: a column it
names has the least reduced cost, which is negative, and when it accepts none under a tolerance
`tol ≥ 0` every reduced cost is at least `-tol`. The ratio test keeps the best row so far: the
row it returns has a positive entry in the entering column and the least ratio among such rows,
and it returns none only when the entering column has no positive entry.

Each scan is a left fold with an anonymous step; the fold lemmas take the step with an equation
for it, and what one step keeps (`Entering.Candidate`, `RatioBest`) carries the fold.
-/

namespace RevisedSimplex

/-- What the running minimum over `rc` keeps: its value is at most zero, zero while no column is
named, and otherwise the reduced cost of the named column, which is negative. -/
structure Entering.Candidate (rc : List ℚ) (e : Entering ℚ) : Prop where
  nonpos : e.minReducedCost ≤ 0
  of_none : e.column = none → e.minReducedCost = 0
  of_some : ∀ j, e.column = some j → rc[j]? = some e.minReducedCost ∧ e.minReducedCost < 0

theorem Entering.Candidate.foldl {rc : List ℚ} (step : Entering ℚ → ℚ × ℕ → Entering ℚ)
    (hstep : ∀ c x j, step c (x, j) = if x < c.minReducedCost then ⟨some j, x⟩ else c) :
    ∀ (L : List (ℚ × ℕ)), (∀ q ∈ L, rc[q.2]? = some q.1) → ∀ c : Entering ℚ, c.Candidate rc →
      (L.foldl step c).Candidate rc ∧ (L.foldl step c).minReducedCost ≤ c.minReducedCost ∧
        ∀ q ∈ L, (L.foldl step c).minReducedCost ≤ q.1
  | [], _, c, hc => ⟨hc, le_rfl, by simp⟩
  | (x, j) :: L, hL, c, hc => by
    have hone : (step c (x, j)).Candidate rc ∧
        (step c (x, j)).minReducedCost ≤ c.minReducedCost ∧ (step c (x, j)).minReducedCost ≤ x := by
      rw [hstep]
      split
      · next hlt =>
        have hx : rc[j]? = some x := hL (x, j) (by simp)
        exact ⟨⟨hlt.le.trans hc.nonpos, by simp, by simpa using ⟨hx, hlt.trans_le hc.nonpos⟩⟩,
          hlt.le, le_rfl⟩
      · next hle => exact ⟨hc, le_rfl, not_lt.mp hle⟩
    obtain ⟨hcand, hmono, hall⟩ :=
      Entering.Candidate.foldl step hstep L (fun q hq => hL q (by simp [hq])) _ hone.1
    refine ⟨hcand, hmono.trans hone.2.1, ?_⟩
    rintro q (_ | ⟨_, hq⟩)
    · exact hmono.trans hone.2.2
    · exact hall q hq

theorem selectEntering_spec (rc : List ℚ) :
    (selectEntering rc).Candidate rc ∧ ∀ x ∈ rc, (selectEntering rc).minReducedCost ≤ x := by
  have hzip : ∀ q ∈ rc.zipIdx, rc[q.2]? = some q.1 := fun q hq => by
    simpa using List.mem_zipIdx_iff_getElem?.mp hq
  obtain ⟨hcand, -, hall⟩ := Entering.Candidate.foldl
    (fun c (q : ℚ × ℕ) => if q.1 < c.minReducedCost then ⟨some q.2, q.1⟩ else c)
    (fun c x j => rfl) rc.zipIdx hzip ⟨none, 0⟩ ⟨le_rfl, fun _ => rfl, by simp⟩
  refine ⟨?_, fun x hx => ?_⟩
  · simpa [selectEntering] using hcand
  · obtain ⟨j, hj⟩ := List.mem_iff_getElem?.mp hx
    simpa [selectEntering] using hall (x, j) (List.mem_zipIdx_iff_getElem?.mpr (by simpa using hj))

theorem accepted_selectEntering_eq_some {rc : List ℚ} {tol : ℚ} {j : ℕ}
    (h : (selectEntering rc).accepted tol = some j) :
    ∃ x, rc[j]? = some x ∧ x < -tol ∧ x < 0 ∧ ∀ y ∈ rc, x ≤ y := by
  obtain ⟨hc, hall⟩ := selectEntering_spec rc
  unfold Entering.accepted at h
  split at h
  · next hlt =>
    obtain ⟨hj, hneg⟩ := hc.of_some j h
    exact ⟨_, hj, by simpa using hlt, hneg, hall⟩
  · cases h

theorem accepted_selectEntering_eq_none {rc : List ℚ} {tol : ℚ} (htol : 0 ≤ tol)
    (h : (selectEntering rc).accepted tol = none) : ∀ y ∈ rc, -tol ≤ y := by
  obtain ⟨hc, hall⟩ := selectEntering_spec rc
  have hmin : -tol ≤ (selectEntering rc).minReducedCost := by
    unfold Entering.accepted at h
    split at h
    · rw [hc.of_none h]
      linarith
    · next hge => simpa using hge
  exact fun y hy => hmin.trans (hall y hy)

namespace Factorization

variable (f : Factorization ℚ) (e : ℕ)

def ratio (i : ℕ) : ℚ := f.basicSolution[i]?.getD 0 / f.tableau.get i e

@[simp] theorem beats_none (q : ℚ) : beats q (none : Option (ℕ × ℚ)) = true := rfl

@[simp] theorem beats_some (q : ℚ) (r : ℕ) (b : ℚ) : beats q (some (r, b)) = decide (q < b) := by
  simp [beats]

theorem ratioStep_fst (best : Option (ℕ × ℚ)) (row : ℕ) :
    (ratioStep f e best row).1 =
      if 0 < f.tableau.get row e ∧ beats (f.ratio e row) best then some (row, f.ratio e row)
      else best := by
  unfold ratioStep
  simp only [ratio, List.getD_eq_getElem?_getD]
  split
  · next hpos =>
    have hpos' : 0 < f.tableau.get row e := by simpa using hpos
    split <;> simp_all
  · next hpos =>
    have hpos' : ¬ 0 < f.tableau.get row e := by simpa using hpos
    simp [hpos']

/-- The best row after the rows `S`: none while no row of `S` has a positive entry in column
`e`, and otherwise such a row of `S` with its ratio, the least among them. -/
def RatioBest (S : List ℕ) : Option (ℕ × ℚ) → Prop
  | none => ∀ i ∈ S, f.tableau.get i e ≤ 0
  | some (r, q) => r ∈ S ∧ 0 < f.tableau.get r e ∧ q = f.ratio e r ∧
      ∀ i ∈ S, 0 < f.tableau.get i e → q ≤ f.ratio e i

variable {f e}

theorem RatioBest.step {S : List ℕ} {best : Option (ℕ × ℚ)} (h : f.RatioBest e S best) (row : ℕ) :
    f.RatioBest e (S ++ [row]) (ratioStep f e best row).1 := by
  have hrow : row ∈ S ++ [row] := List.mem_append_right _ (List.mem_singleton_self _)
  rw [ratioStep_fst]
  cases best with
  | none =>
    by_cases hpos : 0 < f.tableau.get row e
    · rw [if_pos ⟨hpos, rfl⟩]
      refine ⟨hrow, hpos, rfl, ?_⟩
      rintro i hi hi'
      rcases List.mem_append.mp hi with hi | hi
      · exact absurd (h i hi) (not_le.mpr hi')
      · rw [List.mem_singleton.mp hi]
    · rw [if_neg (fun hw => hpos hw.1)]
      intro i hi
      rcases List.mem_append.mp hi with hi | hi
      · exact h i hi
      · exact List.mem_singleton.mp hi ▸ not_lt.mp hpos
  | some rq =>
    obtain ⟨r, q⟩ := rq
    obtain ⟨hr, hposr, rfl, hmin⟩ := h
    by_cases hwin : 0 < f.tableau.get row e ∧ f.ratio e row < f.ratio e r
    · rw [if_pos ⟨hwin.1, by simpa using hwin.2⟩]
      refine ⟨hrow, hwin.1, rfl, ?_⟩
      rintro i hi hi'
      rcases List.mem_append.mp hi with hi | hi
      · exact hwin.2.le.trans (hmin i hi hi')
      · rw [List.mem_singleton.mp hi]
    · rw [if_neg (fun hw => hwin ⟨hw.1, by simpa using hw.2⟩)]
      refine ⟨List.mem_append_left _ hr, hposr, rfl, ?_⟩
      rintro i hi hi'
      rcases List.mem_append.mp hi with hi | hi
      · exact hmin i hi hi'
      · exact not_lt.mp fun hlt => hwin ⟨List.mem_singleton.mp hi ▸ hi', List.mem_singleton.mp hi ▸ hlt⟩

theorem RatioBest.foldl {β : Type} (G : Option (ℕ × ℚ) × β → ℕ → Option (ℕ × ℚ) × β)
    (hG : ∀ s row, (G s row).1 = (ratioStep f e s.1 row).1) :
    ∀ (L S : List ℕ) (s : Option (ℕ × ℚ) × β), f.RatioBest e S s.1 →
      f.RatioBest e (S ++ L) (L.foldl G s).1
  | [], S, s, h => by simpa using h
  | row :: L, S, s, h => by
    have := RatioBest.foldl G hG L (S ++ [row]) (G s row) (by rw [hG]; exact h.step row)
    simpa using this

theorem ratioTest_best (p : StandardForm ℚ) (f : Factorization ℚ) (e : ℕ) :
    ∃ best, f.RatioBest e (List.range p.numConstraints) best ∧ (ratioTest p f e).1 = best.map (·.1) := by
  have hstart : f.RatioBest e [] (none : Option (ℕ × ℚ)) := by simp [RatioBest]
  refine ⟨_, ?_, rfl⟩
  rw [← List.nil_append (List.range p.numConstraints)]
  refine RatioBest.foldl _ ?_ _ [] _ hstart
  intro s row
  rfl

end Factorization

section Events

variable {α : Type} [Scalar α] (f : Factorization α) (e : ℕ)

/-- An event of the ratio test: the ratio of a row, or a row that becomes the leaving candidate. -/
def Event.OfRatioTest (ev : Event α) : Prop :=
  ∃ row q, ev = .ratio row q ∨ ev = .leavingCandidate row q

theorem ratioStep_events (best : Option (ℕ × α)) (row : ℕ) :
    ∀ ev ∈ (ratioStep f e best row).2, ev.OfRatioTest := by
  intro ev hev
  simp only [ratioStep] at hev
  split at hev
  · split at hev <;> simp at hev <;> rcases hev with rfl | rfl <;> simp [Event.OfRatioTest]
  · simp at hev

theorem foldl_ratioStep_events {β : Type} (G : β × List (Event α) → ℕ → β × List (Event α))
    (hG : ∀ s row, ∃ best, (G s row).2 = s.2 ++ (ratioStep f e best row).2) :
    ∀ (L : List ℕ) (s : β × List (Event α)), (∀ ev ∈ s.2, ev.OfRatioTest) →
      ∀ ev ∈ (L.foldl G s).2, ev.OfRatioTest
  | [], _, hs => hs
  | row :: L, s, hs => by
    refine foldl_ratioStep_events G hG L (G s row) fun ev hev => ?_
    obtain ⟨best, hbest⟩ := hG s row
    rw [hbest] at hev
    rcases List.mem_append.mp hev with hev | hev
    · exact hs ev hev
    · exact ratioStep_events f e best row ev hev

theorem ratioTest_events (p : StandardForm α) : ∀ ev ∈ (ratioTest p f e).2, ev.OfRatioTest := by
  unfold ratioTest
  split
  next best events hfold =>
  rw [← congrArg Prod.snd hfold]
  refine foldl_ratioStep_events f e _ ?_ _ (none, []) (by simp)
  intro s row
  exact ⟨s.1, rfl⟩

end Events

theorem ratioTest_eq_none {p : StandardForm ℚ} {f : Factorization ℚ} {e : ℕ}
    (h : (ratioTest p f e).1 = none) : ∀ i < p.numConstraints, f.tableau.get i e ≤ 0 := by
  obtain ⟨best, hbest, heq⟩ := Factorization.ratioTest_best p f e
  rw [h, eq_comm, Option.map_eq_none_iff] at heq
  subst heq
  exact fun i hi => hbest i (List.mem_range.mpr hi)

theorem ratioTest_eq_some {p : StandardForm ℚ} {f : Factorization ℚ} {e r : ℕ}
    (h : (ratioTest p f e).1 = some r) :
    r < p.numConstraints ∧ 0 < f.tableau.get r e ∧
      ∀ i < p.numConstraints, 0 < f.tableau.get i e → f.ratio e r ≤ f.ratio e i := by
  obtain ⟨best, hbest, heq⟩ := Factorization.ratioTest_best p f e
  rw [h, eq_comm, Option.map_eq_some_iff] at heq
  obtain ⟨⟨r', q⟩, rfl, rfl⟩ := heq
  obtain ⟨hr, hpos, rfl, hmin⟩ := hbest
  exact ⟨List.mem_range.mp hr, hpos, fun i hi => hmin i (List.mem_range.mpr hi)⟩

end RevisedSimplex
