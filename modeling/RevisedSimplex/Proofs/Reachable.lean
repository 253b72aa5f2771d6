import Mathlib
import RevisedSimplex.Proofs.Pivot
import RevisedSimplex.Solve

/-! # The bases a run stands on

A run of the revised method starts from the slack basis, when its basic solution is
nonnegative, and moves by pivots (`Solver.Reachable`). Every result a run returns is read off
such a basis, and every basis its trace records is the slack basis or a pivot from one
(`Solver.Ends`, `Solver.run_ends`). On an augmented problem every such basis is feasible and its
factorization exact (`Solver.Reachable.feasibleBasis`).
-/

open Matrix

namespace RevisedSimplex

def Event.RecordsNoBasis {α : Type} (ev : Event α) : Prop :=
  (∀ idx, ev ≠ .initialized idx) ∧ ∀ c r idx, ev ≠ .basisUpdated c r idx

theorem Event.OfRatioTest.recordsNoBasis {α : Type} {ev : Event α} (h : ev.OfRatioTest) :
    ev.RecordsNoBasis := by
  obtain ⟨row, q, rfl | rfl⟩ := h <;> simp [Event.RecordsNoBasis]

namespace Solver

/-- A pivot of `s` from the basis `idx` with factorization `f`: the accepted column enters in
place of the row `r` that the ratio test returns, and the indices are sorted into `idx'`. -/
def Pivots (s : Solver ℚ) (p : StandardForm ℚ) (idx : List ℕ) (f : Factorization ℚ) (r : ℕ)
    (idx' : List ℕ) : Prop :=
  ∃ e, (selectEntering f.reducedCosts).accepted s.tolerance = some e ∧ (ratioTest p f e).1 = some r ∧
    idx' = sortAscending (idx.set r e)

/-- The bases a run of `s` on `p` stands on, each with its factorization: the slack basis when
its basic solution is nonnegative, and each basis that a pivot from one of them makes and that
factorizes. -/
inductive Reachable (s : Solver ℚ) (p : StandardForm ℚ) : List ℕ → Factorization ℚ → Prop
  | slack {f : Factorization ℚ} (hf : factorize p (Basis.initial p) = some f)
      (hfeas : f.isFeasible = true) : Reachable s p (Basis.initial p).indices f
  | step {idx idx' : List ℕ} {f f' : Factorization ℚ} {r : ℕ} (h : Reachable s p idx f)
      (hpiv : s.Pivots p idx f r idx') (hf' : factorize p (Basis.ofIndices p idx') = some f') :
      Reachable s p idx' f'

/-- A record of a basis that a pivot from a basis the run stands on makes. -/
def PivotRecord (s : Solver ℚ) (p : StandardForm ℚ) (ev : Event ℚ) : Prop :=
  ∃ c r idx', ev = .basisUpdated c r idx' ∧ ∃ idx f, s.Reachable p idx f ∧ s.Pivots p idx f r idx'

/-- What a run, from the events `events` on, can end with: an optimal or unbounded result read
off a basis it stands on, never an infeasible one, and a trace whose new records of a basis are
pivots from bases it stands on. -/
structure Ends (s : Solver ℚ) (p : StandardForm ℚ) (events : List (Event ℚ)) (R : Run ℚ) : Prop where
  optimal : ∀ {value : ℚ} {sol rc : List ℚ} {k : ℕ}, R.result = .ok (.optimal value sol rc k) →
    ∃ idx f, s.Reachable p idx f ∧ (selectEntering f.reducedCosts).accepted s.tolerance = none ∧
      solution p (Basis.ofIndices p idx) f = (sol, value)
  unbounded : ∀ {value : ℚ} {sol rc : List ℚ} {k : ℕ}, R.result = .ok (.unbounded value sol rc k) →
    ∃ idx f e, s.Reachable p idx f ∧ (selectEntering f.reducedCosts).accepted s.tolerance = some e ∧
      (ratioTest p f e).1 = none ∧ solution p (Basis.ofIndices p idx) f = (sol, value)
  infeasible : R.result = .ok .infeasible →
    ∃ f, factorize p (Basis.initial p) = some f ∧ f.isFeasible = false
  trace : ∀ ev ∈ R.trace, ev ∈ events ∨ ev.RecordsNoBasis ∨ s.PivotRecord p ev

variable {s : Solver ℚ} {p : StandardForm ℚ}

theorem Ends.of_error {events : List (Event ℚ)} {R : Run ℚ} {err : SolveError}
    (hres : R.result = .error err) (htrace : ∀ ev ∈ R.trace, ev ∈ events ∨ ev.RecordsNoBasis) :
    s.Ends p events R where
  optimal h := by simp [hres] at h
  unbounded h := by simp [hres] at h
  infeasible h := by simp [hres] at h
  trace ev hev := (htrace ev hev).elim .inl fun h => .inr (.inl h)

theorem Ends.of_events {events events' : List (Event ℚ)} {R : Run ℚ} (h : s.Ends p events' R)
    (hev : ∀ ev ∈ events', ev ∈ events ∨ ev.RecordsNoBasis ∨ s.PivotRecord p ev) :
    s.Ends p events R where
  optimal := h.optimal
  unbounded := h.unbounded
  infeasible := h.infeasible
  trace ev hmem := (h.trace ev hmem).elim (hev ev) .inr

theorem loop_ends (limit : ℕ) :
    ∀ (fuel : ℕ) {idx : List ℕ} {f : Factorization ℚ} (count : ℕ) (events : List (Event ℚ)),
      s.Reachable p idx f →
      s.Ends p events (s.loop p limit fuel (Basis.ofIndices p idx) f
        (solution p (Basis.ofIndices p idx) f) count events)
  | 0, idx, f, count, events, _ => Ends.of_error rfl fun ev hev => .inl (List.mem_reverse.mp hev)
  | fuel + 1, idx, f, count, events, hreach => by
    rw [solution, Solver.loop]
    split
    · next he =>
      refine ⟨fun h => ⟨idx, f, hreach, he, ?_⟩, fun h => by simp at h, fun h => by simp at h,
        fun ev hev => ?_⟩
      · simp only [Except.ok.injEq, Outcome.optimal.injEq] at h
        obtain ⟨rfl, rfl, -, -⟩ := h
        rfl
      · simp only [List.reverse_cons, List.mem_append, List.mem_reverse, List.mem_singleton] at hev
        rcases hev with (hev | rfl) | rfl
        · exact .inl hev
        all_goals exact .inr (.inl (by simp [Event.RecordsNoBasis]))
    · next e he =>
      split
      · refine Ends.of_error rfl fun ev hev => ?_
        simp only [List.reverse_cons, List.mem_append, List.mem_reverse, List.mem_singleton] at hev
        rcases hev with hev | rfl
        · exact .inl hev
        · exact .inr (by simp [Event.RecordsNoBasis])
      · split
        next leaving ratios hrt =>
        have hratios : ∀ ev ∈ ratios, ev.RecordsNoBasis := fun ev hev =>
          (ratioTest_events f e p ev (by rw [hrt]; exact hev)).recordsNoBasis
        have hiter : ∀ ev ∈ ratios.reverse ++ .iterationStarted (count + 1) e ::
            .reducedCosts (selectEntering f.reducedCosts).minReducedCost f.reducedCosts :: events,
            ev ∈ events ∨ ev.RecordsNoBasis := by
          intro ev hev
          simp only [List.mem_append, List.mem_reverse, List.mem_cons] at hev
          rcases hev with hev | rfl | rfl | hev
          · exact .inr (hratios ev hev)
          · exact .inr (by simp [Event.RecordsNoBasis])
          · exact .inr (by simp [Event.RecordsNoBasis])
          · exact .inl hev
        split
        · refine ⟨fun h => by simp at h, fun h => ⟨idx, f, e, hreach, he, by rw [hrt], ?_⟩,
            fun h => by simp at h, fun ev hev => ?_⟩
          · simp only [Except.ok.injEq, Outcome.unbounded.injEq] at h
            obtain ⟨rfl, rfl, -, -⟩ := h
            rfl
          · simp only [List.mem_reverse, List.mem_cons] at hev
            rcases hev with rfl | hev
            · exact .inr (.inl (by simp [Event.RecordsNoBasis]))
            · exact (hiter ev hev).elim .inl fun h => .inr (.inl h)
        · next _ r =>
          have hpiv : s.Pivots p idx f r (sortAscending (idx.set r e)) := ⟨e, he, by rw [hrt], rfl⟩
          -- the new record is a pivot from this basis; the rest record no basis
          have hrec : ∀ ev ∈ Event.basisUpdated (count + 1) r (sortAscending (idx.set r e)) ::
              (ratios.reverse ++ .iterationStarted (count + 1) e ::
                .reducedCosts (selectEntering f.reducedCosts).minReducedCost f.reducedCosts :: events),
              ev ∈ events ∨ ev.RecordsNoBasis ∨ s.PivotRecord p ev := by
            intro ev hev
            rcases List.mem_cons.mp hev with rfl | hev
            · exact .inr (.inr ⟨_, _, _, rfl, idx, f, hreach, hpiv⟩)
            · exact (hiter ev hev).elim .inl fun h => .inr (.inl h)
          dsimp only
          split
          · refine ⟨fun h => by simp at h, fun h => by simp at h, fun h => by simp at h,
              fun ev hev => ?_⟩
            exact hrec ev (List.mem_reverse.mp hev)
          · next f' hf' =>
            exact (loop_ends limit fuel (count + 1) _ (.step hreach hpiv hf')).of_events hrec

/-- A run ends with a result read off a basis it stands on, and records the slack basis and
pivots from bases it stands on. -/
theorem run_ends (prog : LinearProgram ℚ) :
    s.Ends prog.standardize [.initialized (Basis.initial prog.standardize).indices] (s.run prog) := by
  rw [Solver.run]
  split
  · exact Ends.of_error rfl fun ev hev => .inl hev
  · next f hf =>
    split
    · next hfeas =>
      refine ⟨fun h => by simp at h, fun h => by simp at h,
        fun _ => ⟨f, hf, by simpa using hfeas⟩, fun ev hev => ?_⟩
      simp only [List.cons_append, List.nil_append, List.mem_cons, List.not_mem_nil, or_false] at hev
      rcases hev with rfl | rfl
      · exact .inl (List.mem_singleton_self _)
      · exact .inr (.inl (by simp [Event.RecordsNoBasis]))
    · next hfeas =>
      exact loop_ends _ (_ + 1) 0 _ (.slack hf (by simpa using hfeas))

end Solver

theorem Factorization.isFeasible_iff (f : Factorization ℚ) :
    f.isFeasible = true ↔ ∀ x ∈ f.basicSolution, 0 ≤ x := by
  simp [Factorization.isFeasible]

theorem Factorization.Exact.nonneg_of_isFeasible {p : StandardForm ℚ} {idx : List ℕ}
    {f : Factorization ℚ} (hf : f.Exact p idx) (hfeas : f.isFeasible = true) :
    0 ≤ (p.basisMatrix idx)⁻¹ *ᵥ p.rhsVector := by
  rw [← hf.inverse_eq, ← hf.basicSolution]
  intro k
  have hk : (k : ℕ) < f.basicSolution.length := by
    rw [hf.length_basicSolution]
    exact k.2
  rw [Pi.zero_apply, vecOf_apply, List.getElem?_eq_getElem hk, Option.getD_some]
  exact (f.isFeasible_iff.mp hfeas) _ (List.getElem_mem hk)

theorem Factorization.Exact.reducedCost_of_accepted {p : StandardForm ℚ} {idx : List ℕ}
    {f : Factorization ℚ} (hf : f.Exact p idx) {tol : ℚ} {e : ℕ}
    (he : (selectEntering f.reducedCosts).accepted tol = some e) :
    ∃ hlt : e < p.numColumns, vecOf f.reducedCosts p.numColumns ⟨e, hlt⟩ < 0 := by
  obtain ⟨x, hx, -, hneg, -⟩ := accepted_selectEntering_eq_some he
  have hlt : e < p.numColumns := by
    rw [← hf.length_reducedCosts]
    exact (List.getElem?_eq_some_iff.mp hx).1
  exact ⟨hlt, by simpa [hx] using hneg⟩

/-- A pivot from a feasible basis makes a feasible basis. -/
theorem Solver.Pivots.feasibleBasis {s : Solver ℚ} {p : StandardForm ℚ} {idx idx' : List ℕ}
    {f : Factorization ℚ} {r : ℕ} (hpiv : s.Pivots p idx f r idx') (hB : p.FeasibleBasis idx)
    (hf : f.Exact p idx) : p.FeasibleBasis idx' := by
  obtain ⟨e, he, hr, rfl⟩ := hpiv
  obtain ⟨hlt, hrc⟩ := hf.reducedCost_of_accepted he
  exact hB.pivot hf hrc hr

theorem LinearProgram.pairwise_lt_initial (prog : LinearProgram ℚ) :
    (Basis.initial prog.standardize).indices.Pairwise (· < ·) := by
  rw [LinearProgram.initial_indices, List.pairwise_map]
  exact List.pairwise_lt_range.imp (by omega)

theorem LinearProgram.feasibleBasis_initial (prog : LinearProgram ℚ) (hb : ∀ x ∈ prog.rhs, 0 ≤ x) :
    prog.standardize.FeasibleBasis (Basis.initial prog.standardize).indices where
  sorted := prog.pairwise_lt_initial
  distinct := prog.distinctColumns_initial
  det_ne_zero := by
    rw [prog.basisMatrix_initial, det_one]
    exact one_ne_zero
  nonneg := by
    rw [prog.basisMatrix_initial, inv_one, one_mulVec]
    intro k
    have hk : (k : ℕ) < prog.rhs.length := k.2
    rw [Pi.zero_apply, StandardForm.rhsVector, vecOf_apply, LinearProgram.rhs_standardize,
      List.getElem?_eq_getElem hk, Option.getD_some]
    exact hb _ (List.getElem_mem hk)

/-- On an augmented problem every basis a run stands on is feasible, and its factorization is
exact. -/
theorem Solver.Reachable.feasibleBasis {s : Solver ℚ} {prog : LinearProgram ℚ} {idx : List ℕ}
    {f : Factorization ℚ} (h : s.Reachable prog.standardize idx f) :
    prog.standardize.FeasibleBasis idx ∧ f.Exact prog.standardize idx := by
  induction h with
  | slack hf hfeas =>
    have hex := factorize_exact prog.shaped_standardize prog.distinctColumns_initial.length_eq hf
    exact ⟨⟨prog.pairwise_lt_initial, prog.distinctColumns_initial, hex.det_ne_zero,
      hex.nonneg_of_isFeasible hfeas⟩, hex⟩
  | step _ hpiv hf' ih =>
    have hB' := hpiv.feasibleBasis ih.1 ih.2
    exact ⟨hB', factorize_exact prog.shaped_standardize hB'.distinct.length_eq hf'⟩

end RevisedSimplex
