import Mathlib
import RevisedSimplex.Proofs.Pivot
import RevisedSimplex.Proofs.RevisedCorrectness

/-! # The iteration cap

A cap of `k` iterations changes a run only at its `k + 1`-th accepted column: up to there the
capped run makes the same rounds as the run without a cap, and there it stops with the cap's
error and the events recorded so far (`Run.cut`, `Solver.run_eq_cut`). A run without a cap is a
run capped at `2 ^ (n + 2m)` iterations, more than there are sorted lists of `m` columns; when
it reaches that cap it has come back to a basis it left, and from there it repeats its rounds
for ever (`Solver.atCap_of_atCap_uncapped`). Together they give `Solver.capped_run_eq_cut`.
Nothing here depends on the numbers: the statements hold for every `Scalar`, binary floating
point among them.
-/

namespace RevisedSimplex

variable {α : Type}

/-- Whether an event starts an iteration. -/
def Event.startsIteration : Event α → Bool
  | .iterationStarted _ _ => true
  | _ => false

/-- The events recorded before the `k + 1`-th iteration starts; all of them when fewer
iterations start. -/
def beforeIteration : ℕ → List (Event α) → List (Event α)
  | _, [] => []
  | k, ev :: evs =>
    if ev.startsIteration then
      match k with
      | 0 => []
      | k + 1 => ev :: beforeIteration k evs
    else ev :: beforeIteration k evs

theorem beforeIteration_of_countP_le :
    ∀ {k : ℕ} {evs : List (Event α)}, evs.countP Event.startsIteration ≤ k →
      beforeIteration k evs = evs
  | _, [], _ => rfl
  | k, ev :: evs, h => by
    rw [List.countP_cons] at h
    cases hev : ev.startsIteration with
    | false =>
      rw [hev] at h
      simp [beforeIteration, hev, beforeIteration_of_countP_le (by simpa using h)]
    | true =>
      rw [hev, if_pos rfl] at h
      obtain ⟨k, rfl⟩ : ∃ j, k = j + 1 := ⟨k - 1, by omega⟩
      have hle : evs.countP Event.startsIteration ≤ k := by omega
      simp [beforeIteration, hev, beforeIteration_of_countP_le hle]

theorem beforeIteration_append :
    ∀ {k : ℕ} (evs rest : List (Event α)), evs.countP Event.startsIteration = k →
      ∀ ev, ev.startsIteration = true → beforeIteration k (evs ++ ev :: rest) = evs
  | _, [], rest, rfl, ev, hev => by simp [beforeIteration, hev]
  | k, e :: evs, rest, h, ev, hev => by
    rw [List.countP_cons] at h
    cases he : e.startsIteration with
    | false =>
      rw [he] at h
      simp [beforeIteration, he, beforeIteration_append evs rest (by simpa using h) ev hev]
    | true =>
      rw [he, if_pos rfl] at h
      subst h
      simp [beforeIteration, he, beforeIteration_append evs rest rfl ev hev]

namespace Run

/-- Whether a run stopped because a column was accepted at the cap. -/
def atCap (r : Run α) : Bool :=
  match r.result with
  | .error (.iterationLimit _) => true
  | _ => false

/-- The number of iterations a run started. -/
def iterations (r : Run α) : ℕ := r.trace.countP Event.startsIteration

/-- What a cap of `k` iterations leaves of a run: the run itself when it stopped on its own after
at most `k` iterations, and otherwise the cap's error with the events before the `k + 1`-th
iteration. -/
def cut (k : ℕ) (r : Run α) : Run α :=
  if r.atCap = false ∧ r.iterations ≤ k then r
  else ⟨.error (.iterationLimit k), beforeIteration k r.trace⟩

theorem cut_of_le {r : Run α} {k : ℕ} (h : r.atCap = false) (hk : r.iterations ≤ k) :
    r.cut k = r := if_pos ⟨h, hk⟩

theorem eq_of_cut_eq {r r' : Run α} {k : ℕ} (h : r.cut k = r') (h' : r'.atCap = false) :
    r' = r ∧ r.iterations ≤ k := by
  unfold cut at h
  split at h
  · next hle => exact ⟨h.symm, hle.2⟩
  · subst h
    simp [atCap] at h'

theorem cut_of_not {r : Run α} {k : ℕ} (h : ¬ (r.atCap = false ∧ r.iterations ≤ k)) :
    r.cut k = ⟨.error (.iterationLimit k), beforeIteration k r.trace⟩ := if_neg h

theorem cut_of_trace {r : Run α} {k : ℕ} {evs rest : List (Event α)} {ev : Event α}
    (hk : evs.countP Event.startsIteration = k) (hev : ev.startsIteration = true)
    (h : r.trace = evs ++ ev :: rest) : r.cut k = ⟨.error (.iterationLimit k), evs⟩ := by
  have hlt : k < r.iterations := by
    simp only [iterations, h, List.countP_append, List.countP_cons, hev, if_true]
    omega
  rw [cut_of_not fun hle => absurd hle.2 (by omega), h, beforeIteration_append evs rest hk ev hev]

end Run

namespace Solver

variable [Scalar α] (s : Solver α) (p : StandardForm α)

theorem loop_succ (L F : ℕ) (b : Basis α) (f : Factorization α) (vals : List α) (v : α) (c : ℕ)
    (ev : List (Event α)) :
    s.loop p L (F + 1) b f (vals, v) c ev =
      let rc := Event.reducedCosts (selectEntering f.reducedCosts).minReducedCost f.reducedCosts
      match (selectEntering f.reducedCosts).accepted s.tolerance with
      | none => ⟨.ok (.optimal v vals f.reducedCosts c), ev.reverse ++ [rc, .optimal c v]⟩
      | some e =>
        if L ≤ c then ⟨.error (.iterationLimit c), ev.reverse ++ [rc]⟩
        else
          match (ratioTest p f e).1 with
          | none => ⟨.ok (.unbounded v vals f.reducedCosts (c + 1)),
              ev.reverse ++ rc :: .iterationStarted (c + 1) e :: (ratioTest p f e).2 ++
                [.unbounded (c + 1)]⟩
          | some r =>
            match factorize p (b.replace r e p) with
            | none => ⟨.error (.singularBasis (b.replace r e p).indices),
                ev.reverse ++ rc :: .iterationStarted (c + 1) e :: (ratioTest p f e).2 ++
                  [.basisUpdated (c + 1) r (b.replace r e p).indices]⟩
            | some f' => s.loop p L F (b.replace r e p) f' (solution p (b.replace r e p) f') (c + 1)
                (.basisUpdated (c + 1) r (b.replace r e p).indices :: ((ratioTest p f e).2.reverse ++
                  .iterationStarted (c + 1) e :: rc :: ev)) := by
  rw [Solver.loop]
  cases hacc : (selectEntering f.reducedCosts).accepted s.tolerance with
  | none => simp
  | some e =>
    by_cases hc : L ≤ c
    · simp [hc]
    · rcases hrt : ratioTest p f e with ⟨_ | r, ratios⟩
      · simp [hc, hrt]
      · cases hf : factorize p (b.replace r e p) <;> simp [hc, hrt, hf]

theorem loop_eq_of_tolerance {s s' : Solver α} (h : s.tolerance = s'.tolerance) (L : ℕ) :
    ∀ (F : ℕ) (b : Basis α) (f : Factorization α) (sv : List α × α) (c : ℕ) (ev : List (Event α)),
      s.loop p L F b f sv c ev = s'.loop p L F b f sv c ev
  | 0, _, _, _, _, _ => rfl
  | F + 1, b, f, (vals, v), c, ev => by
    simp only [loop_succ, h, loop_eq_of_tolerance h L F]

theorem loop_trace_starts_with (L : ℕ) :
    ∀ (F : ℕ) (b : Basis α) (f : Factorization α) (vals : List α) (v : α) (c : ℕ)
      (ev : List (Event α)), ev.reverse <+: (s.loop p L F b f (vals, v) c ev).trace
  | 0, _, _, _, _, _, ev => List.prefix_refl _
  | F + 1, b, f, vals, v, c, ev => by
    rw [loop_succ]
    cases (selectEntering f.reducedCosts).accepted s.tolerance with
    | none => exact List.prefix_append _ _
    | some e =>
      dsimp only
      split
      · exact List.prefix_append _ _
      · split
        · exact (List.prefix_append _ _).trans (List.prefix_append _ _)
        · split
          · exact (List.prefix_append _ _).trans (List.prefix_append _ _)
          · refine List.IsPrefix.trans ?_ (loop_trace_starts_with L F _ _ _ _ (c + 1) _)
            simp

theorem loop_trace_of_accepted {L F : ℕ} {b : Basis α} {f : Factorization α} {vals : List α} {v : α}
    {c e : ℕ} {ev : List (Event α)} (hacc : (selectEntering f.reducedCosts).accepted s.tolerance = some e)
    (hc : c < L) :
    ev.reverse ++ [.reducedCosts (selectEntering f.reducedCosts).minReducedCost f.reducedCosts,
      .iterationStarted (c + 1) e] <+: (s.loop p L (F + 1) b f (vals, v) c ev).trace := by
  rw [loop_succ]
  simp only [hacc, if_neg (Nat.not_le.mpr hc)]
  split
  · simp
  · split
    · simp
    · refine List.IsPrefix.trans ?_ (loop_trace_starts_with s p L F _ _ _ _ (c + 1) _)
      simp

@[simp] theorem countP_ratioTest (f : Factorization α) (e : ℕ) :
    (ratioTest p f e).2.countP Event.startsIteration = 0 :=
  List.countP_eq_zero.mpr fun ev hev => by
    obtain ⟨row, q, rfl | rfl⟩ := ratioTest_events f e p ev hev <;> simp [Event.startsIteration]

theorem loop_eq_cut (s s' : Solver α) (htol : s.tolerance = s'.tolerance) {L L' : ℕ} (hL : L ≤ L') :
    ∀ (F F' : ℕ) (b : Basis α) (f : Factorization α) (vals : List α) (v : α) (c : ℕ)
      (ev : List (Event α)), c ≤ L → L - c < F → L' - c < F' →
      ev.countP Event.startsIteration = c →
      s.loop p L F b f (vals, v) c ev = (s'.loop p L' F' b f (vals, v) c ev).cut L
  | 0, _, _, _, _, _, _, _, _, hF, _, _ => absurd hF (Nat.not_lt_zero _)
  | _, 0, _, _, _, _, _, _, _, _, hF', _ => absurd hF' (Nat.not_lt_zero _)
  | F + 1, F' + 1, b, f, vals, v, c, ev, hc, hF, hF', hev => by
    rw [loop_succ s p L F]
    cases hacc : (selectEntering f.reducedCosts).accepted s.tolerance with
    | none =>
      rw [loop_succ s' p L' F', ← htol, hacc]
      refine (Run.cut_of_le rfl ?_).symm
      simpa [Run.iterations, hev, Event.startsIteration] using hc
    | some e =>
      dsimp only
      by_cases hcL : L ≤ c
      · -- the capped loop stops here, with `c = L` iterations done
        obtain rfl : c = L := by omega
        rw [if_pos hcL]
        by_cases hcL' : L' ≤ c
        · rw [loop_succ s' p L' F', ← htol, hacc]
          dsimp only
          rw [if_pos hcL', Run.cut_of_not (by simp [Run.atCap]), beforeIteration_of_countP_le]
          simp [hev, Event.startsIteration]
        · -- the other loop goes on into iteration `c + 1`
          have hgo : ev.reverse ++ [.reducedCosts (selectEntering f.reducedCosts).minReducedCost
              f.reducedCosts, .iterationStarted (c + 1) e] <+: (s'.loop p L' (F' + 1) b f (vals, v) c ev).trace :=
            loop_trace_of_accepted s' p (by rwa [← htol]) (Nat.lt_of_not_le hcL')
          obtain ⟨rest, hrest⟩ := hgo
          have hcount : (ev.reverse ++ [Event.reducedCosts (selectEntering f.reducedCosts).minReducedCost
              f.reducedCosts]).countP Event.startsIteration = c := by
            simp [hev, Event.startsIteration]
          have hsplit : (s'.loop p L' (F' + 1) b f (vals, v) c ev).trace =
              (ev.reverse ++ [Event.reducedCosts (selectEntering f.reducedCosts).minReducedCost
                f.reducedCosts]) ++ Event.iterationStarted (c + 1) e :: rest := by
            rw [← hrest]
            simp
          rw [Run.cut_of_trace hcount (by rfl) hsplit]
      · rw [if_neg hcL, loop_succ s' p L' F', ← htol, hacc]
        dsimp only
        rw [if_neg (by omega)]
        cases hr : (ratioTest p f e).1 with
        | none =>
          refine (Run.cut_of_le rfl ?_).symm
          simp [Run.iterations, hev, Event.startsIteration, List.countP_cons, List.countP_append]
          omega
        | some r =>
          dsimp only
          cases hf : factorize p (b.replace r e p) with
          | none =>
            refine (Run.cut_of_le rfl ?_).symm
            simp [Run.iterations, hev, Event.startsIteration, List.countP_cons, List.countP_append]
            omega
          | some f' =>
            exact loop_eq_cut s s' htol hL F F' _ f' _ _ (c + 1) _ (by omega) (by omega) (by omega)
              (by simp [hev, Event.startsIteration, List.countP_cons])

theorem loop_last_of_atCap {L : ℕ} :
    ∀ (F : ℕ) (b : Basis α) (f : Factorization α) (vals : List α) (v : α) (c : ℕ)
      (ev : List (Event α)), c ≤ L → L - c < F →
      (s.loop p L F b f (vals, v) c ev).atCap = true →
      ∃ μ rc, (s.loop p L F b f (vals, v) c ev).trace.getLast? = some (.reducedCosts μ rc)
  | 0, _, _, _, _, _, _, _, hF, _ => absurd hF (Nat.not_lt_zero _)
  | F + 1, b, f, vals, v, c, ev, hc, hF, hcap => by
    rw [loop_succ] at hcap ⊢
    cases hacc : (selectEntering f.reducedCosts).accepted s.tolerance with
    | none => simp [hacc, Run.atCap] at hcap
    | some e =>
      simp only [hacc] at hcap ⊢
      by_cases hcL : L ≤ c
      · simp [hcL]
      · simp only [hcL, if_false] at hcap ⊢
        cases hr : (ratioTest p f e).1 with
        | none => simp [hr, Run.atCap] at hcap
        | some r =>
          simp only [hr] at hcap ⊢
          cases hf : factorize p (b.replace r e p) with
          | none => simp [hf, Run.atCap] at hcap
          | some f' =>
            simp only [hf] at hcap ⊢
            exact loop_last_of_atCap F _ f' _ _ (c + 1) _ (by omega) (by omega) hcap

end Solver

namespace Solver

variable [Scalar α] (tol : α) (prog : LinearProgram α)

/-- A cap of `k` iterations is a cap of `k' ≥ k` iterations followed by the cut at `k`. -/
theorem run_eq_cut {k k' : ℕ} (hk : k ≤ k') :
    (Solver.mk tol (some k)).run prog =
      ((Solver.mk tol (some k')).run prog).cut k := by
  simp only [Solver.run, Option.getD_some]
  cases factorize prog.standardize (Basis.initial prog.standardize) with
  | none => exact (Run.cut_of_le rfl (by simp [Run.iterations, Event.startsIteration])).symm
  | some f =>
    dsimp only
    split
    · exact (Run.cut_of_le rfl (by simp [Run.iterations, Event.startsIteration])).symm
    · refine loop_eq_cut _ (Solver.mk tol (some k)) (Solver.mk tol (some k')) rfl hk (k + 1)
        (k' + 1) _ f _ _ 0 _
        (Nat.zero_le k) (by omega) (by omega) ?_
      simp [Event.startsIteration]

theorem run_uncapped :
    (Solver.mk tol none).run prog =
      (Solver.mk tol (some (2 ^ (prog.numVariables + 2 * prog.numConstraints)))).run prog := by
  simp only [Solver.run]
  cases factorize prog.standardize (Basis.initial prog.standardize) with
  | none => rfl
  | some f =>
    dsimp only
    split
    · rfl
    · apply loop_eq_of_tolerance
      rfl

theorem run_last_of_atCap {k : ℕ} (h : ((Solver.mk tol (some k)).run prog).atCap = true) :
    ∃ μ rc, ((Solver.mk tol (some k)).run prog).trace.getLast? =
      some (.reducedCosts μ rc) := by
  revert h
  simp only [Solver.run, Option.getD_some]
  cases factorize prog.standardize (Basis.initial prog.standardize) with
  | none => simp [Run.atCap]
  | some f =>
    dsimp only
    split
    · simp [Run.atCap]
    · exact loop_last_of_atCap _ _ (k + 1) _ f _ _ 0 _ (Nat.zero_le k) (by omega)

end Solver

@[simp] theorem Basis.replace_ofIndices [Scalar α] (p : StandardForm α) (idx : List ℕ) (r e : ℕ) :
    (Basis.ofIndices p idx).replace r e p = Basis.ofIndices p (sortAscending (idx.set r e)) := rfl

theorem selectEntering_column_lt [Scalar α] {rc : List α} {j : ℕ}
    (h : (selectEntering rc).column = some j) : j < rc.length := by
  have key : ∀ (L : List (α × ℕ)) (c : Entering α), (∀ q ∈ L, q.2 < rc.length) →
      (∀ j, c.column = some j → j < rc.length) → ∀ j,
        (L.foldl (fun c (q : α × ℕ) => if q.1 < c.minReducedCost then ⟨some q.2, q.1⟩ else c)
          c).column = some j → j < rc.length := by
    intro L
    induction L with
    | nil => exact fun c _ hc => hc
    | cons q L ih =>
      intro c hL hc
      refine ih _ (fun q' hq' => hL q' (List.mem_cons_of_mem _ hq')) fun j hj => ?_
      dsimp only at hj
      split at hj
      · simp only [Option.some.injEq] at hj
        exact hj ▸ hL q List.mem_cons_self
      · exact hc j hj
  refine key rc.zipIdx ⟨none, 0⟩ (fun ⟨x, i⟩ hq => ?_) (by simp) j h
  simpa using (List.mem_zipIdx hq).2.1

theorem Entering.column_of_accepted [Scalar α] {c : Entering α} {tol : α} {e : ℕ}
    (h : c.accepted tol = some e) : c.column = some e := by
  unfold Entering.accepted at h
  split at h
  · exact h
  · cases h

theorem length_reducedCosts [Scalar α] {p : StandardForm α} {b : Basis α} {f : Factorization α}
    (h : factorize p b = some f) :
    f.reducedCosts.length = min p.costs.length p.constraints.cols := by
  unfold factorize at h
  obtain ⟨inv, -, rfl⟩ := Option.map_eq_some_iff.mp h
  simp [Matrix.length_vecMul_eq_cols, Matrix.mul]

theorem length_reducedCosts_le [Scalar α] {p : StandardForm α} {b : Basis α} {f : Factorization α}
    (h : factorize p b = some f) : f.reducedCosts.length ≤ p.costs.length :=
  (length_reducedCosts h).trans_le (min_le_left _ _)

/-- The sorted lists of `m` columns below `N`: the bases a run can stand on. -/
structure SortedColumns (m N : ℕ) (idx : List ℕ) : Prop where
  sorted : idx.Pairwise (· ≤ ·)
  length_eq : idx.length = m
  lt : ∀ x ∈ idx, x < N

theorem SortedColumns.sort_set {m N : ℕ} {idx : List ℕ} (h : SortedColumns m N idx) (r : ℕ) {e : ℕ}
    (he : e < N) : SortedColumns m N (sortAscending (idx.set r e)) where
  sorted := pairwise_le_sortAscending _
  length_eq := by rw [(sortAscending_perm _).length_eq, List.length_set, h.length_eq]
  lt x hx := by
    rcases List.mem_or_eq_of_mem_set ((sortAscending_perm _).subset hx) with hx | rfl
    · exact h.lt x hx
    · exact he

theorem exists_eq_of_sortedColumns {g : ℕ → Option (List ℕ)} {m N B : ℕ}
    (hB : (N + m - 1).choose m ≤ B) (hg : ∀ t ≤ B, ∃ idx, g t = some idx ∧ SortedColumns m N idx) :
    ∃ a b, a < b ∧ b ≤ B ∧ g a = g b := by
  classical
  let T : Finset (Multiset ℕ) :=
    Finset.univ.image fun x : Sym (Fin N) m => (x : Multiset (Fin N)).map Fin.val
  have hcard : T.card < (Finset.range (B + 1)).card := by
    calc T.card ≤ (Finset.univ : Finset (Sym (Fin N) m)).card := Finset.card_image_le
      _ = (N + m - 1).choose m := by rw [Finset.card_univ, Sym.card_sym_eq_choose, Fintype.card_fin]
      _ < B + 1 := Nat.lt_succ_of_le hB
      _ = (Finset.range (B + 1)).card := (Finset.card_range _).symm
  have hmaps : ∀ t ∈ Finset.range (B + 1), (((g t).getD []  : List ℕ) : Multiset ℕ) ∈ T := by
    intro t ht
    obtain ⟨idx, hgt, hidx⟩ := hg t (Nat.lt_succ_iff.mp (Finset.mem_range.mp ht))
    rw [hgt, Option.getD_some]
    refine Finset.mem_image.mpr ⟨⟨(idx.pmap Fin.mk hidx.lt : List (Fin N)), ?_⟩, Finset.mem_univ _, ?_⟩
    · simp [hidx.length_eq]
    · simp [List.map_pmap]
  obtain ⟨a, ha, b, hb, hne, hab⟩ := Finset.exists_ne_map_eq_of_card_lt_of_maps_to hcard hmaps
  -- the same multiset of sorted columns is the same list
  have heq : ∀ {x y : ℕ}, x ≤ B → y ≤ B →
      (((g x).getD [] : List ℕ) : Multiset ℕ) = ((g y).getD [] : List ℕ) → g x = g y := by
    intro x y hx hy hxy
    obtain ⟨ix, hgx, hix⟩ := hg x hx
    obtain ⟨iy, hgy, hiy⟩ := hg y hy
    rw [hgx, hgy, Option.getD_some, Option.getD_some, Multiset.coe_eq_coe] at hxy
    rw [hgx, hgy, hxy.eq_of_pairwise' hix.sorted hiy.sorted]
  have ha' := Nat.lt_succ_iff.mp (Finset.mem_range.mp ha)
  have hb' := Nat.lt_succ_iff.mp (Finset.mem_range.mp hb)
  rcases Nat.lt_or_gt_of_ne hne with hlt | hlt
  · exact ⟨a, b, hlt, hb', heq ha' hb' hab⟩
  · exact ⟨b, a, hlt, ha', (heq ha' hb' hab).symm⟩

theorem iterate_ne_none_of_eq {β : Type} {F : Option β → Option β} (hF : F none = none)
    {x : Option β} {a b : ℕ} (hab : a < b) (hrep : F^[a] x = F^[b] x) (hb : F^[b] x ≠ none) :
    ∀ t, F^[t] x ≠ none := by
  intro t
  induction t using Nat.strong_induction_on with
  | _ t ih =>
    by_cases htb : t ≤ b
    · intro ht
      apply hb
      rw [show b = (b - t) + t by omega, Function.iterate_add_apply, ht]
      exact Function.iterate_fixed hF _
    · rw [show t = (t - b) + b by omega, Function.iterate_add_apply, ← hrep,
        ← Function.iterate_add_apply]
      exact ih _ (by omega)

namespace Solver

variable [Scalar α] (s : Solver α) (p : StandardForm α)

/-- The basis after one round from the basis `idx`, when the round accepts a column, the ratio
test finds its leaving row and the sorted new basis factorizes. -/
def advance (idx : List ℕ) : Option (List ℕ) :=
  (factorize p (Basis.ofIndices p idx)).bind fun f =>
    ((selectEntering f.reducedCosts).accepted s.tolerance).bind fun e =>
      (ratioTest p f e).1.bind fun r =>
        (factorize p (Basis.ofIndices p (sortAscending (idx.set r e)))).map fun _ =>
          sortAscending (idx.set r e)

/-- The rounds of a run on its bases, `none` once a round makes no new basis. -/
def walk (o : Option (List ℕ)) : Option (List ℕ) := o.bind (s.advance p)

/-- Whether the round from the basis `idx` accepts a column. -/
def Accepts (idx : List ℕ) : Prop :=
  ∃ f, factorize p (Basis.ofIndices p idx) = some f ∧
    ((selectEntering f.reducedCosts).accepted s.tolerance).isSome

theorem walk_iterate_none (t : ℕ) : (s.walk p)^[t] none = none :=
  Function.iterate_fixed rfl t

theorem accepts_of_advance {idx idx' : List ℕ} (h : s.advance p idx = some idx') : s.Accepts p idx := by
  simp only [advance, Option.bind_eq_some_iff] at h
  obtain ⟨f, hf, e, he, -⟩ := h
  exact ⟨f, hf, by simp [he]⟩

theorem loop_atCap_iff {L : ℕ} :
    ∀ (F : ℕ) (idx : List ℕ) (f : Factorization α) (vals : List α) (v : α) (c : ℕ)
      (ev : List (Event α)), factorize p (Basis.ofIndices p idx) = some f → c ≤ L → L - c < F →
      ((s.loop p L F (Basis.ofIndices p idx) f (vals, v) c ev).atCap = true ↔
        ∃ idx', (s.walk p)^[L - c] (some idx) = some idx' ∧ s.Accepts p idx')
  | 0, _, _, _, _, _, _, _, _, hF => absurd hF (Nat.not_lt_zero _)
  | F + 1, idx, f, vals, v, c, ev, hf, hc, hF => by
    -- a round that makes no new basis ends the walk before the cap
    have hstop : s.advance p idx = none → c < L →
        ¬ ∃ idx', (s.walk p)^[L - c] (some idx) = some idx' ∧ s.Accepts p idx' := by
      rintro hadv hcL ⟨idx', hw, -⟩
      rw [show L - c = (L - (c + 1)) + 1 by omega, Function.iterate_succ_apply] at hw
      simp [walk, hadv, walk_iterate_none] at hw
    rw [loop_succ]
    cases hacc : (selectEntering f.reducedCosts).accepted s.tolerance with
    | none =>
      simp only [Run.atCap, Bool.false_eq_true, false_iff]
      rintro ⟨idx', hw, f', hf', hacc'⟩
      rcases Nat.lt_or_ge c L with hcL | hcL
      · exact hstop (by simp [advance, hf, hacc]) hcL ⟨idx', hw, f', hf', hacc'⟩
      · rw [show L - c = 0 by omega, Function.iterate_zero_apply, Option.some.injEq] at hw
        subst hw
        rw [hf, Option.some.injEq] at hf'
        subst hf'
        simp [hacc] at hacc'
    | some e =>
      dsimp only
      by_cases hcL : L ≤ c
      · rw [if_pos hcL, show L - c = 0 by omega]
        exact iff_of_true rfl ⟨idx, rfl, f, hf, by simp [hacc]⟩
      · rw [if_neg hcL]
        cases hr : (ratioTest p f e).1 with
        | none =>
          exact iff_of_false (by simp [Run.atCap]) (hstop (by simp [advance, hf, hacc, hr]) (by omega))
        | some r =>
          dsimp only
          rw [Basis.replace_ofIndices]
          cases hf' : factorize p (Basis.ofIndices p (sortAscending (idx.set r e))) with
          | none =>
            exact iff_of_false (by simp [Run.atCap])
              (hstop (by simp [advance, hf, hacc, hr, hf']) (by omega))
          | some f' =>
            dsimp only
            rw [loop_atCap_iff F _ f' _ _ (c + 1) _ hf' (by omega) (by omega),
              show L - c = (L - (c + 1)) + 1 by omega, Function.iterate_succ_apply]
            have hadv : s.advance p idx = some (sortAscending (idx.set r e)) := by
              simp [advance, hf, hacc, hr, hf']
            simp only [walk, Option.bind_some, hadv]

theorem advance_sortedColumns {idx idx' : List ℕ}
    (h : SortedColumns p.numConstraints p.numColumns idx) (hcosts : p.costs.length ≤ p.numColumns)
    (ha : s.advance p idx = some idx') : SortedColumns p.numConstraints p.numColumns idx' := by
  simp only [advance, Option.bind_eq_some_iff, Option.map_eq_some_iff] at ha
  obtain ⟨f, hf, e, he, r, -, f', -, rfl⟩ := ha
  exact h.sort_set r ((selectEntering_column_lt (Entering.column_of_accepted he)).trans_le
    ((length_reducedCosts_le hf).trans hcosts))

theorem walk_sortedColumns {idx₀ : List ℕ} (h₀ : SortedColumns p.numConstraints p.numColumns idx₀)
    (hcosts : p.costs.length ≤ p.numColumns) :
    ∀ (t : ℕ) {idx : List ℕ}, (s.walk p)^[t] (some idx₀) = some idx →
      SortedColumns p.numConstraints p.numColumns idx
  | 0, _, h => by
    rw [Function.iterate_zero_apply, Option.some.injEq] at h
    exact h ▸ h₀
  | t + 1, idx, h => by
    rw [Function.iterate_succ_apply'] at h
    cases hw : (s.walk p)^[t] (some idx₀) with
    | none => simp [hw, walk] at h
    | some y =>
      rw [hw] at h
      exact s.advance_sortedColumns p (walk_sortedColumns h₀ hcosts t hw) hcosts h

theorem walk_forever {idx₀ : List ℕ} (h₀ : SortedColumns p.numConstraints p.numColumns idx₀)
    (hcosts : p.costs.length ≤ p.numColumns)
    (hlong : (s.walk p)^[2 ^ (p.numVariables + 2 * p.numConstraints)] (some idx₀) ≠ none) :
    ∀ t, (s.walk p)^[t] (some idx₀) ≠ none := by
  set B := 2 ^ (p.numVariables + 2 * p.numConstraints)
  have hupto : ∀ t ≤ B, ∃ idx, (s.walk p)^[t] (some idx₀) = some idx ∧
      SortedColumns p.numConstraints p.numColumns idx := by
    intro t ht
    obtain ⟨idx, hidx⟩ := Option.ne_none_iff_exists'.mp
        fun (hnone : (s.walk p)^[t] (some idx₀) = none) => hlong (by
      rw [show B = (B - t) + t by omega, Function.iterate_add_apply, hnone]
      exact s.walk_iterate_none p _)
    exact ⟨idx, hidx, s.walk_sortedColumns p h₀ hcosts t hidx⟩
  have hbound : (p.numColumns + p.numConstraints - 1).choose p.numConstraints ≤ B :=
    calc (p.numColumns + p.numConstraints - 1).choose p.numConstraints
        ≤ 2 ^ (p.numColumns + p.numConstraints - 1) := Nat.choose_le_two_pow _ _
      _ ≤ B := Nat.pow_le_pow_right (by norm_num) (by simp [StandardForm.numColumns]; omega)
  obtain ⟨a, b, hab, hb, hrep⟩ := exists_eq_of_sortedColumns hbound hupto
  obtain ⟨idx, hidx, -⟩ := hupto b hb
  exact iterate_ne_none_of_eq rfl hab hrep (by rw [hidx]; exact Option.some_ne_none _)

end Solver

theorem LinearProgram.sortedColumns_initial [Scalar α] (prog : LinearProgram α) :
    SortedColumns prog.standardize.numConstraints prog.standardize.numColumns
      (Basis.initial prog.standardize).indices where
  sorted := List.pairwise_map.mpr (List.pairwise_lt_range.imp fun h => by
    simp only [StandardForm.slackColumn]; omega)
  length_eq := by simp [Basis.initial, Basis.ofIndices]
  lt x hx := by
    simp only [Basis.initial, Basis.ofIndices, List.mem_map, List.mem_range] at hx
    obtain ⟨i, hi, rfl⟩ := hx
    simp only [StandardForm.slackColumn, StandardForm.numColumns]
    omega

theorem LinearProgram.length_costs_standardize [Scalar α] (prog : LinearProgram α) :
    prog.standardize.costs.length ≤ prog.standardize.numColumns := by
  simp [LinearProgram.standardize, StandardForm.numColumns, LinearProgram.numVariables,
    LinearProgram.numConstraints]

namespace Solver

variable [Scalar α] (tol : α) (prog : LinearProgram α)

theorem run_atCap_iff {k : ℕ} :
    ((Solver.mk tol (some k)).run prog).atCap = true ↔
      ∃ f, factorize prog.standardize (Basis.initial prog.standardize) = some f ∧
        f.isFeasible = true ∧ ∃ idx', ((Solver.mk tol none).walk prog.standardize)^[k]
          (some (Basis.initial prog.standardize).indices) = some idx' ∧
            (Solver.mk tol none).Accepts prog.standardize idx' := by
  simp only [Solver.run, Option.getD_some]
  cases hf : factorize prog.standardize (Basis.initial prog.standardize) with
  | none => simp [Run.atCap]
  | some f =>
    dsimp only
    split
    · next hfeas => simp_all [Run.atCap]
    · next hfeas =>
      refine (loop_atCap_iff (Solver.mk tol (some k)) _ (k + 1)
        (Basis.initial prog.standardize).indices f _ _ 0 _ hf (Nat.zero_le k) (by omega)).trans ?_
      simp only [Bool.not_eq_true', Bool.not_eq_false] at hfeas
      simp only [Option.some.injEq, exists_eq_left', hfeas, true_and, Nat.sub_zero]
      rfl

/-- A run without a cap that reaches `2 ^ (n + 2m)` iterations never stops: every cap stops it. -/
theorem atCap_of_atCap_uncapped (h : ((Solver.mk tol none).run prog).atCap = true)
    (k : ℕ) : ((Solver.mk tol (some k)).run prog).atCap = true := by
  rw [run_uncapped, run_atCap_iff] at h
  obtain ⟨f, hf, hfeas, idx', hw, -⟩ := h
  have hall := (Solver.mk tol none).walk_forever prog.standardize prog.sortedColumns_initial
    prog.length_costs_standardize fun hnone => Option.some_ne_none idx' (hw.symm.trans hnone)
  obtain ⟨idx, hidx⟩ := Option.ne_none_iff_exists'.mp (hall k)
  obtain ⟨idx'', hnext⟩ := Option.ne_none_iff_exists'.mp (hall (k + 1))
  rw [Function.iterate_succ_apply', hidx] at hnext
  exact (run_atCap_iff tol prog).mpr
    ⟨f, hf, hfeas, idx, hidx, (Solver.mk tol none).accepts_of_advance _ hnext⟩

/-- A cap of `k` iterations gives the run without a cap when that run stops on its own after at
most `k` iterations. When it starts more, the capped run stops at its `k + 1`-th accepted column
with the cap's error, carrying `k`, and the events of the run without a cap up to the reduced
costs of that round. When the run without a cap never stops, every capped run stops at its cap,
and its events are those of every longer capped run up to the same point. -/
theorem capped_run_eq_cut (k : ℕ) :
    (((Solver.mk tol none).run prog).atCap = false → ((Solver.mk tol none).run prog).iterations ≤ k →
      (Solver.mk tol (some k)).run prog = (Solver.mk tol none).run prog) ∧
    (((Solver.mk tol none).run prog).atCap = false → k < ((Solver.mk tol none).run prog).iterations →
      (Solver.mk tol (some k)).run prog =
          ⟨.error (.iterationLimit k), beforeIteration k ((Solver.mk tol none).run prog).trace⟩ ∧
        ∃ μ rc, ((Solver.mk tol (some k)).run prog).trace.getLast? = some (.reducedCosts μ rc)) ∧
    (((Solver.mk tol none).run prog).atCap = true → ∀ j, k ≤ j →
      ((Solver.mk tol (some j)).run prog).atCap = true ∧
      (Solver.mk tol (some k)).run prog =
          ⟨.error (.iterationLimit k), beforeIteration k ((Solver.mk tol (some j)).run prog).trace⟩ ∧
        ∃ μ rc, ((Solver.mk tol (some k)).run prog).trace.getLast? = some (.reducedCosts μ rc)) := by
  have hU := run_uncapped tol prog
  set L₀ := 2 ^ (prog.numVariables + 2 * prog.numConstraints)
  -- beyond the cap `L₀` of the run without a cap, a run that stops does so within `L₀`
  have hbeyond : ((Solver.mk tol none).run prog).atCap = false → L₀ < k →
      (Solver.mk tol (some k)).run prog = (Solver.mk tol none).run prog ∧
        ((Solver.mk tol none).run prog).iterations ≤ L₀ := fun hstop hk => by
    obtain ⟨heq, hle⟩ := Run.eq_of_cut_eq (hU.trans (run_eq_cut tol prog hk.le)).symm hstop
    exact ⟨heq.symm, heq ▸ hle⟩
  refine ⟨fun hstop hle => ?_, fun hstop hlt => ?_, fun hcap j hj => ?_⟩
  · rcases Nat.lt_or_ge L₀ k with hk | hk
    · exact (hbeyond hstop hk).1
    · rw [run_eq_cut tol prog hk, ← hU, Run.cut_of_le hstop hle]
  · rcases Nat.lt_or_ge L₀ k with hk | hk
    · exact absurd hlt (by have := (hbeyond hstop hk).2; omega)
    · have hC : (Solver.mk tol (some k)).run prog =
          ⟨.error (.iterationLimit k), beforeIteration k ((Solver.mk tol none).run prog).trace⟩ := by
        rw [run_eq_cut tol prog hk, ← hU]
        exact Run.cut_of_not fun hle => absurd hle.2 (by omega)
      exact ⟨hC, run_last_of_atCap tol prog (by rw [hC]; rfl)⟩
  · have hCj := atCap_of_atCap_uncapped tol prog hcap j
    refine ⟨hCj, ?_, run_last_of_atCap tol prog (atCap_of_atCap_uncapped tol prog hcap k)⟩
    rw [run_eq_cut tol prog hj]
    exact Run.cut_of_not fun hle => by simp [hCj] at hle

end Solver

/-- The production plan stops optimal after two iterations; capped at one, it stops at the second
accepted column with the events of the first round and the reduced costs after it. -/
theorem capped_run_eq_cut_productionPlan :
    ((Solver.mk (0 : ℚ) none).run productionPlan).atCap = false ∧
      1 < ((Solver.mk (0 : ℚ) none).run productionPlan).iterations ∧
      (Solver.mk (0 : ℚ) (some 1)).run productionPlan =
        ⟨.error (.iterationLimit 1), beforeIteration 1 ((Solver.mk (0 : ℚ) none).run productionPlan).trace⟩ := by
  have hstop : ((Solver.mk (0 : ℚ) none).run productionPlan).atCap = false := by decide +kernel
  have hmore : 1 < ((Solver.mk (0 : ℚ) none).run productionPlan).iterations := by decide +kernel
  exact ⟨hstop, hmore, ((Solver.capped_run_eq_cut 0 productionPlan 1).2.1 hstop hmore).1⟩

end RevisedSimplex