import Mathlib
import RevisedSimplex.Source.Load

/-! # Which fault a problem text is refused for

A document gives a linear program when it has three assignments, the first and the last lists
of numbers and the middle one a list of rows of numbers all as long as the first row, and when
these numbers pass the checks of a linear program; the program then holds the numbers as they
were read. Otherwise exactly one fault is reported, the first in reading order
(`Document.Fault`): the number of assignments, the objective, the matrix row by row (a row that
is no list of numbers, or one whose length differs from the first row's, whichever comes
first), the right-hand side, and last the checks of the program itself (`LinearProgram.Fault`),
where a column fault can only name the first row.

Main statement: `load_reports_first_fault`.
-/

namespace RevisedSimplex

theorem answers_iff_of_cover {ε β : Type} {r : Except ε β} {Ok : β → Prop} {Err : ε → Prop}
    (hok : ∀ v, Ok v → r = .ok v) (herr : ∀ e, Err e → r = .error e)
    (hcover : (∃ v, Ok v) ∨ ∃ e, Err e) :
    (∀ v, r = .ok v ↔ Ok v) ∧ ∀ e, r = .error e ↔ Err e := by
  rcases hcover with ⟨v, hv⟩ | ⟨e, he⟩
  · obtain rfl := hok v hv
    refine ⟨fun v' => ⟨fun h => ?_, hok v'⟩, fun e => ⟨fun h => ?_, herr e⟩⟩
    · cases h
      exact hv
    · cases h
  · obtain rfl := herr e he
    refine ⟨fun v => ⟨fun h => ?_, hok v⟩, fun e' => ⟨fun h => ?_, herr e'⟩⟩
    · cases h
    · cases h
      exact he

/-! ## The checks of a linear program -/

namespace LinearProgram

variable {α : Type} [Scalar α]

/-- The numbers pass every check of a linear program. -/
structure Admissible (c : List α) (A : List (List α)) (b : List α) : Prop where
  rows : A.length = b.length
  cols : ∀ row ∈ A, row.length = c.length
  objective : ∀ x ∈ c, Scalar.isFinite x = true
  matrix : ∀ row ∈ A, ∀ x ∈ row, Scalar.isFinite x = true
  rhs : ∀ x ∈ b, Scalar.isFinite x = true

/-- The first check of a linear program that the numbers fail, with its report: the count of
rows, then the rows one by one, then finiteness of the objective, the matrix and the right-hand
side. -/
inductive Fault (c : List α) (A : List (List α)) (b : List α) : ProblemError → Prop
  | rows (h : A.length ≠ b.length) : Fault c A b (.rowMismatch A.length b.length)
  | cols {pre post : List (List α)} {row : List α} (hr : A.length = b.length)
      (hA : A = pre ++ row :: post) (hpre : ∀ r ∈ pre, r.length = c.length)
      (hrow : row.length ≠ c.length) : Fault c A b (.columnMismatch pre.length c.length row.length)
  | objective (hr : A.length = b.length) (hc : ∀ row ∈ A, row.length = c.length)
      (h : ∃ x ∈ c, Scalar.isFinite x = false) : Fault c A b (.nonFinite "objective")
  | matrix (hr : A.length = b.length) (hc : ∀ row ∈ A, row.length = c.length)
      (hobj : ∀ x ∈ c, Scalar.isFinite x = true)
      (h : ∃ row ∈ A, ∃ x ∈ row, Scalar.isFinite x = false) :
      Fault c A b (.nonFinite "constraint matrix")
  | rhs (hr : A.length = b.length) (hc : ∀ row ∈ A, row.length = c.length)
      (hobj : ∀ x ∈ c, Scalar.isFinite x = true)
      (hmat : ∀ row ∈ A, ∀ x ∈ row, Scalar.isFinite x = true)
      (h : ∃ x ∈ b, Scalar.isFinite x = false) : Fault c A b (.nonFinite "right-hand side")

theorem find?_zipIdx_eq_some_iff {n k : ℕ} {rows : List (List α)} {row : List α} {i : ℕ} :
    (rows.zipIdx k).find? (fun r => r.1.length != n) = some (row, i) ↔
      ∃ pre post, rows = pre ++ row :: post ∧ (∀ r ∈ pre, r.length = n) ∧ row.length ≠ n ∧
        i = k + pre.length := by
  induction rows generalizing k with
  | nil => simp
  | cons r rows ih =>
    rw [List.zipIdx_cons]
    by_cases hr : r.length = n
    · -- the first row passes, so the bad row is one of the others
      rw [List.find?_cons_of_neg (by simp [hr]), ih]
      constructor
      · rintro ⟨pre, post, rfl, hpre, hrow, rfl⟩
        refine ⟨r :: pre, post, rfl, ?_, hrow, by simp; omega⟩
        simpa [hr] using hpre
      · rintro ⟨pre, post, h, hpre, hrow, rfl⟩
        cases pre with
        | nil =>
          obtain ⟨rfl, -⟩ := List.cons.inj h
          exact absurd hr hrow
        | cons p pre =>
          obtain ⟨-, rfl⟩ := List.cons.inj h
          exact ⟨pre, post, rfl, fun x hx => hpre x (by simp [hx]), hrow, by simp; omega⟩
    · rw [List.find?_cons_of_pos (by simp [hr])]
      constructor
      · intro h
        obtain ⟨rfl, rfl⟩ := Prod.mk.inj (Option.some.inj h)
        exact ⟨[], rows, rfl, by simp, hr, by simp⟩
      · rintro ⟨pre, post, h, hpre, hrow, rfl⟩
        cases pre with
        | nil =>
          obtain ⟨rfl, rfl⟩ := List.cons.inj h
          simp
        | cons p pre =>
          obtain ⟨rfl, -⟩ := List.cons.inj h
          exact absurd (hpre _ List.mem_cons_self) hr

theorem badRow?_eq_some_iff {n : ℕ} {rows : List (List α)} {i f : ℕ} :
    badRow? n rows = some (i, f) ↔ ∃ pre row post, rows = pre ++ row :: post ∧
      (∀ r ∈ pre, r.length = n) ∧ row.length ≠ n ∧ i = pre.length ∧ f = row.length := by
  simp only [badRow?, Option.map_eq_some_iff, Prod.exists, Prod.mk.injEq]
  constructor
  · rintro ⟨row, j, hfind, rfl, rfl⟩
    obtain ⟨pre, post, rfl, hpre, hrow, rfl⟩ := find?_zipIdx_eq_some_iff.mp hfind
    exact ⟨pre, row, post, rfl, hpre, hrow, by simp, rfl⟩
  · rintro ⟨pre, row, post, rfl, hpre, hrow, rfl, rfl⟩
    exact ⟨row, pre.length, find?_zipIdx_eq_some_iff.mpr ⟨pre, post, rfl, hpre, hrow, by simp⟩,
      rfl, rfl⟩

theorem badRow?_eq_none_iff {n : ℕ} {rows : List (List α)} :
    badRow? n rows = none ↔ ∀ row ∈ rows, row.length = n := by
  refine ⟨badRow?_eq_none, fun h => ?_⟩
  cases hbad : badRow? n rows with
  | none => rfl
  | some p =>
    obtain ⟨i, f⟩ := p
    obtain ⟨pre, row, post, rfl, -, hrow, -⟩ := badRow?_eq_some_iff.mp hbad
    exact absurd (h row (by simp)) hrow

theorem make?_of_shape {c : List α} {A : List (List α)} {b : List α}
    (hr : A.length = b.length) (hc : ∀ row ∈ A, row.length = c.length) :
    make? c A b =
      if !c.all Scalar.isFinite then .error (.nonFinite "objective")
      else if !A.all (·.all Scalar.isFinite) then .error (.nonFinite "constraint matrix")
      else if !b.all Scalar.isFinite then .error (.nonFinite "right-hand side")
      else .ok ⟨c, A, b, hr, hc⟩ := by
  unfold make?
  rw [dif_pos hr]
  split
  · rename_i i f hbad
    obtain ⟨pre, row, post, rfl, -, hrow, -⟩ := badRow?_eq_some_iff.mp hbad
    exact absurd (hc row (by simp)) hrow
  · rfl

theorem Admissible.make?_eq {c : List α} {A : List (List α)} {b : List α}
    (h : Admissible c A b) : make? c A b = .ok ⟨c, A, b, h.rows, h.cols⟩ := by
  have hobj : c.all Scalar.isFinite = true := List.all_eq_true.mpr h.objective
  have hmat : A.all (·.all Scalar.isFinite) = true :=
    List.all_eq_true.mpr fun row hrow => List.all_eq_true.mpr (h.matrix row hrow)
  have hrhs : b.all Scalar.isFinite = true := List.all_eq_true.mpr h.rhs
  simp [make?_of_shape h.rows h.cols, hobj, hmat, hrhs]

theorem Fault.make?_eq {c : List α} {A : List (List α)} {b : List α} {e : ProblemError}
    (h : Fault c A b e) : make? c A b = .error e := by
  cases h with
  | rows h => simp [make?, h]
  | @cols pre post row hr hA hpre hrow =>
    have hbad : badRow? c.length A = some (pre.length, row.length) :=
      badRow?_eq_some_iff.mpr ⟨pre, row, post, hA, hpre, hrow, rfl, rfl⟩
    unfold make?
    rw [dif_pos hr]
    split
    · rename_i i f heq
      rw [hbad] at heq
      cases heq
      rfl
    · rename_i heq
      rw [hbad] at heq
      cases heq
  | objective hr hc h =>
    have hobj : c.all Scalar.isFinite = false := by simpa using h
    simp [make?_of_shape hr hc, hobj]
  | matrix hr hc hobj h =>
    have hobj' : c.all Scalar.isFinite = true := List.all_eq_true.mpr hobj
    have hmat : A.all (·.all Scalar.isFinite) = false := by simpa using h
    simp [make?_of_shape hr hc, hobj', hmat]
  | rhs hr hc hobj hmat h =>
    have hobj' : c.all Scalar.isFinite = true := List.all_eq_true.mpr hobj
    have hmat' : A.all (·.all Scalar.isFinite) = true :=
      List.all_eq_true.mpr fun row hrow => List.all_eq_true.mpr (hmat row hrow)
    have hrhs : b.all Scalar.isFinite = false := by simpa using h
    simp [make?_of_shape hr hc, hobj', hmat', hrhs]

theorem admissible_or_fault (c : List α) (A : List (List α)) (b : List α) :
    Admissible c A b ∨ ∃ e, Fault c A b e := by
  by_cases hr : A.length = b.length
  swap
  · exact .inr ⟨_, .rows hr⟩
  cases hbad : badRow? c.length A with
  | some p =>
    obtain ⟨pre, row, post, hA, hpre, hrow, -, -⟩ := badRow?_eq_some_iff.mp hbad
    exact .inr ⟨_, .cols hr hA hpre hrow⟩
  | none =>
    have hc := badRow?_eq_none hbad
    by_cases hobj : ∀ x ∈ c, Scalar.isFinite x = true
    swap
    · exact .inr ⟨_, .objective hr hc (by simpa using hobj)⟩
    by_cases hmat : ∀ row ∈ A, ∀ x ∈ row, Scalar.isFinite x = true
    swap
    · exact .inr ⟨_, .matrix hr hc hobj (by simpa using hmat)⟩
    by_cases hrhs : ∀ x ∈ b, Scalar.isFinite x = true
    swap
    · exact .inr ⟨_, .rhs hr hc hobj hmat (by simpa using hrhs)⟩
    exact .inl ⟨hr, hc, hobj, hmat, hrhs⟩

theorem Fault.columnMismatch_first {c : List α} {A : List (List α)} {b : List α} {i x f : ℕ}
    (hA : ∀ row ∈ A, row.length = (A.headD []).length)
    (h : Fault c A b (.columnMismatch i x f)) : i = 0 := by
  cases h with
  | @cols pre post row hr hA' hpre hrow =>
    cases pre with
    | nil => rfl
    | cons p pre =>
      subst hA'
      have hp := hpre p List.mem_cons_self
      have hrowlen := hA row (by simp)
      simp only [List.cons_append, List.headD_cons] at hrowlen
      exact absurd (hrowlen.trans hp) hrow

end LinearProgram

namespace Source

/-! ## Vectors -/

/-- The items are numbers with the values `xs`, in order. -/
def AreNumbers (items : List Value) (xs : List Float) : Prop :=
  List.Forall₂ (fun v x => ∃ sp, v = .number sp x) items xs

/-- `v` is a list of numbers with the values `xs`. -/
def Value.IsVector (v : Value) (xs : List Float) : Prop :=
  ∃ sp items, v = .list sp items ∧ AreNumbers items xs

theorem numbers_eq_some_iff {items : List Value} {xs : List Float} :
    numbers items = some xs ↔ AreNumbers items xs := by
  induction items generalizing xs with
  | nil => cases xs <;> simp [numbers, AreNumbers]
  | cons v items ih =>
    cases v with
    | number sp x =>
      cases xs with
      | nil => simp [numbers, AreNumbers]
      | cons y ys =>
        rw [AreNumbers, List.forall₂_cons, ← AreNumbers, ← ih]
        cases h : numbers items <;> simp [numbers, h, eq_comm]
    | list sp vs => cases xs <;> simp [numbers, AreNumbers]

theorem isVector_list_iff {sp : Span} {items : List Value} {xs : List Float} :
    (Value.list sp items).IsVector xs ↔ numbers items = some xs := by
  simp [Value.IsVector, numbers_eq_some_iff]

theorem not_isVector_number {sp : Span} {x : Float} {xs : List Float} :
    ¬ (Value.number sp x).IsVector xs := by
  simp [Value.IsVector]

theorem not_isVector_of_numbers_none {sp : Span} {items : List Value} (hn : numbers items = none)
    (ys : List Float) : ¬ (Value.list sp items).IsVector ys := by
  simp [isVector_list_iff, hn]

theorem not_forall₂_of_head {v : Value} {rest : List Value} {A : List (List Float)}
    (hv : ∀ ys, ¬ v.IsVector ys) : ¬ List.Forall₂ Value.IsVector (v :: rest) A := by
  intro hrows
  obtain ⟨y, A', hy, -, rfl⟩ := List.forall₂_cons_left_iff.mp hrows
  exact hv y hy

theorem forall₂_cons_iff_of_numbers {sp : Span} {items rest : List Value} {xs : List Float}
    {A : List (List Float)} (hn : numbers items = some xs) :
    List.Forall₂ Value.IsVector (.list sp items :: rest) A ↔
      ∃ A', A = xs :: A' ∧ List.Forall₂ Value.IsVector rest A' := by
  rw [List.forall₂_cons_left_iff]
  constructor
  · rintro ⟨y, A', hy, hrest, rfl⟩
    obtain rfl : y = xs := Option.some.inj ((isVector_list_iff.mp hy).symm.trans hn)
    exact ⟨A', rfl, hrest⟩
  · rintro ⟨A', rfl, hrest⟩
    exact ⟨xs, A', isVector_list_iff.mpr hn, hrest, rfl⟩

theorem vector_eq_ok_iff {a : Assignment} {xs : List Float} :
    a.vector = .ok xs ↔ a.value.IsVector xs := by
  obtain ⟨span, name, value⟩ := a
  cases value with
  | number sp x => simp [Assignment.vector, not_isVector_number]
  | list sp items =>
    cases h : numbers items <;> simp [Assignment.vector, h, isVector_list_iff]

theorem vector_eq_error_iff {a : Assignment} {e : LoadError} :
    a.vector = .error e ↔
      (∀ xs, ¬ a.value.IsVector xs) ∧ e = .expectedVector a.name a.value.span := by
  obtain ⟨span, name, value⟩ := a
  cases value with
  | number sp x => simp [Assignment.vector, not_isVector_number, eq_comm]
  | list sp items =>
    cases h : numbers items <;> simp [Assignment.vector, h, isVector_list_iff, eq_comm]

/-! ## The matrix, row by row -/

/-- `v` is a list of rows of numbers with the values `A`, all as long as the first. -/
def Value.IsMatrix (v : Value) (A : List (List Float)) : Prop :=
  ∃ sp rows, v = .list sp rows ∧ List.Forall₂ Value.IsVector rows A ∧
    ∀ r ∈ A, r.length = (A.headD []).length

/-- What is reported for the rows of the matrix `a` read after a first row of length `w`, the
first of them being row `i`: past rows that are fine, the next row is no list of numbers, or
it is one of another length. -/
inductive Assignment.RowsFault (a : Assignment) (w i : ℕ) : List Value → LoadError → Prop
  | shape {pre post : List Value} {r : Value} {P : List (List Float)}
      (hpre : List.Forall₂ Value.IsVector pre P) (hP : ∀ p ∈ P, p.length = w)
      (hr : ∀ ys, ¬ r.IsVector ys) :
      RowsFault a w i (pre ++ r :: post) (.expectedMatrix a.name a.value.span)
  | ragged {pre post : List Value} {r : Value} {P : List (List Float)} {ys : List Float}
      (hpre : List.Forall₂ Value.IsVector pre P) (hP : ∀ p ∈ P, p.length = w)
      (hr : r.IsVector ys) (hlen : ys.length ≠ w) :
      RowsFault a w i (pre ++ r :: post) (.raggedMatrix a.name (i + pre.length) w ys.length)

/-- What is reported for the matrix `a` that is no list of rows of one length: its value is a
number, or its first row is no list of numbers, or a later row is at fault. -/
inductive Assignment.MatrixFault (a : Assignment) : LoadError → Prop
  | scalar {sp : Span} {x : Float} (h : a.value = .number sp x) :
      MatrixFault a (.expectedMatrix a.name a.value.span)
  | first {sp : Span} {r : Value} {rest : List Value} (h : a.value = .list sp (r :: rest))
      (hr : ∀ ys, ¬ r.IsVector ys) : MatrixFault a (.expectedMatrix a.name a.value.span)
  | later {sp : Span} {r : Value} {rest : List Value} {xs : List Float} {e : LoadError}
      (h : a.value = .list sp (r :: rest)) (hr : r.IsVector xs)
      (hrest : a.RowsFault xs.length 1 rest e) : MatrixFault a e

section RowsFault

variable {a : Assignment} {w i : ℕ} {r : Value} {rows : List Value}

theorem Assignment.RowsFault.head_shape (hr : ∀ ys, ¬ r.IsVector ys) :
    a.RowsFault w i (r :: rows) (.expectedMatrix a.name a.value.span) :=
  @Assignment.RowsFault.shape a w i [] rows r [] .nil (by simp) hr

theorem Assignment.RowsFault.head_ragged {ys : List Float} (hr : r.IsVector ys)
    (hlen : ys.length ≠ w) : a.RowsFault w i (r :: rows) (.raggedMatrix a.name i w ys.length) :=
  @Assignment.RowsFault.ragged a w i [] rows r [] ys .nil (by simp) hr hlen

theorem Assignment.RowsFault.cons {xs : List Float} {e : LoadError} (hv : r.IsVector xs)
    (hlen : xs.length = w) (h : a.RowsFault w (i + 1) rows e) : a.RowsFault w i (r :: rows) e := by
  cases h with
  | @shape pre post r' P hpre hP hr =>
    exact @Assignment.RowsFault.shape a w i (r :: pre) post r' (xs :: P) (.cons hv hpre)
      (by simpa [hlen] using hP) hr
  | @ragged pre post r' P ys hpre hP hr hlen' =>
    have hidx : i + 1 + pre.length = i + (r :: pre).length := by simp; omega
    rw [hidx]
    exact @Assignment.RowsFault.ragged a w i (r :: pre) post r' (xs :: P) ys (.cons hv hpre)
      (by simpa [hlen] using hP) hr hlen'

end RowsFault

theorem map_cons_eq_ok_iff {ε β : Type} {x : β} {r : Except ε (List β)} {l : List β} :
    (x :: ·) <$> r = .ok l ↔ ∃ l', r = .ok l' ∧ l = x :: l' := by
  cases r <;> simp [Functor.map, Except.map, eq_comm]

theorem map_eq_error_iff {ε β γ : Type} {f : β → γ} {r : Except ε β} {e : ε} :
    f <$> r = .error e ↔ r = .error e := by
  cases r <;> simp [Functor.map, Except.map]

theorem rowsFrom_eq_ok_iff {a : Assignment} {w i : ℕ} {rows : List Value}
    {A : List (List Float)} :
    a.rowsFrom (some w) i rows = .ok A ↔
      List.Forall₂ Value.IsVector rows A ∧ ∀ r ∈ A, r.length = w := by
  induction rows generalizing i A with
  | nil => cases A <;> simp [Assignment.rowsFrom]
  | cons v rest ih =>
    cases v with
    | number sp x =>
      simp only [Assignment.rowsFrom, reduceCtorEq, false_iff]
      exact fun h => not_forall₂_of_head (fun _ => not_isVector_number) h.1
    | list sp items =>
      cases hn : numbers items with
      | none =>
        simp only [Assignment.rowsFrom, hn, reduceCtorEq, false_iff]
        exact fun h => not_forall₂_of_head (not_isVector_of_numbers_none hn) h.1
      | some xs =>
        rw [forall₂_cons_iff_of_numbers hn]
        by_cases hlen : xs.length = w
        · simp only [Assignment.rowsFrom, hn, hlen, if_true, map_cons_eq_ok_iff, ih]
          constructor
          · rintro ⟨A', ⟨hrest, hA'⟩, rfl⟩
            exact ⟨⟨A', rfl, hrest⟩, by simpa [hlen] using hA'⟩
          · rintro ⟨⟨A', rfl, hrest⟩, hA⟩
            exact ⟨A', ⟨hrest, fun r hr => hA r (by simp [hr])⟩, rfl⟩
        · simp only [Assignment.rowsFrom, hn, hlen, if_false, reduceCtorEq, false_iff, not_and]
          rintro ⟨A', rfl, -⟩ hA
          exact hlen (hA _ List.mem_cons_self)

theorem rowsFrom_eq_error_iff {a : Assignment} {w i : ℕ} {rows : List Value} {e : LoadError} :
    a.rowsFrom (some w) i rows = .error e ↔ a.RowsFault w i rows e := by
  constructor
  · -- follow the rows read up to the error
    intro h
    induction rows generalizing i with
    | nil => simp [Assignment.rowsFrom] at h
    | cons v rest ih =>
      cases v with
      | number sp x =>
        simp only [Assignment.rowsFrom, Except.error.injEq] at h
        subst h
        exact .head_shape fun _ => not_isVector_number
      | list sp items =>
        cases hn : numbers items with
        | none =>
          simp only [Assignment.rowsFrom, hn, Except.error.injEq] at h
          subst h
          exact .head_shape (not_isVector_of_numbers_none hn)
        | some xs =>
          by_cases hlen : xs.length = w
          · simp only [Assignment.rowsFrom, hn, hlen, if_true, map_eq_error_iff] at h
            exact (ih h).cons (isVector_list_iff.mpr hn) hlen
          · simp only [Assignment.rowsFrom, hn, hlen, if_false, Except.error.injEq] at h
            subst h
            exact .head_ragged (isVector_list_iff.mpr hn) hlen
  · -- read the rows that are fine, then the row at fault
    intro h
    cases h with
    | @shape pre post r P hpre hP hr =>
      induction hpre generalizing i with
      | nil =>
        cases r with
        | number sp x => rfl
        | list sp items =>
          cases hn : numbers items with
          | none => simp [Assignment.rowsFrom, hn]
          | some xs => exact absurd (isVector_list_iff.mpr hn) (hr xs)
      | @cons p y pre' P' hp hpre' ih =>
        obtain ⟨sp, items, rfl, hitems⟩ := hp
        have hn := numbers_eq_some_iff.mpr hitems
        have hlen := hP y (by simp)
        simp only [List.cons_append, Assignment.rowsFrom, hn, hlen, if_true, map_eq_error_iff]
        exact ih (fun q hq => hP q (by simp [hq]))
    | @ragged pre post r P ys hpre hP hr hlen =>
      induction hpre generalizing i with
      | nil =>
        obtain ⟨sp, items, rfl, hitems⟩ := hr
        simp [Assignment.rowsFrom, numbers_eq_some_iff.mpr hitems, hlen]
      | @cons p y pre' P' hp hpre' ih =>
        have hidx : i + (p :: pre').length = i + 1 + pre'.length := by simp; omega
        obtain ⟨sp, items, rfl, hitems⟩ := hp
        have hn := numbers_eq_some_iff.mpr hitems
        have hylen := hP y (by simp)
        simp only [List.cons_append, Assignment.rowsFrom, hn, hylen, if_true, map_eq_error_iff,
          hidx]
        exact ih (fun q hq => hP q (by simp [hq]))

theorem isMatrix_list_iff {sp : Span} {rows : List Value} {A : List (List Float)} :
    (Value.list sp rows).IsMatrix A ↔
      List.Forall₂ Value.IsVector rows A ∧ ∀ r ∈ A, r.length = (A.headD []).length := by
  simp [Value.IsMatrix]

theorem matrix_eq_ok_iff {a : Assignment} {A : List (List Float)} :
    a.matrix = .ok A ↔ a.value.IsMatrix A := by
  obtain ⟨span, name, value⟩ := a
  cases value with
  | number sp x => simp [Assignment.matrix, Value.IsMatrix]
  | list sp rows =>
    simp only [Assignment.matrix, isMatrix_list_iff]
    cases rows with
    | nil => cases A <;> simp [Assignment.rowsFrom]
    | cons v rest =>
      cases v with
      | number sp' x =>
        simp only [Assignment.rowsFrom, reduceCtorEq, false_iff]
        exact fun h => not_forall₂_of_head (fun _ => not_isVector_number) h.1
      | list sp' items =>
        cases hn : numbers items with
        | none =>
          simp only [Assignment.rowsFrom, hn, reduceCtorEq, false_iff]
          exact fun h => not_forall₂_of_head (not_isVector_of_numbers_none hn) h.1
        | some xs =>
          -- the first row fixes the width that the later rows are read against
          simp only [Assignment.rowsFrom, hn, map_cons_eq_ok_iff, rowsFrom_eq_ok_iff,
            forall₂_cons_iff_of_numbers hn]
          constructor
          · rintro ⟨A', ⟨hrest, hA'⟩, rfl⟩
            exact ⟨⟨A', rfl, hrest⟩, by simpa using hA'⟩
          · rintro ⟨⟨A', rfl, hrest⟩, hA⟩
            exact ⟨A', ⟨hrest, fun r hr => by simpa using hA r (by simp [hr])⟩, rfl⟩

theorem matrix_eq_error_iff {a : Assignment} {e : LoadError} :
    a.matrix = .error e ↔ a.MatrixFault e := by
  obtain ⟨span, name, value⟩ := a
  constructor
  · intro h
    cases value with
    | number sp x =>
      simp only [Assignment.matrix, Except.error.injEq] at h
      subst h
      exact .scalar rfl
    | list sp rows =>
      cases rows with
      | nil => simp [Assignment.matrix, Assignment.rowsFrom] at h
      | cons v rest =>
        cases v with
        | number sp' x =>
          simp only [Assignment.matrix, Assignment.rowsFrom, Except.error.injEq] at h
          subst h
          exact .first rfl fun _ => not_isVector_number
        | list sp' items =>
          cases hn : numbers items with
          | none =>
            simp only [Assignment.matrix, Assignment.rowsFrom, hn, Except.error.injEq] at h
            subst h
            exact .first rfl (not_isVector_of_numbers_none hn)
          | some xs =>
            simp only [Assignment.matrix, Assignment.rowsFrom, hn, map_eq_error_iff] at h
            exact .later rfl (isVector_list_iff.mpr hn) (rowsFrom_eq_error_iff.mp h)
  · intro h
    cases h with
    | scalar h =>
      dsimp only at h
      subst h
      rfl
    | @first sp r rest h hr =>
      dsimp only at h
      subst h
      cases r with
      | number sp' x => rfl
      | list sp' items =>
        cases hn : numbers items with
        | none => simp [Assignment.matrix, Assignment.rowsFrom, hn]
        | some xs => exact absurd (isVector_list_iff.mpr hn) (hr xs)
    | @later sp r rest xs e h hr hrest =>
      dsimp only at h
      subst h
      obtain ⟨sp', items, rfl, hitems⟩ := hr
      simp only [Assignment.matrix, Assignment.rowsFrom, numbers_eq_some_iff.mpr hitems,
        map_eq_error_iff]
      exact rowsFrom_eq_error_iff.mpr hrest

/-! ## The document -/

/-- The document `d` describes the program `lp`, number for number. -/
def Document.Loads (d : Document) (lp : LinearProgram Float) : Prop :=
  ∃ c a b, d.assignments = [c, a, b] ∧ c.value.IsVector lp.objective ∧
    a.value.IsMatrix lp.constraints ∧ b.value.IsVector lp.rhs ∧
    LinearProgram.Admissible lp.objective lp.constraints lp.rhs

/-- What a document is refused for: the first fault in reading order. -/
inductive Document.Fault (d : Document) : LoadError → Prop
  | count (h : d.assignments.length ≠ 3) : Fault d (.assignmentCount d.assignments.length)
  | objective {c a b : Assignment} (h : d.assignments = [c, a, b])
      (hc : ∀ xs, ¬ c.value.IsVector xs) : Fault d (.expectedVector c.name c.value.span)
  | matrix {c a b : Assignment} {xs : List Float} {e : LoadError}
      (h : d.assignments = [c, a, b]) (hc : c.value.IsVector xs) (ha : a.MatrixFault e) :
      Fault d e
  | rhs {c a b : Assignment} {xs : List Float} {A : List (List Float)}
      (h : d.assignments = [c, a, b]) (hc : c.value.IsVector xs) (ha : a.value.IsMatrix A)
      (hb : ∀ ys, ¬ b.value.IsVector ys) : Fault d (.expectedVector b.name b.value.span)
  | program {c a b : Assignment} {xs : List Float} {A : List (List Float)} {ys : List Float}
      {e : ProblemError} (h : d.assignments = [c, a, b]) (hc : c.value.IsVector xs)
      (ha : a.value.IsMatrix A) (hb : b.value.IsVector ys) (he : LinearProgram.Fault xs A ys e) :
      Fault d (.shape e)

theorem Document.Loads.load_eq {d : Document} {lp : LinearProgram Float} (h : d.Loads lp) :
    d.load = .ok lp := by
  obtain ⟨c, a, b, hd, hc, ha, hb, hadm⟩ := h
  obtain ⟨xs, A, ys, _, _⟩ := lp
  simp only [Document.load, hd, vector_eq_ok_iff.mpr hc, matrix_eq_ok_iff.mpr ha,
    vector_eq_ok_iff.mpr hb, bind, Except.bind, hadm.make?_eq]

theorem Document.Fault.load_eq {d : Document} {e : LoadError} (h : d.Fault e) :
    d.load = .error e := by
  cases h with
  | count h =>
    unfold Document.load
    split
    · rename_i c a b hd
      simp [hd] at h
    · rfl
  | objective hd hc =>
    simp only [Document.load, hd, vector_eq_error_iff.mpr ⟨hc, rfl⟩]
    rfl
  | matrix hd hc ha =>
    simp only [Document.load, hd, vector_eq_ok_iff.mpr hc, matrix_eq_error_iff.mpr ha]
    rfl
  | rhs hd hc ha hb =>
    simp only [Document.load, hd, vector_eq_ok_iff.mpr hc, matrix_eq_ok_iff.mpr ha,
      vector_eq_error_iff.mpr ⟨hb, rfl⟩]
    rfl
  | program hd hc ha hb he =>
    simp only [Document.load, hd, vector_eq_ok_iff.mpr hc, matrix_eq_ok_iff.mpr ha,
      vector_eq_ok_iff.mpr hb, bind, Except.bind, he.make?_eq]

theorem Document.loads_or_fault (d : Document) : (∃ lp, d.Loads lp) ∨ ∃ e, d.Fault e := by
  match hd : d.assignments with
  | [c, a, b] =>
    by_cases hc : ∃ xs, c.value.IsVector xs
    swap
    · exact .inr ⟨_, .objective hd (by simpa using hc)⟩
    obtain ⟨xs, hc⟩ := hc
    cases hA : a.matrix with
    | error e => exact .inr ⟨_, .matrix hd hc (matrix_eq_error_iff.mp hA)⟩
    | ok A =>
      have ha := matrix_eq_ok_iff.mp hA
      by_cases hb : ∃ ys, b.value.IsVector ys
      swap
      · exact .inr ⟨_, .rhs hd hc ha (by simpa using hb)⟩
      obtain ⟨ys, hb⟩ := hb
      rcases LinearProgram.admissible_or_fault xs A ys with hadm | ⟨e, he⟩
      · exact .inl ⟨⟨xs, A, ys, hadm.rows, hadm.cols⟩, c, a, b, hd, hc, ha, hb, hadm⟩
      · exact .inr ⟨_, .program hd hc ha hb he⟩
  | [] | [_] | [_, _] | _ :: _ :: _ :: _ :: _ => exact .inr ⟨_, .count (by simp [hd])⟩

theorem Document.load_answers (d : Document) :
    (∀ lp, d.load = .ok lp ↔ d.Loads lp) ∧ ∀ e, d.load = .error e ↔ d.Fault e :=
  answers_iff_of_cover (fun _ h => h.load_eq) (fun _ h => h.load_eq) d.loads_or_fault

theorem Assignment.MatrixFault.not_shape {a : Assignment} {e : ProblemError} :
    ¬ a.MatrixFault (.shape e) := by
  intro h
  cases h with
  | later _ _ hrest => cases hrest

/-- Loading gives a program exactly when the document describes one, which then holds the
numbers as they were read; otherwise it reports the first fault in reading order, and a column
fault of the program then names the first row, the rows being all of one length. -/
theorem load_reports_first_fault (d : Document) :
    (∀ lp, d.load = .ok lp ↔ d.Loads lp) ∧ (∀ e, d.load = .error e ↔ d.Fault e) ∧
      ∀ i x f, d.load = .error (.shape (.columnMismatch i x f)) → i = 0 := by
  refine ⟨(d.load_answers).1, (d.load_answers).2, fun i x f h => ?_⟩
  cases (d.load_answers.2 _).mp h with
  | matrix hd hc ha => exact absurd ha Assignment.MatrixFault.not_shape
  | program hd hc ha hb he =>
    obtain ⟨sp, rows, -, -, hrect⟩ := ha
    exact he.columnMismatch_first hrect

/-- The text `c = [1]` / `A = [[1, 0]]` / `b = [1]`, whose one row is too long, is refused for a
column fault of the first row. -/
theorem load_reports_first_fault_wideRow :
    let d : Document := ⟨[⟨⟨0, 7⟩, "c", .list ⟨4, 7⟩ [.number ⟨5, 6⟩ 1]⟩,
      ⟨⟨8, 20⟩, "A", .list ⟨12, 20⟩ [.list ⟨13, 19⟩ [.number ⟨14, 15⟩ 1, .number ⟨17, 18⟩ 0]]⟩,
      ⟨⟨21, 28⟩, "b", .list ⟨25, 28⟩ [.number ⟨26, 27⟩ 1]⟩]⟩
    d.load = .error (.shape (.columnMismatch 0 1 2)) ∧ d.Fault (.shape (.columnMismatch 0 1 2)) ∧
      (0 : ℕ) = 0 := by
  intro d
  have h : d.load = .error (.shape (.columnMismatch 0 1 2)) := rfl
  exact ⟨h, ((load_reports_first_fault d).2.1 _).mp h, (load_reports_first_fault d).2.2 0 1 2 h⟩

end Source

end RevisedSimplex
