import Mathlib
import RevisedSimplex.Proofs.Lexing
import RevisedSimplex.Proofs.ParseSteps
import RevisedSimplex.Proofs.Descent
import RevisedSimplex.Proofs.Loading

/-! # Number tokens always read

The lexer and the decimal reader agree on the syntax of numbers. Every number token is a
numeral `[+-]?(D+ | D+.D* | D*.D+)([eE][+-]?D+)?` (a sign is part of the token, and an
exponent mark is taken only when a digit follows it), and the reader accepts every numeral,
besides the words `inf`, `infinity` and `nan`. A text is therefore never refused for a number
that does not read: neither the parser nor the loader reports one. A numeral too large for a
double reads as an infinity and is refused later, as a value that is not finite.
-/

namespace RevisedSimplex.Source

/-! ## The decimal reader accepts every numeral -/

theorem spanDigits_append {a t : List Char} (ha : AllDigits a)
    (ht : ∀ d ∈ t.head?, d.isDigit = false) : Decimal.spanDigits (a ++ t) = (a, t) := by
  have h1 := digits_append (t := t) ha
  have h2 := digits_of_not_digit ht
  show ((Cut.digits (a ++ t)).taken, (Cut.digits (a ++ t)).rest) = (a, t)
  rw [h1.1, h1.2, h2.1, h2.2, List.append_nil]

theorem IsExponent.head_not_digit {e : List Char} (he : IsExponent e) :
    ∀ d ∈ e.head?, d.isDigit = false := by
  rcases he.head with rfl | ⟨E, e', rfl, rfl | rfl⟩ <;> simp

theorem readExponent?_isSome {e : List Char} (he : IsExponent e) :
    (Decimal.readExponent? e).isSome := by
  cases he with
  | none => rfl
  | @mark E s ds hE hs hds hne =>
    obtain ⟨d, ds', rfl⟩ := List.exists_cons_of_ne_nil hne
    have hall : (d :: ds').all Char.isDigit = true := List.all_eq_true.mpr hds
    have hd : d.isDigit = true := hds d List.mem_cons_self
    have hminus : d ≠ '-' := by rintro rfl; simp at hd
    have hplus : d ≠ '+' := by rintro rfl; simp at hd
    cases hs <;> simp [Decimal.readExponent?, hE, hall, hminus, hplus]

theorem readMagnitude?_isSome {m e : List Char} (hm : IsMantissa m) (he : IsExponent e) :
    (Decimal.readMagnitude? (m ++ e)).isSome := by
  have hexp := readExponent?_isSome he
  unfold Decimal.readMagnitude?
  dsimp only
  split
  · rfl
  split
  · rfl
  cases hm with
  | whole ha hne =>
    rw [spanDigits_append ha he.head_not_digit]
    rcases he.head with rfl | ⟨E, e', rfl, rfl | rfl⟩ <;> simp [hne, hexp]
  | point ha hb hne =>
    rw [List.append_assoc, List.cons_append, spanDigits_append ha (by simp)]
    simp only [spanDigits_append hb he.head_not_digit, List.isEmpty_iff]
    rw [if_neg fun h => hne (by simp [h.1, h.2])]
    simpa using hexp

theorem readFloat?_isSome {w : List Char} (hw : IsNumeral w) :
    (Decimal.readFloat? (String.ofList w)).isSome := by
  obtain @⟨s, m, e, hs, hm, he⟩ := hw
  have hmag := readMagnitude?_isSome hm he
  unfold Decimal.readFloat?
  rw [String.toList_ofList]
  cases hs with
  | none =>
    obtain ⟨d, m', rfl, hd⟩ := hm.head
    have hminus : d ≠ '-' := by rcases hd with hd | rfl <;> [(rintro rfl; simp at hd); decide]
    have hplus : d ≠ '+' := by rcases hd with hd | rfl <;> [(rintro rfl; simp at hd); decide]
    simpa [hminus, hplus] using hmag
  | plus => simpa using hmag
  | minus => simpa using hmag

/-! ## Number tokens are numerals -/

theorem numeral_of_mem_tokenize {s : String} {t : Token} (ht : t ∈ tokenize s)
    (hk : t.kind = .number) : IsNumeral t.text.toList := by
  rcases (lexes_tokensFrom 0 s.toList).fits t ht with heof | ⟨x, rest, -, hfit, htext, -⟩
  · rw [hk] at heof
    cases heof
  · rw [hk] at hfit
    rw [htext, String.toList_ofList]
    exact hfit.1

/-! ## No text is refused for a number -/

theorem ParseError.at_ne_invalidNumber (e : Expectation) (t : Token) (msg : String) :
    ParseError.at e t ≠ .invalidNumber msg := by
  unfold ParseError.at
  split <;> simp

theorem Ends.unreadable_of {done : List Assignment} {phase : Phase} {t : Token} {msg : String}
    (h : Ends done phase t (.error (.invalidNumber msg))) :
    t.kind = .number ∧ Decimal.readFloat? t.text = none := by
  generalize hr : (Except.error (.invalidNumber msg) : Except ParseError (List Assignment)) = r at h
  cases h with
  | statement => cases hr
  | lineEnd => cases hr
  | misplaced e =>
    rw [Except.error.injEq] at hr
    exact absurd hr.symm (ParseError.at_ne_invalidNumber e t msg)
  | unreadable hk hx => exact ⟨hk, hx⟩

theorem run_invalidNumber {done : List Assignment} {phase : Phase} {ts : List Token} {msg : String}
    (h : run done phase ts = .error (.invalidNumber msg)) :
    ∃ t ∈ ts, t.kind = .number ∧ Decimal.readFloat? t.text = none := by
  induction ts generalizing done phase with
  | nil => cases h
  | cons t ts ih =>
    rcases run_cons h with ⟨done', phase', -, hrun⟩ | hend
    · obtain ⟨u, hu, hk, hx⟩ := ih hrun
      exact ⟨u, List.mem_cons_of_mem t hu, hk, hx⟩
    · exact ⟨t, List.mem_cons_self, hend.unreadable_of⟩

theorem parse_ne_invalidNumber (s msg : String) : Document.parse s ≠ .error (.invalidNumber msg) := by
  intro h
  have hrun : run [] .statement (tokenize s) = .error (.invalidNumber msg) := by
    rw [parse_eq_run] at h
    cases hr : run [] .statement (tokenize s) <;> simp_all [Except.map]
  obtain ⟨t, ht, hk, hx⟩ := run_invalidNumber hrun
  have hsome := readFloat?_isSome (numeral_of_mem_tokenize ht hk)
  rw [String.ofList_toList, hx] at hsome
  cases hsome

theorem Document.load_ne_parse (d : Document) (e : ParseError) : d.load ≠ .error (.parse e) := by
  intro h
  cases ((d.load_answers).2 _).mp h with
  | matrix _ _ ha =>
    cases ha with
    | later _ _ hrest => cases hrest

/-- Every number token of a text is a numeral that reads as a double. So no text is refused
for a number that does not read, neither by the parser nor by the loader. -/
theorem number_tokens_read (s : String) :
    (∀ t ∈ tokenize s, t.kind = .number →
        IsNumeral t.text.toList ∧ (Decimal.readFloat? t.text).isSome) ∧
      (∀ msg, Document.parse s ≠ .error (.invalidNumber msg)) ∧
      ∀ msg, loadText s ≠ .error (.parse (.invalidNumber msg)) := by
  refine ⟨fun t ht hk => ?_, parse_ne_invalidNumber s, fun msg h => ?_⟩
  · have hw := numeral_of_mem_tokenize ht hk
    refine ⟨hw, ?_⟩
    simpa using readFloat?_isSome hw
  · unfold loadText at h
    split at h
    · exact Document.load_ne_parse _ _ h
    · rename_i e he
      rw [Except.error.injEq, LoadError.parse.injEq] at h
      subst h
      exact parse_ne_invalidNumber s msg he

/-- In `c = [-2.5e3]` the token `-2.5e3` is a number token, and it reads. -/
theorem number_tokens_read_signedExponent :
    ⟨.number, ⟨5, 11⟩, "-2.5e3"⟩ ∈ tokenize "c = [-2.5e3]" ∧
      IsNumeral "-2.5e3".toList ∧ (Decimal.readFloat? "-2.5e3").isSome := by
  have hmem : (⟨.number, ⟨5, 11⟩, "-2.5e3"⟩ : Token) ∈ tokenize "c = [-2.5e3]" := by
    have h : (tokenize "c = [-2.5e3]").map (fun t => (t.kind, t.span, t.text)) =
        [(.ident, ⟨0, 1⟩, "c"), (.equals, ⟨2, 3⟩, "="), (.lbracket, ⟨4, 5⟩, "["),
          (.number, ⟨5, 11⟩, "-2.5e3"), (.rbracket, ⟨11, 12⟩, "]"), (.eof, ⟨12, 12⟩, "")] := by
      decide +kernel
    have hmem' : ((.number, ⟨5, 11⟩, "-2.5e3") : Token.Kind × Span × String) ∈
        (tokenize "c = [-2.5e3]").map (fun t => (t.kind, t.span, t.text)) := by
      rw [h]
      decide
    obtain ⟨⟨k, sp, tx⟩, ht, heq⟩ := List.mem_map.mp hmem'
    simp only [Prod.mk.injEq] at heq
    obtain ⟨rfl, rfl, rfl⟩ := heq
    exact ht
  exact ⟨hmem, (number_tokens_read _).1 _ hmem rfl⟩

end RevisedSimplex.Source
