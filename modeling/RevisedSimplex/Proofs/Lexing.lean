import Mathlib
import RevisedSimplex.Source.Token

/-! # Lossless tokenization

`tokenize` cuts every text into blanks and lexemes and loses nothing: the lexemes and the blanks
between them give back the text, each span counts the UTF-8 bytes before and through its lexeme,
and the end token closes the list at the byte length of the text (`Lexes`). Each kind fits its
text and what follows it (`Token.Kind.Fits`): a number is the longest numeral
`[+-]?(D+ | D+.D* | D*.D+)([eE][+-]?D+)?` at its place, an identifier and a comment run as far as
they can, and an error lexeme stands where no numeral starts.
-/

namespace RevisedSimplex.Source

/-! ## What a lexeme may be -/

def AllDigits (ds : List Char) : Prop := ∀ d ∈ ds, d.isDigit = true

/-- `[+-]?` -/
inductive IsSign : List Char → Prop
  | none : IsSign []
  | plus : IsSign ['+']
  | minus : IsSign ['-']

/-- `D+ | D+.D* | D*.D+`: digits with at most one point, and one digit at least. -/
inductive IsMantissa : List Char → Prop
  | whole {a : List Char} (ha : AllDigits a) (hne : a ≠ []) : IsMantissa a
  | point {a b : List Char} (ha : AllDigits a) (hb : AllDigits b) (hne : a ++ b ≠ []) :
      IsMantissa (a ++ '.' :: b)

/-- `([eE][+-]?D+)?` -/
inductive IsExponent : List Char → Prop
  | none : IsExponent []
  | mark {e : Char} {s ds : List Char} (he : e = 'e' ∨ e = 'E') (hs : IsSign s)
      (hds : AllDigits ds) (hne : ds ≠ []) : IsExponent (e :: (s ++ ds))

/-- The numerals `[+-]?(D+ | D+.D* | D*.D+)([eE][+-]?D+)?`. -/
inductive IsNumeral : List Char → Prop
  | mk {s m e : List Char} (hs : IsSign s) (hm : IsMantissa m) (he : IsExponent e) :
      IsNumeral (s ++ m ++ e)

/-- `#` or `//`, then anything but a newline. -/
def IsComment (x : List Char) : Prop :=
  ∃ body, (x = '#' :: body ∨ x = '/' :: '/' :: body) ∧ '\n' ∉ body

/-- `[alphabetic _][alphanumeric _]*` -/
def IsIdent : List Char → Prop
  | [] => False
  | c :: r => (Text.isAlphabetic c = true ∨ c = '_') ∧ ∀ d ∈ r, isIdentChar d = true

/-- A character that starts no lexeme of another kind, with what follows it. -/
def IsStray (c : Char) (rest : List Char) : Prop :=
  c ∉ [' ', '\t', '\r', '\n', '#', '=', ',', '[', ']', '(', ')', '+', '-', '.'] ∧
    c.isDigit = false ∧ Text.isAlphabetic c = false ∧ c ≠ '_' ∧ (c = '/' → rest.head? ≠ some '/')

/-- What the text `x` of a lexeme of each kind is, given the text `rest` after it. -/
def Token.Kind.Fits : Token.Kind → List Char → List Char → Prop
  | .newline, x, _ => x = ['\n']
  | .equals, x, _ => x = ['=']
  | .comma, x, _ => x = [',']
  | .lbracket, x, _ => x = ['[']
  | .rbracket, x, _ => x = [']']
  | .lparen, x, _ => x = ['(']
  | .rparen, x, _ => x = [')']
  | .comment, x, rest => IsComment x ∧ ∀ d ∈ rest.head?, d = '\n'
  | .number, x, rest => IsNumeral x ∧ ∀ y, y <+: x ++ rest → IsNumeral y → y.length ≤ x.length
  | .ident, x, rest => IsIdent x ∧ ∀ d ∈ rest.head?, isIdentChar d = false
  | .error, x, rest =>
    (x ∈ [['+'], ['-'], ['.'], ['+', '.'], ['-', '.']] ∨ ∃ c, x = [c] ∧ IsStray c rest) ∧
      ∀ y, y <+: x ++ rest → ¬ IsNumeral y
  | .eof, _, _ => False

/-- `Lexes pos cs ts`: the tokens `ts` cut the text `cs`, which starts at byte `pos`, into
blanks and lexemes, and close it with the end token. -/
inductive Lexes : ℕ → List Char → List Token → Prop
  | eof (pos : ℕ) : Lexes pos [] [⟨.eof, ⟨pos, pos⟩, ""⟩]
  | blank {pos : ℕ} {c : Char} {cs : List Char} {ts : List Token} (hc : isBlank c = true)
      (h : Lexes (pos + c.utf8Size) cs ts) : Lexes pos (c :: cs) ts
  | lexeme {pos : ℕ} {k : Token.Kind} {x rest : List Char} {ts : List Token} (hx : x ≠ [])
      (hk : k.Fits x rest) (h : Lexes (pos + byteLength x) rest ts) :
      Lexes pos (x ++ rest) (⟨k, ⟨pos, pos + byteLength x⟩, String.ofList x⟩ :: ts)

/-! ## Numerals -/

section Numerals

theorem allDigits_append {a b : List Char} : AllDigits (a ++ b) ↔ AllDigits a ∧ AllDigits b := by
  simp only [AllDigits, List.mem_append]
  exact ⟨fun h => ⟨fun d hd => h d (.inl hd), fun d hd => h d (.inr hd)⟩,
    fun h d hd => hd.elim (h.1 d) (h.2 d)⟩

theorem allDigits_digits (v : List Char) : AllDigits (Cut.digits v).taken :=
  fun _ hd => List.mem_takeWhile_imp hd

theorem IsMantissa.head {m : List Char} (hm : IsMantissa m) :
    ∃ d m', m = d :: m' ∧ (d.isDigit = true ∨ d = '.') := by
  cases hm with
  | whole ha hne =>
    obtain ⟨d, m', rfl⟩ := List.exists_cons_of_ne_nil hne
    exact ⟨d, m', rfl, .inl (ha d (by simp))⟩
  | @point a b ha _ _ =>
    cases a with
    | nil => exact ⟨'.', b, rfl, .inr rfl⟩
    | cons d a => exact ⟨d, a ++ '.' :: b, rfl, .inl (ha d (by simp))⟩

theorem IsMantissa.exists_digit {m : List Char} (hm : IsMantissa m) : ∃ d ∈ m, d.isDigit = true := by
  cases hm with
  | whole ha hne =>
    obtain ⟨d, m', rfl⟩ := List.exists_cons_of_ne_nil hne
    exact ⟨d, by simp, ha d (by simp)⟩
  | @point a b ha hb hne =>
    obtain ⟨d, hd⟩ := List.exists_mem_of_ne_nil _ hne
    exact ⟨d, by rcases List.mem_append.mp hd with h | h <;> simp [h],
      allDigits_append.mpr ⟨ha, hb⟩ d hd⟩

theorem IsExponent.head {e : List Char} (he : IsExponent e) :
    e = [] ∨ ∃ E e', e = E :: e' ∧ (E = 'e' ∨ E = 'E') := by
  cases he with
  | none => exact .inl rfl
  | mark hE _ _ _ => exact .inr ⟨_, _, rfl, hE⟩

theorem IsNumeral.head {y : List Char} (hy : IsNumeral y) :
    ∃ d y', y = d :: y' ∧ (d = '+' ∨ d = '-' ∨ d = '.' ∨ d.isDigit = true) := by
  obtain ⟨hs, hm, -⟩ := hy
  obtain ⟨d, m', rfl, hd⟩ := hm.head
  cases hs with
  | none => exact ⟨d, _, rfl, by tauto⟩
  | plus => exact ⟨'+', _, rfl, .inl rfl⟩
  | minus => exact ⟨'-', _, rfl, .inr (.inl rfl)⟩

theorem digits_append {a t : List Char} (ha : AllDigits a) :
    (Cut.digits (a ++ t)).taken = a ++ (Cut.digits t).taken ∧
      (Cut.digits (a ++ t)).rest = (Cut.digits t).rest := by
  simp only [Cut.digits, Cut.span]
  exact ⟨List.takeWhile_append_of_pos ha, List.dropWhile_append_of_pos ha⟩

theorem digits_of_not_digit {t : List Char} (ht : ∀ d ∈ t.head?, d.isDigit = false) :
    (Cut.digits t).taken = [] ∧ (Cut.digits t).rest = t := by
  cases t with
  | nil => exact ⟨rfl, rfl⟩
  | cons d t =>
    have hd : d.isDigit = false := ht d rfl
    simp [Cut.digits, Cut.span, hd]

theorem digits_longest {a t : List Char} (ha : AllDigits a) :
    a.length ≤ (Cut.digits (a ++ t)).taken.length ∧
      (a.length < (Cut.digits (a ++ t)).taken.length → ∃ d t', t = d :: t' ∧ d.isDigit = true) := by
  rw [(digits_append ha).1, List.length_append]
  refine ⟨Nat.le_add_right _ _, fun hlt => ?_⟩
  cases t with
  | nil => simp [Cut.digits, Cut.span] at hlt
  | cons d t' =>
    refine ⟨d, t', rfl, ?_⟩
    by_contra hd
    simp [Cut.digits, Cut.span, hd] at hlt

theorem fraction_cases (v : List Char) :
    ((Cut.fraction v).taken = [] ∧ (Cut.fraction v).rest = v ∧ ∀ r, v ≠ '.' :: r) ∨
      ∃ r, v = '.' :: r ∧ (Cut.fraction v).taken = '.' :: (Cut.digits r).taken ∧
        (Cut.fraction v).rest = (Cut.digits r).rest := by
  unfold Cut.fraction
  split
  · exact .inr ⟨_, rfl, rfl, rfl⟩
  · next h => exact .inl ⟨rfl, rfl, fun r hr => h r hr⟩

/-- The mantissa the lexer reads at the front of `v`: its digits, then a point and digits. -/
def Cut.mantissa (v : List Char) : Cut v := (Cut.digits v).andThen (Cut.fraction (Cut.digits v).rest)

theorem Cut.mantissa_taken (v : List Char) :
    (Cut.mantissa v).taken = (Cut.digits v).taken ++ (Cut.fraction (Cut.digits v).rest).taken := rfl

theorem Cut.mantissa_rest (v : List Char) :
    (Cut.mantissa v).rest = (Cut.fraction (Cut.digits v).rest).rest := rfl

theorem mantissa_point (r : List Char) :
    (Cut.mantissa ('.' :: r)).taken = '.' :: (Cut.digits r).taken ∧
      (Cut.mantissa ('.' :: r)).rest = (Cut.digits r).rest := by
  have h := digits_of_not_digit (t := '.' :: r) (by simp)
  rw [Cut.mantissa_taken, Cut.mantissa_rest, h.1, List.nil_append, h.2]
  exact ⟨rfl, rfl⟩

theorem mantissa_digit {c : Char} (hc : c.isDigit = true) (r : List Char) :
    (Cut.mantissa (c :: r)).taken = c :: (Cut.mantissa r).taken ∧
      (Cut.mantissa (c :: r)).rest = (Cut.mantissa r).rest := by
  have h := digits_append (a := [c]) (t := r) (by simpa [AllDigits] using hc)
  simp only [List.singleton_append] at h
  rw [Cut.mantissa_taken, Cut.mantissa_rest, h.1, List.cons_append, h.2]
  exact ⟨rfl, rfl⟩

theorem mantissa_longest {m t : List Char} (hm : IsMantissa m) :
    m.length ≤ (Cut.mantissa (m ++ t)).taken.length ∧
      (m.length < (Cut.mantissa (m ++ t)).taken.length →
        ∃ d t', t = d :: t' ∧ (d.isDigit = true ∨ d = '.')) := by
  cases hm with
  | whole ha hne =>
    obtain ⟨hle, hlt⟩ := digits_longest ha (t := t)
    rw [Cut.mantissa_taken, List.length_append]
    refine ⟨by omega, fun hlt' => ?_⟩
    rcases Nat.lt_or_ge m.length (Cut.digits (m ++ t)).taken.length with hshort | hfull
    · obtain ⟨d, t', rfl, hd⟩ := hlt hshort
      exact ⟨d, t', rfl, .inl hd⟩
    -- all the digits are `m`: the lexer read on only through a point right after them
    have hsplit := List.append_inj (Cut.digits (m ++ t)).split.symm (by omega)
    rcases fraction_cases (Cut.digits (m ++ t)).rest with ⟨hnone, -, -⟩ | ⟨r, hr, -, -⟩
    · simp [hnone] at hlt'; omega
    · exact ⟨'.', r, hsplit.2.trans hr, .inr rfl⟩
  | @point a b ha hb hne =>
    -- the point is no digit, so the lexer's digits are exactly `a`
    have hfull : a.length = (Cut.digits (a ++ '.' :: b ++ t)).taken.length := by
      obtain ⟨hle, hlt⟩ := digits_longest ha (t := '.' :: b ++ t)
      rw [List.append_assoc, List.cons_append] at *
      rcases Nat.lt_or_ge a.length (Cut.digits (a ++ '.' :: (b ++ t))).taken.length with h | h
      · obtain ⟨d, t', hdt, hd⟩ := hlt h
        simp only [List.cons.injEq] at hdt
        rw [← hdt.1] at hd
        exact absurd hd (by decide)
      · omega
    have hsplit := List.append_inj
      ((Cut.digits (a ++ '.' :: b ++ t)).split.trans (List.append_assoc _ _ _)).symm hfull
    have hdig := digits_longest hb (t := t)
    have hfrac : (Cut.fraction (Cut.digits (a ++ '.' :: b ++ t)).rest).taken =
        '.' :: (Cut.digits (b ++ t)).taken := by
      rw [← hsplit.2]
      rfl
    rw [Cut.mantissa_taken, hfrac]
    simp only [List.length_append, List.length_cons, ← hfull]
    refine ⟨by omega, fun hlt => ?_⟩
    obtain ⟨d, t', rfl, hd⟩ := hdig.2 (by omega)
    exact ⟨d, t', rfl, .inl hd⟩

/-- A sign character: what the lexer reads before a mantissa or after an exponent mark. -/
def IsSignChar (p : Char) : Prop := p = '+' ∨ p = '-'

theorem not_signChar_of_digit {d : Char} (hd : d.isDigit = true) : ¬ IsSignChar d := by
  rintro (rfl | rfl) <;> exact absurd hd (by decide)

theorem IsMantissa.head_not_signChar {m : List Char} (hm : IsMantissa m) :
    ∀ d ∈ m.head?, ¬ IsSignChar d := by
  obtain ⟨d, m', rfl, hd⟩ := hm.head
  rintro _ ⟨⟩
  rcases hd with hd | rfl
  · exact not_signChar_of_digit hd
  · rintro (h | h) <;> exact absurd h (by decide)

theorem first_sign {s rest : List Char} (hs : IsSign s)
    (hrest : s = [] → ∀ p ∈ rest.head?, ¬ IsSignChar p) :
    (Cut.first (fun c => c = '+' ∨ c = '-') (s ++ rest)).taken = s ∧
      (Cut.first (fun c => c = '+' ∨ c = '-') (s ++ rest)).rest = rest := by
  cases hs with
  | none =>
    cases rest with
    | nil => exact ⟨rfl, rfl⟩
    | cons p rest =>
      have hp : ¬ IsSignChar p := hrest rfl p rfl
      simp only [IsSignChar] at hp
      simp [Cut.first, hp]
  | plus => simp [Cut.first]
  | minus => simp [Cut.first]

theorem digitFollows_of {s ds t : List Char} (hs : IsSign s) (hds : AllDigits ds) (hne : ds ≠ []) :
    Cut.digitFollows (s ++ ds ++ t) = true := by
  obtain ⟨d, ds', rfl⟩ := List.exists_cons_of_ne_nil hne
  have hd : d.isDigit = true := hds d (by simp)
  have hsign := not_signChar_of_digit hd
  simp only [IsSignChar, not_or] at hsign
  cases hs with
  | none =>
    simp only [List.nil_append, List.cons_append]
    cases h : ds' ++ t with
    | nil => simpa [Cut.digitFollows] using hd
    | cons d' r => simpa [Cut.digitFollows, hsign] using hd
  | plus => simp [Cut.digitFollows, hd]
  | minus => simp [Cut.digitFollows, hd]

theorem digits_head_not_signChar {ds t : List Char} (hds : AllDigits ds) (hne : ds ≠ []) :
    ∀ p ∈ (ds ++ t).head?, ¬ IsSignChar p := by
  obtain ⟨d, ds', rfl⟩ := List.exists_cons_of_ne_nil hne
  rintro _ ⟨⟩
  exact not_signChar_of_digit (hds d (by simp))

theorem exponent_longest {e t : List Char} (he : IsExponent e) :
    e.length ≤ (Cut.exponent (e ++ t)).taken.length := by
  cases he with
  | none => exact Nat.zero_le _
  | @mark E s ds hE hs hds hne =>
    have hfollow := digitFollows_of hs hds hne (t := t)
    have hsign := first_sign hs (fun _ => digits_head_not_signChar hds hne (t := t))
    have hdig := (digits_longest hds (t := t)).1
    rw [List.append_assoc] at hfollow
    rw [List.cons_append, List.append_assoc, Cut.exponent, if_pos ⟨hE, hfollow⟩]
    dsimp only
    rw [hsign.1, hsign.2]
    simp only [List.length_cons, List.length_append]
    omega

theorem exponent_isExponent (v : List Char) : IsExponent (Cut.exponent v).taken := by
  match v with
  | [] => exact .none
  | E :: r =>
    rw [Cut.exponent]
    split
    · next h =>
      obtain ⟨hE, hfollow⟩ := h
      -- after the optional sign comes a digit, so the digits read are not empty
      have key : ∃ s d t, IsSign s ∧ d.isDigit = true ∧ r = s ++ d :: t := by
        match r, hfollow with
        | c :: d :: r', hfollow =>
          by_cases hc : c = '+' ∨ c = '-'
          · have hd : d.isDigit = true := by simpa [Cut.digitFollows, hc] using hfollow
            rcases hc with rfl | rfl
            · exact ⟨['+'], d, r', .plus, hd, rfl⟩
            · exact ⟨['-'], d, r', .minus, hd, rfl⟩
          · have hd : c.isDigit = true := by simpa [Cut.digitFollows, hc] using hfollow
            exact ⟨[], c, d :: r', .none, hd, rfl⟩
        | [c], hfollow =>
          have hd : c.isDigit = true := by simpa [Cut.digitFollows] using hfollow
          exact ⟨[], c, [], .none, hd, rfl⟩
        | [], hfollow => simp [Cut.digitFollows] at hfollow
      obtain ⟨s, d, t, hs, hd, rfl⟩ := key
      have hds : AllDigits [d] := by simpa [AllDigits] using hd
      have hsign := first_sign hs (fun _ => digits_head_not_signChar hds (List.cons_ne_nil _ _) (t := t))
      have hdig := (digits_append hds (t := t)).1
      simp only [List.singleton_append] at hsign hdig
      dsimp only
      rw [hsign.1, hsign.2, hdig]
      exact .mark hE hs (allDigits_append.mpr ⟨hds, allDigits_digits t⟩) (by simp)
    · exact .none

theorem mantissa_isMantissa (v : List Char) (hd : ∃ d ∈ (Cut.mantissa v).taken, d.isDigit = true) :
    IsMantissa (Cut.mantissa v).taken := by
  have hD := allDigits_digits v
  rw [Cut.mantissa_taken] at hd ⊢
  rcases fraction_cases (Cut.digits v).rest with ⟨hnone, -, -⟩ | ⟨r, -, hpoint, -⟩
  · rw [hnone, List.append_nil] at hd ⊢
    obtain ⟨d, hmem, -⟩ := hd
    exact .whole hD (List.ne_nil_of_mem hmem)
  · rw [hpoint] at hd ⊢
    refine .point hD (allDigits_digits r) fun hnil => ?_
    obtain ⟨d, hmem, hdig⟩ := hd
    rw [List.append_eq_nil_iff] at hnil
    simp only [hnil.1, hnil.2, List.nil_append, List.mem_singleton] at hmem
    rw [hmem] at hdig
    exact absurd hdig (by decide)

theorem eq_nil_of_allDigits {ds : List Char} (hds : AllDigits ds) (hno : ∀ d ∈ ds, d.isDigit = false) :
    ds = [] :=
  List.eq_nil_iff_forall_not_mem.mpr fun d hmem => by simpa [hds d hmem] using hno d hmem

theorem mantissa_of_no_digit (v : List Char) (hd : ¬ ∃ d ∈ (Cut.mantissa v).taken, d.isDigit = true) :
    (Cut.mantissa v).taken = [] ∨ (Cut.mantissa v).taken = ['.'] := by
  have hno : ∀ d ∈ (Cut.mantissa v).taken, d.isDigit = false := fun d hmem => by
    cases h : d.isDigit
    · rfl
    · exact absurd ⟨d, hmem, h⟩ hd
  rw [Cut.mantissa_taken] at hno ⊢
  have hD : (Cut.digits v).taken = [] :=
    eq_nil_of_allDigits (allDigits_digits v) fun d h => hno d (List.mem_append_left _ h)
  rw [hD, List.nil_append] at hno ⊢
  rcases fraction_cases (Cut.digits v).rest with ⟨hn, -, -⟩ | ⟨r, -, hpoint, -⟩
  · exact .inl hn
  · rw [hpoint] at hno ⊢
    have hD' : (Cut.digits r).taken = [] :=
      eq_nil_of_allDigits (allDigits_digits r) fun d h => hno d (List.mem_cons_of_mem _ h)
    rw [hD']
    exact .inr rfl

theorem IsNumeral.split {sgn v y : List Char} (hs : IsSign sgn)
    (hv : sgn = [] → ∀ p ∈ v.head?, ¬ IsSignChar p) (hy : IsNumeral y) (hpre : y <+: sgn ++ v) :
    ∃ m e t, IsMantissa m ∧ IsExponent e ∧ y = sgn ++ m ++ e ∧ m ++ e ++ t = v := by
  obtain ⟨t, ht⟩ := hpre
  obtain @⟨s, m, e, hs', hm, he⟩ := hy
  have hhead : s = [] → ∀ p ∈ (m ++ (e ++ t)).head?, ¬ IsSignChar p := fun _ p hp =>
    hm.head_not_signChar p (by obtain ⟨d, m', rfl, -⟩ := hm.head; simpa using hp)
  have hread := first_sign hs' hhead
  have hread' := first_sign hs hv
  simp only [List.append_assoc] at ht
  rw [ht] at hread
  obtain rfl : s = sgn := hread.1.symm.trans hread'.1
  refine ⟨m, e, t, hm, he, rfl, ?_⟩
  simpa [List.append_assoc] using List.append_cancel_left ht

theorem number_fits {sgn v : List Char} (hs : IsSign sgn) (hv : sgn = [] → ∀ p ∈ v.head?, ¬ IsSignChar p)
    (hd : ∃ d ∈ (Cut.mantissa v).taken, d.isDigit = true) :
    Token.Kind.number.Fits (sgn ++ (Cut.mantissa v).taken ++ (Cut.exponent (Cut.mantissa v).rest).taken)
      (Cut.exponent (Cut.mantissa v).rest).rest := by
  refine ⟨.mk hs (mantissa_isMantissa v hd) (exponent_isExponent _), fun y hpre hy => ?_⟩
  have hw : sgn ++ (Cut.mantissa v).taken ++ (Cut.exponent (Cut.mantissa v).rest).taken ++
      (Cut.exponent (Cut.mantissa v).rest).rest = sgn ++ v := by
    rw [List.append_assoc, (Cut.exponent _).split, List.append_assoc, (Cut.mantissa v).split]
  rw [hw] at hpre
  obtain ⟨m, e, t, hm, he, rfl, rfl⟩ := hy.split hs hv hpre
  rw [List.append_assoc m e t]
  obtain ⟨hle, hlt⟩ := mantissa_longest hm (t := e ++ t)
  simp only [List.length_append]
  rcases Nat.lt_or_ge m.length (Cut.mantissa (m ++ (e ++ t))).taken.length with hshort | hfull
  · -- a shorter mantissa is followed by a digit or a point, so no exponent can follow it
    obtain ⟨d, t', hdt, hd'⟩ := hlt hshort
    rcases he.head with rfl | ⟨E, e', rfl, hE⟩
    · simp only [List.length_nil]
      omega
    · simp only [List.cons_append, List.cons.injEq] at hdt
      rw [← hdt.1] at hd'
      rcases hE with rfl | rfl <;> rcases hd' with h | h <;> exact absurd h (by decide)
  · -- the whole mantissa: the exponent is read from the same place
    have hsplit := List.append_inj (Cut.mantissa (m ++ (e ++ t))).split.symm (by omega)
    have hexp := exponent_longest he (t := t)
    rw [hsplit.2] at hexp
    omega

theorem signError_fits {sgn v : List Char} (hs : IsSign sgn)
    (hv : sgn = [] → ∀ p ∈ v.head?, ¬ IsSignChar p)
    (hd : ¬ ∃ d ∈ (Cut.mantissa v).taken, d.isDigit = true) (hne : sgn ++ (Cut.mantissa v).taken ≠ []) :
    Token.Kind.error.Fits (sgn ++ (Cut.mantissa v).taken) (Cut.mantissa v).rest := by
  refine ⟨.inl ?_, fun y hpre hy => ?_⟩
  · rcases mantissa_of_no_digit v hd with h | h <;> rw [h] at hne ⊢ <;> cases hs <;> simp_all
  rw [List.append_assoc, (Cut.mantissa v).split] at hpre
  obtain ⟨m, e, t, hm, -, rfl, rfl⟩ := hy.split hs hv hpre
  have hle := (mantissa_longest hm (t := e ++ t)).1
  rw [List.append_assoc m e t] at hd
  have hpre' : m <+: (Cut.mantissa (m ++ (e ++ t))).taken :=
    List.prefix_of_prefix_length_le (List.prefix_append _ _)
      ⟨_, (Cut.mantissa (m ++ (e ++ t))).split⟩ hle
  obtain ⟨d, hmem, hdig⟩ := hm.exists_digit
  exact hd ⟨d, hpre'.subset hmem, hdig⟩

end Numerals

/-! ## Each lexeme fits its kind -/

section Lexemes

theorem head_dropWhile (p : Char → Bool) (l : List Char) : ∀ d ∈ (l.dropWhile p).head?, p d = false :=
  fun d hd => by simpa [Option.mem_def.mp hd] using List.head?_dropWhile_not p l

theorem comment_fits (c : Char) (cs : List Char) (h : c = '#' ∨ (c = '/' ∧ cs.head? = some '/')) :
    Token.Kind.comment.Fits (c :: (Cut.span (· ≠ '\n') cs).taken) (Cut.span (· ≠ '\n') cs).rest := by
  refine ⟨?_, fun d hd => by simpa using head_dropWhile _ cs d hd⟩
  have hbody : ∀ l : List Char, '\n' ∉ l.takeWhile (· ≠ '\n') := fun l hmem => by
    simpa using List.mem_takeWhile_imp hmem
  rcases h with rfl | ⟨rfl, hcs⟩
  · exact ⟨_, .inl rfl, hbody cs⟩
  · obtain ⟨r, rfl⟩ : ∃ r, cs = '/' :: r := by
      cases cs with
      | nil => simp at hcs
      | cons d r => exact ⟨r, by simpa using hcs⟩
    refine ⟨r.takeWhile (· ≠ '\n'), .inr ?_, hbody r⟩
    simp [Cut.span]

theorem ident_fits (c : Char) (cs : List Char) (h : Text.isAlphabetic c = true ∨ c = '_') :
    Token.Kind.ident.Fits (c :: (Cut.span isIdentChar cs).taken) (Cut.span isIdentChar cs).rest :=
  ⟨⟨h, fun _ hd => List.mem_takeWhile_imp hd⟩, head_dropWhile _ cs⟩

theorem stray_fits {c : Char} {cs : List Char} (h : IsStray c cs) : Token.Kind.error.Fits [c] cs := by
  refine ⟨.inr ⟨c, rfl, h⟩, fun y hpre hy => ?_⟩
  obtain ⟨d, y', rfl, hd⟩ := hy.head
  obtain ⟨t, ht⟩ := hpre
  simp only [List.cons_append, List.cons.injEq] at ht
  rw [ht.1] at hd
  obtain ⟨hmem, hdig, -⟩ := h
  rcases hd with rfl | rfl | rfl | hd
  · simp at hmem
  · simp at hmem
  · simp at hmem
  · rw [hdig] at hd
    exact Bool.false_ne_true hd

theorem numberTail_sign {c : Char} (hc : IsSignChar c) (cs : List Char) :
    numberTail c cs = if (Cut.mantissa cs).taken.any Char.isDigit then
      (true, (Cut.mantissa cs).andThen (Cut.exponent (Cut.mantissa cs).rest))
    else (false, Cut.mantissa cs) := by
  have hdot : c ≠ '.' := by rcases hc with rfl | rfl <;> decide
  have hdig : c.isDigit = false := by rcases hc with rfl | rfl <;> decide
  simp only [numberTail, hdot, hdig, if_false, Bool.false_eq_true, false_or]
  rw [if_neg hdot]
  rfl

theorem numberTail_point (cs : List Char) :
    numberTail '.' cs = if (Cut.digits cs).taken.any Char.isDigit then
      (true, (Cut.digits cs).andThen (Cut.exponent (Cut.digits cs).rest))
    else (false, Cut.digits cs) := by
  simp [numberTail]

theorem numberTail_digit {c : Char} (hc : c.isDigit = true) (cs : List Char) :
    numberTail c cs = (true, (Cut.mantissa cs).andThen (Cut.exponent (Cut.mantissa cs).rest)) := by
  have hdot : c ≠ '.' := by rintro rfl; exact absurd hc (by decide)
  simp only [numberTail, hdot, hc, if_false, true_or, if_true]
  rw [if_neg hdot]
  rfl

theorem numberTail_fits (c : Char) (cs : List Char) (hc : c = '+' ∨ c = '-' ∨ c = '.' ∨ c.isDigit = true) :
    (if (numberTail c cs).1 then Token.Kind.number else .error).Fits
      (c :: (numberTail c cs).2.taken) (numberTail c cs).2.rest := by
  have hany : ∀ l : List Char, l.any Char.isDigit = true ↔ ∃ d ∈ l, d.isDigit = true :=
    fun l => List.any_eq_true
  obtain hs | rfl | hc : IsSignChar c ∨ c = '.' ∨ c.isDigit = true := by
    rcases hc with h | h | h | h
    exacts [.inl (.inl h), .inl (.inr h), .inr (.inl h), .inr (.inr h)]
  · -- a sign, then the mantissa and exponent after it
    have hs' : IsSign [c] := by
      rcases hs with rfl | rfl
      exacts [.plus, .minus]
    have hv : [c] = [] → ∀ p ∈ cs.head?, ¬ IsSignChar p := fun h => absurd h (List.cons_ne_nil _ _)
    rw [numberTail_sign hs]
    by_cases hd : ∃ d ∈ (Cut.mantissa cs).taken, d.isDigit = true
    · rw [if_pos ((hany _).mpr hd)]
      exact number_fits hs' hv hd
    · rw [if_neg (mt (hany _).mp hd)]
      exact signError_fits hs' hv hd (List.cons_ne_nil _ _)
  · -- a point: the mantissa read from the point on
    have hv : ([] : List Char) = [] → ∀ p ∈ ('.' :: cs).head?, ¬ IsSignChar p := fun _ p hp => by
      obtain rfl : p = '.' := (Option.some.inj hp).symm
      rintro (h | h) <;> exact absurd h (by decide)
    obtain ⟨htaken, hrest⟩ := mantissa_point cs
    rw [numberTail_point]
    by_cases hd : ∃ d ∈ (Cut.digits cs).taken, d.isDigit = true
    · rw [if_pos ((hany _).mpr hd)]
      obtain ⟨d, hmem, hdig⟩ := hd
      have h := number_fits IsSign.none hv ⟨d, by rw [htaken]; exact List.mem_cons_of_mem _ hmem, hdig⟩
      rw [htaken, hrest] at h
      exact h
    · rw [if_neg (mt (hany _).mp hd)]
      have hd' : ¬ ∃ d ∈ (Cut.mantissa ('.' :: cs)).taken, d.isDigit = true := by
        rw [htaken]
        rintro ⟨d, hmem, hdig⟩
        rcases List.mem_cons.mp hmem with rfl | hmem
        · exact absurd hdig (by decide)
        · exact hd ⟨d, hmem, hdig⟩
      have h := signError_fits IsSign.none hv hd' (by rw [htaken]; exact List.cons_ne_nil _ _)
      rw [htaken, hrest] at h
      exact h
  · -- a digit: the mantissa read from the digit on
    have hv : ([] : List Char) = [] → ∀ p ∈ (c :: cs).head?, ¬ IsSignChar p := fun _ p hp => by
      obtain rfl : p = c := (Option.some.inj hp).symm
      exact not_signChar_of_digit hc
    obtain ⟨htaken, hrest⟩ := mantissa_digit hc cs
    rw [numberTail_digit hc]
    have h := number_fits IsSign.none hv ⟨c, by rw [htaken]; exact List.mem_cons_self, hc⟩
    rw [htaken, hrest] at h
    exact h
  
theorem lexeme_fits (c : Char) (cs : List Char) (hc : isBlank c = false) :
    (lexeme c cs).1.Fits (c :: (lexeme c cs).2.taken) (lexeme c cs).2.rest := by
  -- the branches one at a time, by `rw` rather than `split_ifs`, which simplifies every later
  -- condition at every split and is many times slower here
  unfold lexeme
  by_cases hnl : c = '\n'
  · rw [if_pos hnl]; exact congrArg (· :: []) hnl
  rw [if_neg hnl]
  by_cases hcom : c = '#' ∨ (c = '/' ∧ cs.head? = some '/')
  · rw [if_pos hcom]; exact comment_fits c cs hcom
  rw [if_neg hcom]
  by_cases heq : c = '='
  · rw [if_pos heq]; exact congrArg (· :: []) heq
  rw [if_neg heq]
  by_cases hcomma : c = ','
  · rw [if_pos hcomma]; exact congrArg (· :: []) hcomma
  rw [if_neg hcomma]
  by_cases hlb : c = '['
  · rw [if_pos hlb]; exact congrArg (· :: []) hlb
  rw [if_neg hlb]
  by_cases hrb : c = ']'
  · rw [if_pos hrb]; exact congrArg (· :: []) hrb
  rw [if_neg hrb]
  by_cases hlp : c = '('
  · rw [if_pos hlp]; exact congrArg (· :: []) hlp
  rw [if_neg hlp]
  by_cases hrp : c = ')'
  · rw [if_pos hrp]; exact congrArg (· :: []) hrp
  rw [if_neg hrp]
  by_cases hnum : c = '+' ∨ c = '-' ∨ c = '.' ∨ c.isDigit = true
  · rw [if_pos hnum]
    rcases h : numberTail c cs with ⟨ok, k⟩
    have hfits := numberTail_fits c cs hnum
    rw [h] at hfits
    exact hfits
  rw [if_neg hnum]
  by_cases hid : Text.isAlphabetic c = true ∨ c = '_'
  · rw [if_pos hid]; exact ident_fits c cs hid
  rw [if_neg hid]
  refine stray_fits ⟨?_, ?_, ?_, fun h => hid (.inr h), fun h1 h2 => hcom (.inr ⟨h1, h2⟩)⟩
  · simp only [isBlank, decide_eq_false_iff_not, not_or] at hc
    simp only [List.mem_cons, List.not_mem_nil, or_false, not_or]
    exact ⟨hc.1, hc.2.1, hc.2.2, hnl, fun h => hcom (.inl h), heq, hcomma, hlb, hrb, hlp, hrp,
      fun h => hnum (.inl h), fun h => hnum (.inr (.inl h)), fun h => hnum (.inr (.inr (.inl h)))⟩
  · cases h : c.isDigit
    · rfl
    · exact absurd (.inr (.inr (.inr h))) hnum
  · cases h : Text.isAlphabetic c
    · rfl
    · exact absurd (.inl h) hid

end Lexemes


/-! ## The whole text -/

section Text

@[simp] theorem byteLength_nil : byteLength [] = 0 := rfl

@[simp] theorem byteLength_cons (c : Char) (l : List Char) :
    byteLength (c :: l) = c.utf8Size + byteLength l := rfl

@[simp] theorem byteLength_append (a b : List Char) :
    byteLength (a ++ b) = byteLength a + byteLength b := by
  induction a with
  | nil => simp
  | cons c a ih => simp [ih, Nat.add_assoc]

theorem lexes_tokensFrom (pos : ℕ) (cs : List Char) : Lexes pos cs (tokensFrom pos cs) := by
  fun_induction tokensFrom pos cs with
  | case1 pos => exact .eof pos
  | case2 pos c cs hc ih => exact .blank hc ih
  | case3 pos c cs hc l text stop ih =>
    have hblank : isBlank c = false := by simpa using hc
    have h := Lexes.lexeme (List.cons_ne_nil c l.2.taken) (lexeme_fits c cs hblank) ih
    rwa [List.cons_append, l.2.split] at h

/-- `t` is the slice `x` of the text `pre ++ x ++ post`: its span the bytes before and through
`x`, its text `x`. -/
def Token.Slices (t : Token) (full : List Char) : Prop :=
  ∃ pre x post, full = pre ++ x ++ post ∧ t.span = ⟨byteLength pre, byteLength pre + byteLength x⟩ ∧
    t.text = String.ofList x

namespace Lexes

variable {pos : ℕ} {cs : List Char} {ts : List Token}

theorem ne_nil (h : Lexes pos cs ts) : ts ≠ [] := by
  induction h with
  | eof pos => simp
  | blank hc h ih => exact ih
  | lexeme hx hk h ih => simp

theorem getLast?_eq (h : Lexes pos cs ts) :
    ts.getLast? = some ⟨.eof, ⟨pos + byteLength cs, pos + byteLength cs⟩, ""⟩ := by
  induction h with
  | eof pos => simp
  | blank hc h ih => rw [ih, byteLength_cons, Nat.add_assoc]
  | lexeme hx hk h ih =>
    rw [List.getLast?_cons, ih, byteLength_append, Nat.add_assoc]
    rfl

theorem kind_ne_eof (h : Lexes pos cs ts) : ∀ t ∈ ts.dropLast, t.kind ≠ .eof := by
  induction h with
  | eof pos => simp
  | blank hc h ih => exact ih
  | @lexeme pos k x rest ts hx hk h ih =>
    rw [List.dropLast_cons_of_ne_nil h.ne_nil]
    rintro t (_ | ⟨_, ht⟩)
    · rintro rfl
      exact hk
    · exact ih t ht

theorem slices (h : Lexes pos cs ts) : ∀ pre, byteLength pre = pos → ∀ t ∈ ts, t.Slices (pre ++ cs) := by
  induction h with
  | eof pos =>
    rintro pre rfl t ht
    rw [List.mem_singleton.mp ht]
    exact ⟨pre, [], [], by simp, by simp, rfl⟩
  | @blank pos c cs ts hc h ih =>
    intro pre hpre t ht
    simpa using ih (pre ++ [c]) (by simp [hpre]) t ht
  | @lexeme pos k x rest ts hx hk h ih =>
    rintro pre rfl t (_ | ⟨_, ht⟩)
    · exact ⟨pre, x, rest, (List.append_assoc _ _ _).symm, rfl, rfl⟩
    · simpa using ih (pre ++ x) (byteLength_append _ _) t ht

theorem sorted (h : Lexes pos cs ts) :
    (∀ t ∈ ts, pos ≤ t.span.start) ∧ ts.Pairwise fun t u => t.span.stop ≤ u.span.start := by
  induction h with
  | eof pos => simp
  | blank hc h ih => exact ⟨fun t ht => Nat.le_trans (Nat.le_add_right _ _) (ih.1 t ht), ih.2⟩
  | lexeme hx hk h ih =>
    refine ⟨?_, List.pairwise_cons.mpr ⟨ih.1, ih.2⟩⟩
    rintro t (_ | ⟨_, ht⟩)
    · exact le_rfl
    · exact Nat.le_trans (Nat.le_add_right _ _) (ih.1 t ht)

theorem fits (h : Lexes pos cs ts) : ∀ t ∈ ts, t.kind = .eof ∨
    ∃ x rest, x ≠ [] ∧ t.kind.Fits x rest ∧ t.text = String.ofList x ∧
      t.span.stop = t.span.start + byteLength x := by
  induction h with
  | eof pos =>
    intro t ht
    rw [List.mem_singleton.mp ht]
    exact .inl rfl
  | blank hc h ih => exact ih
  | @lexeme pos k x rest ts hx hk h ih =>
    rintro t (_ | ⟨_, ht⟩)
    · exact .inr ⟨x, rest, hx, hk, rfl, rfl⟩
    · exact ih t ht

end Lexes

/-! ## Byte offsets into the string -/

theorem byteLength_eq_utf8ByteSize (l : List Char) : byteLength l = (String.ofList l).utf8ByteSize := by
  induction l with
  | nil => simp
  | cons c l ih =>
    rw [String.ofList_cons, String.utf8ByteSize_append, String.utf8ByteSize_singleton, byteLength_cons, ih]

theorem byteLength_pos {x : List Char} (hx : x ≠ []) : 0 < byteLength x := by
  obtain ⟨c, x, rfl⟩ := List.exists_cons_of_ne_nil hx
  have := Char.utf8Size_pos c
  simp only [byteLength_cons]
  omega

theorem extract_go₂ (x post : List Char) (i : ℕ) :
    String.Pos.Raw.extract.go₂ (x ++ post) ⟨i⟩ ⟨i + byteLength x⟩ = x := by
  induction x generalizing i with
  | nil => cases post <;> simp [String.Pos.Raw.extract.go₂]
  | cons c x ih =>
    have hne : (⟨i⟩ : String.Pos.Raw) ≠ ⟨i + byteLength (c :: x)⟩ := by
      have := Char.utf8Size_pos c
      simp only [ne_eq, String.Pos.Raw.mk.injEq, byteLength_cons]
      omega
    rw [List.cons_append, String.Pos.Raw.extract.go₂, if_neg hne, String.Pos.Raw.add_char_eq,
      byteLength_cons, ← Nat.add_assoc, ih]

theorem extract_go₁ (pre rest : List Char) (e : String.Pos.Raw) :
    ∀ i b, i + byteLength pre = b →
      String.Pos.Raw.extract.go₁ (pre ++ rest) ⟨i⟩ ⟨b⟩ e = String.Pos.Raw.extract.go₂ rest ⟨b⟩ e := by
  induction pre with
  | nil =>
    rintro i b rfl
    cases rest <;> simp [String.Pos.Raw.extract.go₁, String.Pos.Raw.extract.go₂]
  | cons c pre ih =>
    rintro i b rfl
    have hne : (⟨i⟩ : String.Pos.Raw) ≠ ⟨i + byteLength (c :: pre)⟩ := by
      have := Char.utf8Size_pos c
      simp only [ne_eq, String.Pos.Raw.mk.injEq, byteLength_cons]
      omega
    rw [List.cons_append, String.Pos.Raw.extract.go₁, if_neg hne, String.Pos.Raw.add_char_eq]
    exact ih _ _ (by simp [Nat.add_assoc])

theorem Token.Slices.bounds {t : Token} {s : String} (h : t.Slices s.toList) :
    t.span.start ≤ t.span.stop ∧ String.Pos.Raw.IsValid s ⟨t.span.start⟩ ∧
      String.Pos.Raw.IsValid s ⟨t.span.stop⟩ ∧
      t.text = String.Pos.Raw.extract s ⟨t.span.start⟩ ⟨t.span.stop⟩ := by
  obtain ⟨pre, x, post, hs, hspan, htext⟩ := h
  rw [hspan, htext]
  refine ⟨Nat.le_add_right _ _, ?_, ?_, ?_⟩
  · rw [String.Pos.Raw.isValid_iff_exists_take_toList]
    exact ⟨pre.length, by rw [hs, List.append_assoc, List.take_left, byteLength_eq_utf8ByteSize]⟩
  · rw [String.Pos.Raw.isValid_iff_exists_take_toList]
    refine ⟨(pre ++ x).length, ?_⟩
    dsimp only
    rw [hs, List.take_left, ← byteLength_append, byteLength_eq_utf8ByteSize]
  · by_cases hx : x = []
    · subst hx
      simp [String.Pos.Raw.extract]
    have hpos := byteLength_pos hx
    have hzero : (0 : String.Pos.Raw) = ⟨0⟩ := rfl
    rw [String.Pos.Raw.extract, if_neg (by simp only [ge_iff_le]; omega), hs, List.append_assoc]
    dsimp only
    rw [hzero, extract_go₁ pre (x ++ post) _ 0 _ (Nat.zero_add _), extract_go₂]

/-- Tokenizing loses nothing. The tokens cut the text into blanks and lexemes that fit their
kinds (`Lexes`); the end token, and only it, comes last, at the byte length of the text; and
every span lies on character boundaries, with the token's text what the string holds between
them. -/
theorem tokenize_lossless (s : String) :
    Lexes 0 s.toList (tokenize s) ∧
      (tokenize s).getLast? = some ⟨.eof, ⟨s.utf8ByteSize, s.utf8ByteSize⟩, ""⟩ ∧
      (∀ t ∈ (tokenize s).dropLast, t.kind ≠ .eof) ∧
      ∀ t ∈ tokenize s, t.span.start ≤ t.span.stop ∧ String.Pos.Raw.IsValid s ⟨t.span.start⟩ ∧
        String.Pos.Raw.IsValid s ⟨t.span.stop⟩ ∧
        t.text = String.Pos.Raw.extract s ⟨t.span.start⟩ ⟨t.span.stop⟩ := by
  have h := lexes_tokensFrom 0 s.toList
  refine ⟨h, ?_, h.kind_ne_eof, fun t ht => (h.slices [] rfl t ht).bounds⟩
  rw [tokenize, h.getLast?_eq, Nat.zero_add, byteLength_eq_utf8ByteSize, String.ofList_toList]

end Text

end RevisedSimplex.Source
