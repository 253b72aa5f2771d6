import RevisedSimplex.Text.Numeric
/-!
Tokens of a problem text.

The text is cut into lexemes from left to right. Blanks (space, tab and carriage return)
separate lexemes and belong to none. A newline, `=`, `,` and the brackets `[ ] ( )` are
lexemes of one character. A comment runs from `#` or `//` up to the next newline. A number
is `[+-]? d* (. d*)?` with at least one digit, followed by an exponent `[eE][+-]?d+` only when
a digit does follow; a sign or point without a digit is an error lexeme of what was read. An
identifier starts with an alphabetic character or `_` and goes on with alphanumerics and `_`.
Any other character is an error lexeme of its own. The list ends with an empty end token.

Every lexeme is cut off the front of the text by a `Cut`, whose proof field says that nothing
is lost; spans count UTF-8 bytes.

Main definitions: `Span`, `Token.Kind`, `Token`, `Cut`, `tokenize`.
-/

namespace RevisedSimplex.Source

/-- A range of UTF-8 byte offsets into the source, the end excluded. -/
structure Span where
  start : Nat
  stop : Nat
  deriving DecidableEq, Repr

def Span.merge (a b : Span) : Span := ⟨min a.start b.start, max a.stop b.stop⟩

/-- What a lexeme is. -/
inductive Token.Kind where
  | ident
  | number
  | equals
  | comma
  | lbracket
  | rbracket
  | lparen
  | rparen
  | newline
  | comment
  | eof
  | error
  deriving DecidableEq, Repr

def Token.Kind.name : Token.Kind → String
  | .ident => "Ident"
  | .number => "Number"
  | .equals => "Equals"
  | .comma => "Comma"
  | .lbracket => "LBracket"
  | .rbracket => "RBracket"
  | .lparen => "LParen"
  | .rparen => "RParen"
  | .newline => "Newline"
  | .comment => "Comment"
  | .eof => "Eof"
  | .error => "Error"

/-- A lexeme with its kind and where it stands. -/
structure Token where
  kind : Token.Kind
  span : Span
  text : String
  deriving Repr

/-- A split of a character list into a taken front and the rest. -/
structure Cut (cs : List Char) where
  taken : List Char
  rest : List Char
  split : taken ++ rest = cs

namespace Cut

def empty (cs : List Char) : Cut cs := ⟨[], cs, rfl⟩

def span (p : Char → Bool) (cs : List Char) : Cut cs :=
  ⟨cs.takeWhile p, cs.dropWhile p, List.takeWhile_append_dropWhile⟩

def digits (cs : List Char) : Cut cs := span Char.isDigit cs

def first (p : Char → Bool) : (cs : List Char) → Cut cs
  | c :: r => if p c then ⟨[c], r, rfl⟩ else ⟨[], c :: r, rfl⟩
  | [] => ⟨[], [], rfl⟩

def andThen {cs : List Char} (a : Cut cs) (b : Cut a.rest) : Cut cs :=
  ⟨a.taken ++ b.taken, b.rest, by rw [List.append_assoc, b.split, a.split]⟩

theorem rest_length_le {cs : List Char} (k : Cut cs) : k.rest.length ≤ cs.length := by
  have h := congrArg List.length k.split
  simp at h
  omega

def fraction : (cs : List Char) → Cut cs
  | '.' :: r =>
    let ds := digits r
    ⟨'.' :: ds.taken, ds.rest, by rw [List.cons_append, ds.split]⟩
  | cs => empty cs

def digitFollows : List Char → Bool
  | c :: d :: _ => if c = '+' ∨ c = '-' then d.isDigit else c.isDigit
  | [c] => c.isDigit
  | [] => false

def exponent : (cs : List Char) → Cut cs
  | e :: r =>
    if (e = 'e' ∨ e = 'E') ∧ digitFollows r = true then
      let sign := first (fun c => c = '+' ∨ c = '-') r
      let ds := digits sign.rest
      ⟨e :: (sign.taken ++ ds.taken), ds.rest, by
        rw [List.cons_append, List.append_assoc, ds.split, sign.split]⟩
    else empty (e :: r)
  | [] => empty []

end Cut

def isBlank (c : Char) : Bool := c = ' ' ∨ c = '\t' ∨ c = '\r'

def isIdentChar (c : Char) : Bool := Text.isAlphanumeric c ∨ c = '_'

/-- The rest of a number whose first character `c` (a sign, a point or a digit) is already
taken: whether the number has a digit before its exponent, and the cut after `c`. Without a
digit the lexeme ends before any exponent. -/
def numberTail (c : Char) (cs : List Char) : Bool × Cut cs :=
  let mantissa : Cut cs :=
    if c = '.' then Cut.digits cs
    else
      let whole := Cut.digits cs
      whole.andThen (Cut.fraction whole.rest)
  if c.isDigit ∨ mantissa.taken.any Char.isDigit then
    (true, mantissa.andThen (Cut.exponent mantissa.rest))
  else (false, mantissa)

/-- The kind of the lexeme that starts with `c`, and the cut of the characters after `c`
that belong to it. -/
def lexeme (c : Char) (cs : List Char) : Token.Kind × Cut cs :=
  if c = '\n' then (.newline, Cut.empty cs)
  else if c = '#' ∨ (c = '/' ∧ cs.head? = some '/') then (.comment, Cut.span (· ≠ '\n') cs)
  else if c = '=' then (.equals, Cut.empty cs)
  else if c = ',' then (.comma, Cut.empty cs)
  else if c = '[' then (.lbracket, Cut.empty cs)
  else if c = ']' then (.rbracket, Cut.empty cs)
  else if c = '(' then (.lparen, Cut.empty cs)
  else if c = ')' then (.rparen, Cut.empty cs)
  else if c = '+' ∨ c = '-' ∨ c = '.' ∨ c.isDigit then
    let (ok, k) := numberTail c cs
    (if ok then .number else .error, k)
  else if Text.isAlphabetic c ∨ c = '_' then (.ident, Cut.span isIdentChar cs)
  else (.error, Cut.empty cs)

def byteLength (cs : List Char) : Nat := (cs.map Char.utf8Size).foldr (· + ·) 0

/-- The tokens of a text that starts at byte offset `pos`, ending with the end token. -/
def tokensFrom (pos : Nat) : List Char → List Token
  | [] => [⟨.eof, ⟨pos, pos⟩, ""⟩]
  | c :: cs =>
    if isBlank c then tokensFrom (pos + c.utf8Size) cs
    else
      let l := lexeme c cs
      let text := c :: l.2.taken
      let stop := pos + byteLength text
      ⟨l.1, ⟨pos, stop⟩, String.ofList text⟩ :: tokensFrom stop l.2.rest
termination_by cs => cs.length
decreasing_by
  · simp
  · have := (lexeme c cs).2.rest_length_le
    simp
    omega

/-- The tokens of a source text. -/
def tokenize (source : String) : List Token := tokensFrom 0 source.toList

end RevisedSimplex.Source
