import RevisedSimplex.Source.Token
import RevisedSimplex.Decimal.Read
/-!
The syntax of a problem text and its parser. The grammar, one assignment a line:

    document   := (assignment | newline | comment)* end
    assignment := name '=' value comment? (newline | end)
    value      := number | '[' items ']' | '(' items ')'
    items      := (value (',' value)* ','?)?

Newlines and comments may stand before the `=`, before a value and anywhere inside a list; one
comment may follow a value. `Document.parse` is a recursive descent over token positions
(`Descent`); `run` reads the same grammar as an automaton, one token a move, with the open lists
on a stack of `Frame`s.
-/

namespace RevisedSimplex.Source

/-- A number or a list of values, with the span of its text. -/
inductive Value where
  | number (span : Span) (value : Float)
  | list (span : Span) (items : List Value)

def Value.span : Value → Span
  | .number span _ => span
  | .list span _ => span

mutual
def Value.depth : Value → Nat
  | .number _ _ => 0
  | .list _ items => 1 + Value.maxDepth items

def Value.maxDepth : List Value → Nat
  | [] => 0
  | v :: vs => max v.depth (Value.maxDepth vs)
end

/-- `name = value`, with the span from the name to the end of the value. -/
structure Assignment where
  span : Span
  name : String
  value : Value

structure Document where
  assignments : List Assignment

/-- What the parser expected where it stopped. -/
inductive Expectation where
  | kind (k : Token.Kind)
  | assignment
  | endOfLine
  /-- a number or a list -/
  | value
  deriving DecidableEq, Repr

def Expectation.describe : Expectation → String
  | .kind k => k.name
  | .assignment => "assignment"
  | .endOfLine => "end of line"
  | .value => "number or list"

inductive ParseError where
  /-- a token that does not fit, with what was expected there -/
  | unexpected (expected : Expectation) (found : Token.Kind) (span : Span)
  | endOfInput
  /-- a number token whose text is no decimal -/
  | invalidNumber (text : String)
  deriving DecidableEq, Repr

def Span.describe (s : Span) : String :=
  "Span \x7b start: " ++ toString s.start ++ ", end: " ++ toString s.stop ++ " \x7d"

def ParseError.message : ParseError → String
  | .unexpected e k s =>
    "Unexpected token: expected " ++ e.describe ++ ", found " ++ k.name ++ " at position " ++
      s.describe
  | .endOfInput => "Unexpected end of file"
  | .invalidNumber t => "Invalid number: " ++ t

/-- The error for token `t` where `e` was expected; at the end token, the end of input. -/
def ParseError.at (e : Expectation) (t : Token) : ParseError :=
  if t.kind = .eof then .endOfInput else .unexpected e t.kind t.span

def Token.isTrivia (t : Token) : Bool := t.kind = .newline ∨ t.kind = .comment

def numberValue (t : Token) : Except ParseError Value :=
  match Decimal.readFloat? t.text with
  | some x => .ok (.number t.span x)
  | none => .error (.invalidNumber t.text)

/-! ## The recursive descent -/

/-- Why a descent stops without a result: an error in the text, or its fuel used up. -/
inductive Stop where
  | failed (e : ParseError)
  | outOfFuel
  deriving DecidableEq, Repr

namespace Descent

/-! The parser's state is its position in the tokens, which never change. -/

variable (ts : List Token)

def current (pos : Nat) : Option Token := ts[pos]?

def peekKind (pos : Nat) : Token.Kind := ((current ts pos).map (·.kind)).getD .eof

def skipTrivia (pos : Nat) : Nat := pos + ((ts.drop pos).takeWhile Token.isTrivia).length

def unexpected (e : Expectation) (pos : Nat) : ParseError :=
  match current ts pos with
  | some t => .at e t
  | none => .endOfInput

def expect (k : Token.Kind) (pos : Nat) : Except ParseError (Token × Nat) :=
  let pos := skipTrivia ts pos
  match current ts pos with
  | some t => if t.kind = k then .ok (t, pos + 1) else .error (.at (.kind k) t)
  | none => .error .endOfInput

def parseNumber (pos : Nat) : Except ParseError (Value × Nat) :=
  match expect ts .number pos with
  | .ok (t, pos) => (numberValue t).map (·, pos)
  | .error e => .error e

mutual
def parseValue : Nat → Nat → Except Stop (Value × Nat)
  | 0, _ => .error .outOfFuel
  | fuel + 1, pos =>
    let pos := skipTrivia ts pos
    match peekKind ts pos with
    | .number => (parseNumber ts pos).mapError .failed
    | .lbracket => parseList fuel .rbracket pos
    | .lparen => parseList fuel .rparen pos
    | _ => .error (.failed (unexpected ts .value pos))

/-- A list whose opener is the current token, up to `close`. -/
def parseList : Nat → Token.Kind → Nat → Except Stop (Value × Nat)
  | 0, _, _ => .error .outOfFuel
  | fuel + 1, close, pos =>
    match current ts pos with
    | none => .error (.failed .endOfInput)
    | some opener =>
      match listItems fuel close [] (pos + 1) with
      | .error e => .error e
      | .ok (items, pos) =>
        match expect ts close pos with
        | .error e => .error (.failed e)
        | .ok (t, pos) => .ok (.list (opener.span.merge t.span) items.reverse, pos)

/-- The loop of `parseList`: items separated by commas, the last first, up to `close` or to
an item with no comma after it. -/
def listItems : Nat → Token.Kind → List Value → Nat → Except Stop (List Value × Nat)
  | 0, _, _, _ => .error .outOfFuel
  | fuel + 1, close, items, pos =>
    let pos := skipTrivia ts pos
    if peekKind ts pos = close then .ok (items, pos)
    else
      match parseValue fuel pos with
      | .error e => .error e
      | .ok (v, pos) =>
        let pos := skipTrivia ts pos
        if peekKind ts pos = .comma then listItems fuel close (v :: items) (pos + 1)
        else .ok (v :: items, pos)
end

/-- `name = value`, then at most one comment and the end of the line, which stays unread. -/
def parseAssignment (fuel pos : Nat) : Except Stop (Assignment × Nat) :=
  match expect ts .ident pos with
  | .error e => .error (.failed e)
  | .ok (name, pos) =>
    match expect ts .equals pos with
    | .error e => .error (.failed e)
    | .ok (_, pos) =>
      match parseValue ts fuel pos with
      | .error e => .error e
      | .ok (v, pos) =>
        let pos := if peekKind ts pos = .comment then pos + 1 else pos
        match peekKind ts pos with
        | .newline | .eof => .ok (⟨name.span.merge v.span, name.text, v⟩, pos)
        | _ => .error (.failed (unexpected ts .endOfLine pos))

/-- The loop of the program: assignments up to the end token, the last first in `done`. -/
def assignments : Nat → List Assignment → Nat → Except Stop (List Assignment)
  | 0, _, _ => .error .outOfFuel
  | fuel + 1, done, pos =>
    let pos := skipTrivia ts pos
    match peekKind ts pos with
    | .eof => .ok done.reverse
    | .ident =>
      match parseAssignment ts fuel pos with
      | .error e => .error e
      | .ok (a, pos) => assignments fuel (a :: done) pos
    | _ => .error (.failed (unexpected ts .assignment pos))

/-- Three calls for every token: enough, as `assignments_ne_outOfFuel` shows. -/
def parseProgram : Except Stop Document :=
  (assignments ts (3 * ts.length + 1) [] 0).map (⟨·⟩)

end Descent

def Document.parse (source : String) : Except ParseError Document :=
  match Descent.parseProgram (tokenize source) with
  | .ok d => .ok d
  | .error (.failed e) => .error e
  | .error .outOfFuel => .error .endOfInput

/-! ## The automaton -/

/-- A list that is open: the kind of its closer, the span of its opener, and its items so
far, the last first. -/
structure Frame where
  closer : Token.Kind
  opener : Span
  items : List Value

def Frame.close (f : Frame) (close : Span) : Value :=
  .list (f.opener.merge close) f.items.reverse

inductive Phase where
  /-- between assignments -/
  | statement
  /-- after the name of an assignment, waiting for `=` -/
  | equals (name : Token)
  /-- waiting for a value, or for the closer of the innermost open list -/
  | item (name : Token) (frames : List Frame)
  /-- after an item of the list `f`, waiting for `,` or its closer -/
  | separator (name : Token) (f : Frame) (outer : List Frame)
  /-- after a whole assignment, waiting for the end of its line; `commented` once a comment
  was read there -/
  | lineEnd (a : Assignment) (commented : Bool)

/-- The phase after a value is complete: the assignment is done if no list is open, else
the value becomes an item of the innermost list. -/
def Phase.deliver (name : Token) (v : Value) : List Frame → Phase
  | [] => .lineEnd ⟨name.span.merge v.span, name.text, v⟩ false
  | f :: outer => .separator name { f with items := v :: f.items } outer

/-- Runs the automaton over the tokens; `done` holds the finished assignments, the last
first. -/
def run (done : List Assignment) : Phase → List Token → Except ParseError (List Assignment)
  | _, [] => .error .endOfInput
  | .statement, t :: ts =>
    match t.kind with
    | .newline | .comment => run done .statement ts
    | .eof => .ok done.reverse
    | .ident => run done (.equals t) ts
    | _ => .error (.at .assignment t)
  | .equals name, t :: ts =>
    if t.isTrivia then run done (.equals name) ts
    else if t.kind = .equals then run done (.item name []) ts
    else .error (.at (.kind .equals) t)
  | .item name frames, t :: ts =>
    if t.isTrivia then run done (.item name frames) ts
    else match t.kind, frames with
      | .number, _ =>
        match numberValue t with
        | .ok v => run done (Phase.deliver name v frames) ts
        | .error e => .error e
      | .lbracket, _ => run done (.item name (⟨.rbracket, t.span, []⟩ :: frames)) ts
      | .lparen, _ => run done (.item name (⟨.rparen, t.span, []⟩ :: frames)) ts
      | k, f :: outer =>
        if k = f.closer then run done (Phase.deliver name (f.close t.span) outer) ts
        else .error (.at .value t)
      | _, [] => .error (.at .value t)
  | .separator name f outer, t :: ts =>
    if t.isTrivia then run done (.separator name f outer) ts
    else if t.kind = .comma then run done (.item name (f :: outer)) ts
    else if t.kind = f.closer then run done (Phase.deliver name (f.close t.span) outer) ts
    else .error (.at (.kind f.closer) t)
  | .lineEnd a commented, t :: ts =>
    if t.kind = .comment ∧ !commented then run done (.lineEnd a true) ts
    else if t.kind = .newline then run (a :: done) .statement ts
    else if t.kind = .eof then .ok (a :: done).reverse
    else .error (.at .endOfLine t)

end RevisedSimplex.Source
