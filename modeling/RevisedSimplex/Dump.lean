import RevisedSimplex.Decimal.Notation
import RevisedSimplex.Text.GraphemeExtend
import RevisedSimplex.Text.Hidden
/-!
Records written out as debug text or as JSON.

A `Dump` is a tree of records, lists, optional values and scalars, and it is written in two
ways. Debug text names each record, `Span { start: 0, end: 2 }`, on one line, or with each
field on a line of its own, four spaces in per level and a comma after every item. JSON
leaves record names out and indents by two spaces; a case of an enumeration that carries
fields is an object with one key, its name. Numbers are written in the `listed` notation in
debug text and the `json` one in JSON, where a number that is not finite is `null`. Debug text
writes characters that show nothing of their own and characters that extend the one before
them as escapes, `\u{301}`; JSON escapes control characters only.

Main definitions: `Dump`, `Dump.debug`, `Dump.pretty`, `Dump.json`.
-/

namespace RevisedSimplex

/-- A value to be written out. -/
inductive Dump where
  | float (x : Float)
  | nat (n : Nat)
  | bool (b : Bool)
  | string (s : String)
  /-- an optional value that is absent -/
  | none
  /-- an optional value that is present -/
  | some (d : Dump)
  /-- a case of an enumeration without fields: its debug name and its JSON name -/
  | tag (debugName jsonName : String)
  | list (items : List Dump)
  /-- a record; a tagged one is a case of an enumeration, named in JSON as well -/
  | record (name : String) (tagged : Bool) (fields : List (String × Dump))

namespace Dump

def hexDigits (n : Nat) : String :=
  String.ofList ((Nat.toDigits 16 n).map Char.toLower)

def debugChar (c : Char) : String :=
  if c = '"' then "\\\""
  else if c = '\\' then "\\\\"
  else if c = '\n' then "\\n"
  else if c = '\r' then "\\r"
  else if c = '\t' then "\\t"
  else if c = '\x00' then "\\0"
  else if Text.isGraphemeExtend c ∨ Text.isHidden c then
    "\\u\x7b" ++ hexDigits c.toNat ++ "\x7d"
  else c.toString

def debugString (s : String) : String :=
  "\"" ++ String.join (s.toList.map debugChar) ++ "\""

def jsonChar (c : Char) : String :=
  if c = '"' then "\\\""
  else if c = '\\' then "\\\\"
  else if c = '\n' then "\\n"
  else if c = '\r' then "\\r"
  else if c = '\t' then "\\t"
  else if c = '\x08' then "\\b"
  else if c = '\x0c' then "\\f"
  else if c.toNat < 32 then
    "\\u00" ++ (if c.toNat < 16 then "0" else "") ++ hexDigits c.toNat
  else c.toString

def jsonString (s : String) : String :=
  "\"" ++ String.join (s.toList.map jsonChar) ++ "\""

theorem sizeOf_field_lt {kv : String × Dump} {fields : List (String × Dump)} (h : kv ∈ fields) :
    sizeOf kv.2 < sizeOf fields := by
  have := List.sizeOf_lt_of_mem h
  cases kv
  simp only [Prod.mk.sizeOf_spec] at this ⊢
  omega

/-- The debug text of a value, on one line. -/
def debug : Dump → String
  | .float x => Decimal.listed.render x
  | .nat n => toString n
  | .bool b => toString b
  | .string s => debugString s
  | .none => "None"
  | .some d => "Some(" ++ d.debug ++ ")"
  | .tag name _ => name
  | .list [] => "[]"
  | .list items => "[" ++ ", ".intercalate (items.map debug) ++ "]"
  | .record name _ [] => name
  | .record name _ fields =>
    name ++ " \x7b " ++ ", ".intercalate (fields.map fun kv => kv.1 ++ ": " ++ kv.2.debug) ++ " \x7d"
decreasing_by
  all_goals simp_wf
  all_goals first
    | exact Nat.lt_of_lt_of_le (List.sizeOf_lt_of_mem ‹_ ∈ _›) (by omega)
    | exact Nat.lt_of_lt_of_le (sizeOf_field_lt ‹_ ∈ _›) (by omega)

def spaces (n : Nat) : String := String.ofList (List.replicate n ' ')

/-- The debug text of a value with a field or item per line, `indent` spaces in. -/
def pretty (indent : Nat) : Dump → String
  | .some d => "Some(\n" ++ spaces (indent + 4) ++ d.pretty (indent + 4) ++ ",\n" ++ spaces indent ++ ")"
  | .list [] => "[]"
  | .list items =>
    "[\n" ++ String.join (items.map fun d => spaces (indent + 4) ++ d.pretty (indent + 4) ++ ",\n") ++
      spaces indent ++ "]"
  | .record name _ [] => name
  | .record name _ fields =>
    name ++ " \x7b\n" ++
      String.join (fields.map fun kv =>
        spaces (indent + 4) ++ kv.1 ++ ": " ++ kv.2.pretty (indent + 4) ++ ",\n") ++
      spaces indent ++ "\x7d"
  | d => d.debug
termination_by d => sizeOf d
decreasing_by
  all_goals simp_wf
  all_goals first
    | omega
    | exact Nat.lt_of_lt_of_le (List.sizeOf_lt_of_mem ‹_ ∈ _›) (by omega)
    | exact Nat.lt_of_lt_of_le (sizeOf_field_lt ‹_ ∈ _›) (by omega)

/-- The JSON text of a value, `indent` spaces in. -/
def json (indent : Nat) : Dump → String
  | .float x => if x.isFinite then Decimal.json.render x else "null"
  | .nat n => toString n
  | .bool b => toString b
  | .string s => jsonString s
  | .none => "null"
  | .some d => d.json indent
  | .tag _ name => jsonString name
  | .list [] => "[]"
  | .list items =>
    "[\n" ++ ",\n".intercalate (items.map fun d => spaces (indent + 2) ++ d.json (indent + 2)) ++
      "\n" ++ spaces indent ++ "]"
  | .record name tagged fields =>
    let inner := if tagged then indent + 2 else indent
    let body :=
      if fields.isEmpty then "\x7b\x7d" else
      "\x7b\n" ++
        ",\n".intercalate (fields.map fun kv =>
          spaces (inner + 2) ++ jsonString kv.1 ++ ": " ++ kv.2.json (inner + 2)) ++
        "\n" ++ spaces inner ++ "\x7d"
    if tagged then
      "\x7b\n" ++ spaces (indent + 2) ++ jsonString name ++ ": " ++ body ++ "\n" ++ spaces indent ++ "\x7d"
    else body
termination_by d => sizeOf d
decreasing_by
  all_goals simp_wf
  all_goals first
    | omega
    | exact Nat.lt_of_lt_of_le (List.sizeOf_lt_of_mem ‹_ ∈ _›) (by omega)
    | exact Nat.lt_of_lt_of_le (sizeOf_field_lt ‹_ ∈ _›) (by omega)

end Dump

end RevisedSimplex
