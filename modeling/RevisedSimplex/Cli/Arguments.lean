import RevisedSimplex.Cli.Commands
import RevisedSimplex.Decimal.Read
import RevisedSimplex.Text.Similarity
/-!
Reading the command line's arguments into a request, or into help or a refusal.

After the command come its arguments: one file and options. A long option is written `--name`,
and takes its value from the next argument or after `=`; a short one is a letter after a dash,
several letters may share a dash, and a letter's value may follow it at once (`-fjson`,
`-f=json`). After `--` every argument is a file. `-h` and `--help` print the help of the command
they follow; `help` followed by command names prints theirs.

Arguments are read in order. An option that takes a value, and the file, wait until the next
argument that is taken, or the end, before they are taken themselves. What is taken is checked
as it is taken: an option taken twice, a missing or malformed value, an unknown option. After
the last argument come the options that exclude each other, then the file, which is required. A
refusal names what is wrong, may give tips, and shows the usage: the full usage of the command,
or the arguments given so far when that helps more. The arguments of a command form one group,
and once one of them is taken, the usage line of a value given to an option that takes none
shows the whole group, `<FILE|--log <LOG>|...>`, instead of its members. An unknown option that resembles a known one,
or a command name that resembles a command, is named in a tip.

Main definitions: `Reading`, `Request`, `Stop`, `readArguments`.
-/

namespace RevisedSimplex.Cli

/-! ## Refusals -/

def refusal (what : String) (tips : List String) (usage : Option String) (pointToHelp : Bool) :
    String :=
  "error: " ++ what ++
    (if tips.isEmpty then "" else "\n" ++ String.join (tips.map ("\n  tip: " ++ ·))) ++
    (match usage with
      | some u => "\n\nUsage: " ++ u
      | none => "") ++
    (if pointToHelp then "\n\nFor more information, try '--help'.\n" else "\n")

def unexpected (arg : String) (tips : List String) (usage : String) : String :=
  refusal ("unexpected argument '" ++ arg ++ "' found") tips (some usage) true

def asValueTip (arg : String) : String := "to pass '" ++ arg ++ "' as a value, use '-- " ++ arg ++ "'"

def emptyValue (arg : String) : String :=
  refusal ("a value is required for '" ++ arg ++ "' but none was supplied") [] none true

def invalidValue (value arg reason : String) : String :=
  refusal ("invalid value '" ++ value ++ "' for '" ++ arg ++ "': " ++ reason) [] none true

def unrecognized (name usage : String) (pointToHelp : Bool) : String :=
  refusal ("unrecognized subcommand '" ++ name ++ "'") [] (some usage) pointToHelp

/-! ## Reading a command's arguments -/

/-- An argument of a command: one of its options, or the file. -/
inductive Slot where
  | flag (f : Flag)
  | file
  deriving DecidableEq, Repr

def Slot.text : Slot → String
  | .flag f => f.text
  | .file => "<FILE>"

/-- The state of reading a command's arguments. -/
structure Reading where
  /-- the arguments taken, in the order they were taken, with their values -/
  given : List (Slot × Option String)
  /-- an argument read but not yet taken, with its value once that is read -/
  pending : Option (Slot × Option String)
  /-- whether `--` has been read, after which every argument is a file -/
  trailing : Bool

def Reading.start : Reading := ⟨[], none, false⟩

def Reading.has (r : Reading) (s : Slot) : Bool := r.given.any (·.1 = s)

def Slot.named (long : String) : Slot → Bool
  | .flag f => f.long == long
  | .file => false

def Reading.valueOf (r : Reading) (long : String) : Option String :=
  (r.given.find? (·.1.named long)).bind (·.2)

def Reading.flagged (r : Reading) (long : String) : Bool := r.given.any (·.1.named long)

def Command.usageWith (c : Command) (slots : List Slot) : String :=
  let named := slots.filterMap fun s => match s with
    | .flag f => some f.text
    | .file => none
  programName ++ " " ++ c.name ++ String.join (named.eraseDups.map (" " ++ ·)) ++ " <FILE>"

def Command.group (c : Command) : String :=
  "<" ++ "|".intercalate ("FILE" :: c.flags.map Flag.text) ++ ">"

def Command.usageShowing (c : Command) (grouped : Bool) (slots : List Slot) : String :=
  if grouped then
    let outside := slots.filter (· = .flag helpFlag)
    programName ++ " " ++ c.name ++
      String.join ((outside.map Slot.text).eraseDups.map (" " ++ ·)) ++ " " ++ c.group
  else c.usageWith slots

def Reading.slots (r : Reading) : List Slot := r.given.map (·.1)

def ValueKind.fault (k : ValueKind) (arg value : String) : Option String :=
  match k with
  | .path => if value.isEmpty then some (emptyValue arg) else none
  | .number =>
    if value.isEmpty then some (invalidValue value arg "cannot parse float from empty string")
    else if (Decimal.readFloat? value).isNone then some (invalidValue value arg "invalid float literal")
    else none
  | .text => none

def Reading.accept (c : Command) (r : Reading) (slot : Slot) (value : Option String) :
    Reading × Option String :=
  let needsValue := match slot with
    | .flag f => f.takesValue
    | .file => true
  if needsValue && value.isNone then (r, some (emptyValue slot.text))
  else if r.has slot then
    ({ r with given := r.given.filter (·.1 ≠ slot) },
      some (refusal ("the argument '" ++ slot.text ++ "' cannot be used multiple times") []
        (some c.usage) true))
  else
    let r' := { r with given := r.given ++ [(slot, value)] }
    let kind := match slot with
      | .flag f => f.kind
      | .file => .path
    (r', value.bind (kind.fault slot.text))

def Reading.settle (c : Command) (r : Reading) : Reading × Option String :=
  match r.pending with
  | none => (r, none)
  | some (s, v) => Reading.accept c { r with pending := none } s v

/-- What reading the arguments ends in, short of a request: help to print, or a refusal. -/
inductive Stop where
  /-- help, printed on standard output -/
  | help (text : String)
  /-- a refusal, or help printed on standard error -/
  | refused (text : String)
  deriving DecidableEq, Repr

def proceed (step : Reading × Option String) : Except Stop Reading :=
  match step with
  | (r, none) => .ok r
  | (_, some text) => .error (.refused text)

def Reading.take (c : Command) (r : Reading) (slot : Slot) (value : Option String) :
    Except Stop Reading := do
  let r ← proceed (r.settle c)
  proceed (r.accept c slot value)

def Reading.settleQuietly (c : Command) (r : Reading) : Reading := (r.settle c).1

def splitValue (s : String) : String × Option String :=
  match s.splitOn "=" with
  | [name] => (name, none)
  | name :: rest => (name, some ("=".intercalate rest))
  | [] => (s, none)

def Command.unneeded (c : Command) (r : Reading) (f : Flag) (value : String) : Stop :=
  .refused (refusal ("unexpected value '" ++ value ++ "' for '" ++ f.text ++
    "' found; no more were expected") []
    (some (c.usageShowing (!r.given.isEmpty) (r.slots.filter (· ≠ .file) ++ [.flag f]))) true)

def Command.readLong (c : Command) (r : Reading) (body : String) : Except Stop Reading :=
  let (name, value) := splitValue body
  match c.allFlags.find? (·.long = name) with
  | none =>
    let r := r.settleQuietly c
    let longs := c.allFlags.map (·.long)
    match (Text.similarNames name longs).getLast? with
    | some near =>
      let used := match c.allFlags.find? (·.long = near) with
        | some f => if r.has (.flag f) then r.slots else r.slots ++ [.flag f]
        | none => r.slots
      .error (.refused (unexpected ("--" ++ name) ["a similar argument exists: '--" ++ near ++ "'"]
        (c.usageWith used)))
    | none =>
      .error (.refused (unexpected ("--" ++ name)
        (if r.trailing then [] else [asValueTip ("--" ++ name)])
        (if r.given.isEmpty then c.usage else c.usageWith r.slots)))
  | some f =>
    if f.takesValue then
      match value with
      | some v => r.take c (.flag f) (some v)
      | none => do
        let r ← proceed (r.settle c)
        return { r with pending := some (.flag f, none) }
    else
      match value with
      | some v => .error (c.unneeded r f v)
      | none =>
        if f = helpFlag then do
          let _ ← proceed (r.settle c)
          .error (.help c.helpText)
        else r.take c (.flag f) none

def Command.readShort (c : Command) (r : Reading) : List Char → Except Stop Reading
  | [] => .ok r
  | ch :: rest =>
    match c.allFlags.find? (·.short = some ch) with
    | none =>
      let r := r.settleQuietly c
      let arg := "-" ++ ch.toString
      .error (.refused (unexpected arg (if r.trailing then [] else [asValueTip arg]) c.usage))
    | some f =>
      if f = helpFlag then do
        let _ ← proceed (r.settle c)
        .error (.help c.helpText)
      else if f.takesValue then
        if rest.isEmpty then do
          let r ← proceed (r.settle c)
          return { r with pending := some (.flag f, none) }
        else
          let v := match rest with
            | '=' :: more => String.ofList more
            | _ => String.ofList rest
          r.take c (.flag f) (some v)
      else do
        let r ← r.take c (.flag f) none
        c.readShort r rest

def Command.readPlain (c : Command) (r : Reading) (arg : String) : Except Stop Reading :=
  match r.pending with
  | some (.flag f, none) =>
    if r.trailing then readFile c r arg else .ok { r with pending := some (.flag f, some arg) }
  | _ => readFile c r arg
where
  /-- Reads the file, which waits to be taken, refusing a second one. -/
  readFile (c : Command) (r : Reading) (arg : String) : Except Stop Reading :=
    if r.has .file || (r.pending.map (·.1)) == some .file then
      .error (.refused (unexpected arg [] c.usage))
    else do
      let r ← proceed (r.settle c)
      return { r with pending := some (.file, some arg) }

def Command.readOne (c : Command) (r : Reading) (arg : String) : Except Stop Reading :=
  if r.trailing then c.readPlain r arg
  else if arg = "--" then .ok { r with trailing := true }
  else if arg.startsWith "--" then c.readLong r (String.ofList (arg.toList.drop 2))
  else if arg.startsWith "-" ∧ arg ≠ "-" then c.readShort r (arg.toList.drop 1)
  else c.readPlain r arg

def Reading.excluded (r : Reading) (f : Flag) : List Flag :=
  r.given.filterMap fun (s, _) => match s with
    | .flag g => if g ≠ f ∧ (f.excludes.contains g.long ∨ g.excludes.contains f.long) then some g
      else none
    | .file => none

def Command.finish (c : Command) (r : Reading) : Except Stop Reading := do
  let r ← proceed (r.settle c)
  let clash := r.given.findSome? fun (s, _) => match s with
    | .flag f =>
      match r.excluded f with
      | g :: _ => some (f, g)
      | [] => none
    | .file => none
  match clash with
  | some (f, g) =>
    let shown := r.slots.filter (· ≠ .flag g)
    .error (.refused (refusal ("the argument '" ++ f.text ++ "' cannot be used with '" ++ g.text ++ "'")
      [] (some (c.usageWith shown)) true))
  | none =>
    if r.has .file then .ok r
    else
      .error (.refused (refusal "the following required arguments were not provided:\n  <FILE>" []
        (some (c.usageWith (r.slots ++ [.file]))) true))

def Command.readAll (c : Command) (r : Reading) : List String → Except Stop Reading
  | [] => c.finish r
  | arg :: rest => do
    let r ← c.readOne r arg
    c.readAll r rest

/-! ## Requests -/

/-- What `solve` is asked to do. -/
structure SolveRequest where
  file : String
  log : Option String
  noLog : Bool
  verbose : Bool
  tolerance : Float
  format : String
  compare : Bool
  detail : Bool

/-- What the program is asked to do. -/
inductive Request where
  | solve (r : SolveRequest)
  | parse (file format : String)
  | check (file : String)

def Reading.file (r : Reading) : String :=
  ((r.given.find? (·.1 = .file)).bind (·.2)).getD ""

def Reading.text (r : Reading) (long default : String) : String :=
  (r.valueOf long).getD default

def Verb.request (v : Verb) (r : Reading) : Request :=
  match v with
  | .solve => .solve {
      file := r.file
      log := r.valueOf "log"
      noLog := r.flagged "no-log"
      verbose := r.flagged "verbose"
      tolerance := ((r.valueOf "tolerance").bind Decimal.readFloat?).getD defaultTolerance
      format := r.text "format" "pretty"
      compare := r.flagged "compare"
      detail := r.flagged "detail" }
  | .parse => .parse r.file (r.text "format" "pretty")
  | .check => .check r.file

/-! ## Reading the program's arguments -/

def helpFor : List String → Stop
  | [] => .help topHelp
  | name :: rest =>
    match Verb.ofName? name with
    | some v =>
      match rest with
      | [] => .help v.command.helpText
      | next :: _ => .refused (unrecognized next v.command.usage true)
    | none =>
      if name = "help" then
        match rest with
        | [] => .help helpHelp
        | next :: _ => .refused (unrecognized next helpUsage false)
      else .refused (unrecognized name topUsage true)

def unknownTopLong (name : String) (rest : List String) : Stop :=
  match (Text.similarNames name ["help"]).getLast? with
  | some near =>
    .refused (unexpected ("--" ++ name) ["a similar argument exists: '--" ++ near ++ "'"]
      (programName ++ " --" ++ near ++ " <COMMAND>"))
  | none =>
    let hints := Verb.all.filterMap fun v =>
      match (Text.similarNames name (v.command.allFlags.map (·.long))).getLast?,
        rest.idxOf? v.command.name with
      | some near, some pos => some (pos, v.command.name ++ " --" ++ near)
      | _, _ => none
    let best := hints.foldl (fun acc h => match acc with
      | some b => if h.1 < b.1 then some h else some b
      | none => some h) none
    match best with
    | some (_, hint) => .refused (unexpected ("--" ++ name) ["'" ++ hint ++ "' exists"] topUsage)
    | none => .refused (unexpected ("--" ++ name) [] topUsage)

def unknownCommand (arg : String) : Stop :=
  match Text.similarNames arg commandNames with
  | [] => .refused (unrecognized arg topUsage true)
  | near =>
    let found := if near.length = 1 then "a similar subcommand exists: "
      else "some similar subcommands exist: "
    .refused (refusal ("unrecognized subcommand '" ++ arg ++ "'")
      [found ++ ", ".intercalate (near.map fun n => "'" ++ n ++ "'")] (some topUsage) true)

def readTop (trailing : Bool) : List String → Except Stop Request
  | [] => .error (.refused topHelp)
  | arg :: rest =>
    if trailing then
      if commandNames.contains arg then
        .error (.refused (unexpected arg
          ["subcommand '" ++ arg ++ "' exists; to use it, remove the '--' before it"] topUsage))
      else .error (unknownCommand arg)
    else if arg = "help" then .error (helpFor rest)
    else match Verb.ofName? arg with
    | some v => do
      let r ← v.command.readAll Reading.start rest
      return v.request r
    | none =>
      if arg = "--" then readTop true rest
      else if arg.startsWith "--" then
        let (name, value) := splitValue (String.ofList (arg.toList.drop 2))
        if name = "help" then
          match value with
          | some v =>
            .error (.refused (refusal ("unexpected value '" ++ v ++ "' for '--help' found; no more were expected")
              [] (some (programName ++ " --help <COMMAND>")) true))
          | none => .error (.help topHelp)
        else .error (unknownTopLong name rest)
      else if arg.startsWith "-" ∧ arg ≠ "-" then
        match arg.toList.drop 1 with
        | 'h' :: _ => .error (.help topHelp)
        | ch :: _ => .error (.refused (unexpected ("-" ++ ch.toString) [] topUsage))
        | [] => .error (.refused (unrecognized arg topUsage true))
      else .error (unknownCommand arg)

def readArguments (args : List String) : Except Stop Request := readTop false args

end RevisedSimplex.Cli
