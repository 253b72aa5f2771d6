import RevisedSimplex.Cli.Arguments
import RevisedSimplex.Cli.Files
import RevisedSimplex.Cli.Path
import RevisedSimplex.Cli.Records
import RevisedSimplex.Log
import RevisedSimplex.Report
import RevisedSimplex.Source.Parse
/-!
A run of the command line, over any files.

An input name without extension that names nothing stands for the name with `.txt` when that
exists. `solve` first creates its log file, unless told not to: the one given, or
`<stem>_output.log` beside the input. It then reads and loads the problem, solves it, and logs
the solve's messages, a summary between rules, and the two-phase method's answer and the
comparison when asked to compare. It prints the result as a report, with the solution's detail
and the comparison when asked, or as JSON, and exits with `1` when the problem is not optimal.
The log is written one message at a time, and a message the log refuses is told on standard
error.
`parse` prints the parsed text as debug text or JSON, and `check` says whether the problem
loads and how large it is. Every failure prints its message on standard error and exits with
`2`; the log keeps what was logged before it.

Main definitions: `Exit`, `resolveInput`, `defaultLogPath`, `run`.
-/

namespace RevisedSimplex

def Summary.logEntries (s : Summary) : List Entry :=
  ([rule, s.status.headline] ++
    (if s.status = .optimal then
      ["Optimal value: " ++ Decimal.plain.render s.optimalValue,
        "Solution vector: " ++ floatListText s.solutionVector,
        "Reduced costs: " ++ floatListText s.reducedCosts]
    else []) ++ [rule]).map (Entry.mk .info)

def Agreement.logEntries (ref : Reference.Summary) (c : Agreement) : List Entry :=
  [⟨.info, "Reference solver: " ++ ref.dump.debug⟩, ⟨.info, "Cross-check: " ++ c.dump.debug⟩]

namespace Cli

/-- How a run of the program ends: its exit code and what it printed. -/
structure Exit where
  code : Nat
  out : String
  err : String
  deriving DecidableEq, Repr

def Exit.failure (message : String) : Exit := ⟨2, "", message ++ "\n"⟩

/-- The log file beside an input: `<stem>_output.log`. -/
def defaultLogPath (input : String) : String :=
  withFileName input ((stem input).getD programName ++ "_output.log")

def solveOutput (json detail : Bool) (s : Summary)
    (compared : Option (Reference.Summary × Agreement)) : String :=
  if json then (solveRecord s compared).json 0 ++ "\n"
  else
    s.render ++ (if detail then s.renderDetail else "") ++
      match compared with
      | some (ref, c) => c.render ref
      | none => ""

variable {m : Type → Type} [Monad m] [FileSystem m]

/-- The input a name stands for. -/
def resolveInput (file : String) : m String := do
  if !(← FileSystem.present file) && (extension file).isNone then
    let alt := withExtension file "txt"
    if ← FileSystem.present alt then return alt
  return file

def refusedWrite (e : IoFault) : String :=
  "[tracing-subscriber] Unable to write an event to the Writer for this Subscriber! Error: " ++
    e.message ++ "\n\n"

def writeLog (log : Option String) (verbose : Bool) (entries : List Entry) : m Unit :=
  match log with
  | some path =>
    (entries.filter (Entry.shown verbose)).forM fun e => do
      if let .error f ← FileSystem.append path (e.text ++ "\n") then
        FileSystem.warn (refusedWrite f)
  | none => pure ()

def runSolve (r : SolveRequest) : m Exit := do
  let file ← resolveInput r.file
  let log := if r.noLog then none else some (r.log.getD (defaultLogPath file))
  if let some path := log then
    if let .error e ← FileSystem.create path then
      return .failure ("Failed to set up log file: " ++ path ++ ": " ++ e.message)
  match ← readText file with
  | .error e => return .failure ("Error reading file: " ++ e.message)
  | .ok source =>
    match Source.loadText source with
    | .error e => return .failure ("Load error: " ++ e.message)
    | .ok prog =>
      let solved := (⟨r.tolerance, none⟩ : Solver Float).run prog
      let traced := Log.ofTrace solved.trace
      match solved.result with
      | .error e =>
        writeLog log r.verbose (traced ++ [⟨.error, "Solver error: " ++ e.message⟩])
        return .failure ("Solver error: " ++ e.message)
      | .ok outcome =>
        let s := outcome.summary prog.numVariables
        let compared :=
          if r.compare then
            let ref := (Reference.Method.default.solve prog.standardize).summary
            some (ref, s.crossCheck ref crossCheckTolerance)
          else none
        let comparison := match compared with
          | some (ref, c) => Agreement.logEntries ref c
          | none => []
        writeLog log r.verbose (traced ++ s.logEntries ++ comparison)
        return ⟨if s.isOptimal then 0 else 1, solveOutput (r.format = "json") r.detail s compared, ""⟩

def runParse (file format : String) : m Exit := do
  let file ← resolveInput file
  match ← readText file with
  | .error e => return .failure ("Error reading file: " ++ e.message)
  | .ok source =>
    match Source.Document.parse source with
    | .error e => return .failure ("Parse error: " ++ e.message)
    | .ok d =>
      let text := if format = "json" then d.dump.json 0 else d.dump.pretty 0
      return ⟨0, text ++ "\n", ""⟩

def runCheck (file : String) : m Exit := do
  let file ← resolveInput file
  match ← readText file with
  | .error e => return .failure ("Error reading file: " ++ e.message)
  | .ok source =>
    match Source.loadText source with
    | .ok p =>
      return ⟨0, "✓ " ++ file ++ " is valid\n  " ++ toString p.numVariables ++ " variables\n  " ++
        toString p.numConstraints ++ " constraints\n", ""⟩
    | .error e => return .failure ("✗ " ++ file ++ " has errors:\n  " ++ e.message)

/-- Runs the program on its arguments. -/
def run (args : List String) : m Exit :=
  match readArguments args with
  | .error (.help text) => pure ⟨0, text, ""⟩
  | .error (.refused text) => pure ⟨2, "", text⟩
  | .ok (.solve r) => runSolve r
  | .ok (.parse file format) => runParse file format
  | .ok (.check file) => runCheck file

def runOver (tree : FileTree) (args : List String) : Exit × FileTree :=
  let (exit, after) := ((run args : StateM FileTree Exit).run tree : Id _)
  ({ exit with out := after.shownOut ++ exit.out, err := after.shownErr ++ exit.err }, after)

end Cli

end RevisedSimplex
