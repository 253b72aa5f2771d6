/-!
Names of files, by the rules of slash-separated paths.

The file name is the last part of a path, trailing slashes and `.` parts aside; `..`, a lone
`.` and the top directory have none. A file name's extension follows its last dot, unless that dot opens
the name (`.profile` has none), and its stem is what comes before. Giving a path an extension
or a new file name changes only its last part, and drops the slashes and `.` parts after it.

Main definitions: `fileName`, `extension`, `stem`, `withExtension`, `withFileName`.
-/

namespace RevisedSimplex.Cli

def trimDots (path : String) : String :=
  match path.splitOn "/" with
  | first :: rest =>
    let kept := (rest.reverse.dropWhile (fun p => p = "." ∨ p = "")).reverse
    if first = "" ∧ kept.isEmpty ∧ ¬ rest.isEmpty then "/" else "/".intercalate (first :: kept)
  | [] => path

/-- The last part of a path, if it names a file or directory. -/
def fileName (path : String) : Option String :=
  let p := trimDots path
  match (p.splitOn "/").getLast? with
  | some last => if last = "" ∨ last = ".." ∨ last = "." then none else some last
  | none => none

def nameExtension (name : String) : Option String :=
  if name = ".." then none
  else
    match (name.splitOn ".").reverse with
    | ext :: before :: rest =>
      if rest.isEmpty ∧ before = "" then none else some ext
    | _ => none

def extension (path : String) : Option String := (fileName path).bind nameExtension

def stem (path : String) : Option String :=
  (fileName path).map fun name =>
    match nameExtension name with
    | some ext => String.ofList (name.toList.take (name.length - ext.length - 1))
    | none => name

/-- The path with the file name's extension replaced by `ext`; a path without a file name is
unchanged. -/
def withExtension (path : String) (ext : String) : String :=
  match fileName path, stem path with
  | some name, some st =>
    let p := trimDots path
    let dir := String.ofList (p.toList.take (p.length - name.length))
    dir ++ st ++ (if ext.isEmpty then "" else "." ++ ext)
  | _, _ => path

/-- The path with its file name replaced by `name`, or `name` added when it has none. -/
def withFileName (path : String) (name : String) : String :=
  let parent :=
    match fileName path with
    | some n =>
      let p := trimDots path
      trimDots (String.ofList (p.toList.take (p.length - n.length)))
    | none => path
  if parent.isEmpty then name
  else if parent.endsWith "/" then parent ++ name
  else parent ++ "/" ++ name

end RevisedSimplex.Cli
