import DisplayFilter.Text.Parts
/-!
# Paths

A path leads through names, from the working directory or from the top of all directories. Written with
slashes, empty steps and lone dots lead nowhere, and two dots lead back to the directory before. No look
is taken at what stands on the way.
-/

namespace DisplayFilter

/-- A place: the names that lead to it from the top, or from the working directory. Only names above the
working directory are two dots. -/
structure Path where
  isAbsolute : Bool
  names : List String
  deriving DecidableEq, Repr, Inhabited

namespace Path

/-- The place where a path starts. -/
def origin (path : Path) : Path :=
  ⟨path.isAbsolute, []⟩

/-- The directory that holds a place; the top holds itself. -/
def parent (path : Path) : Path :=
  match path.names.getLast? with
  | none | some ".." => if path.isAbsolute then path else ⟨false, path.names ++ [".."]⟩
  | some _ => ⟨path.isAbsolute, path.names.dropLast⟩

/-- One step along a path. -/
def step (path : Path) (name : String) : Path :=
  if name = "" ∨ name = "." then path
  else if name = ".." then path.parent
  else ⟨path.isAbsolute, path.names ++ [name]⟩

/-- The places on the way along steps, from the first to the last. -/
def trail (path : Path) : List String → List Path
  | [] => [path]
  | name :: rest => path :: trail (path.step name) rest

/-- Where a written path starts: one that begins with a slash starts at the top. -/
def startOf (text : String) : Path :=
  ⟨text.toList.head? = some '/', []⟩

def stepsOf (text : String) : List String :=
  (Text.parts '/' text.toList).map String.ofList

def ofText (text : String) : Path :=
  (stepsOf text).foldl step (startOf text)

def text (path : Path) : String :=
  if path.isAbsolute then "/" ++ "/".intercalate path.names
  else if path.names.isEmpty then "."
  else "/".intercalate path.names

end Path

end DisplayFilter
