/-
Relative file paths.

`path.join` glues its parts with slashes and then takes out what is empty, what is a single
dot, and what a double dot steps back over.  A path is kept as the list of its segments.
Double dots that have nothing to step back over stay in front: such a path leads out of the
directory it starts from.
-/
import OpenLagrange.Util.Text

namespace OpenLagrange

abbrev FilePath := List String

/-- The segments of a text between slashes. -/
def splitSlash : List Char → List (List Char)
  | [] => [[]]
  | c :: rest =>
      match splitSlash rest with
      | [] => [[]]
      | first :: others => if c = '/' then [] :: first :: others else (c :: first) :: others

/-- One segment after the path so far. -/
def stepSegment (path : FilePath) (segment : String) : FilePath :=
  if segment = "" ∨ segment = "." then path
  else if segment = ".." then
    match path.getLast? with
    | none => [".."]
    | some last => if last = ".." then path ++ [".."] else path.dropLast
  else path ++ [segment]

/-- `path.normalize` of a relative path. -/
def normalizePath (segments : List String) : FilePath := segments.foldl stepSegment []

/-- The segments of one part of a path. -/
def segmentsOf (part : String) : List String := (splitSlash part.toList).map String.ofList

/-- `path.join(...parts)` where the first part is relative. -/
def joinPath (parts : List String) : FilePath := normalizePath (parts.flatMap segmentsOf)

example : joinPath [".open-lagrange", "plans", "../../etc/passwd"] = ["etc", "passwd"] := by decide

end OpenLagrange
