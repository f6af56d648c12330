/-
Which paths of a repository may be read and written.

A path is resolved against the root of the repository, and what is left of it below the root
is what the policy is about: Git's own directory, names that look like secrets, and the
patterns the workspace allows and denies.  Before a file is written, the place it stands at is
followed through the links of the file tree.

The patterns of the source are regular expressions; here each is the test it stands for.  A dot
of a regular expression matches no line terminator.
-/
import OpenLagrange.Lib.FileTree
import OpenLagrange.Util.Path

namespace OpenLagrange

/-- A repository and its policy, as far as patching it reads them. -/
structure RepositoryWorkspace where
  workspaceId : String
  repoRoot : String
  allowedPaths : List String
  deniedPaths : List String
  maxFileBytes : Nat
  maxFilesPerTask : Nat
  requireApprovalForWrite : Bool
  deriving DecidableEq, Repr

/-! ### Absolute paths -/

/-- One segment after an absolute path. -/
def resolveSegment (path : TreePath) (segment : String) : TreePath :=
  if segment = "" ∨ segment = "." then path
  else if segment = ".." then path.dropLast
  else path ++ [segment]

/-- `path.resolve(base, part)`. -/
def resolvePath (base : TreePath) (part : String) : TreePath :=
  (segmentsOf part).foldl resolveSegment (if startsWith part "/" then [] else base)

/-- `path.relative(start, target)` as segments. -/
def relativePath : TreePath → TreePath → TreePath
  | [], target => target
  | start, [] => List.replicate start.length ".."
  | s :: start, t :: target =>
      if s = t then relativePath start target
      else List.replicate (start.length + 1) ".." ++ (t :: target)

/-- The text of a path. -/
def slashed (path : TreePath) : String := "/".intercalate path

/-- The path leads out of the directory it starts from, or looks as if it did. -/
def leavesDirectory (rel : String) : Bool := startsWith rel ".." || includes rel "../"

/-! ### Patterns -/

/-- What follows each slash. -/
def afterSlashes : List Char → List (List Char)
  | [] => []
  | c :: text => if c = '/' then text :: afterSlashes text else afterSlashes text

/-- The ends of a text that `(^|\/)` can stand before. -/
def segmentEnds (text : String) : List (List Char) := text.toList :: afterSlashes text.toList

/-- One of the patterns for names that look like secrets matches. -/
def secretPath (rel : String) : Bool :=
  rel = ".env" || (startsWith rel ".env." && (rel.toList.drop 5).all (!lineTerminator ·)) ||
    (segmentEnds rel).any fun tail =>
      tail = "id_rsa".toList || tail = "id_ed25519".toList ||
        tail.all (!lineTerminator ·) &&
          (".pem".toList.isSuffixOf tail || ".key".toList.isSuffixOf tail ||
            ["secret", "credential", "token"].any fun word =>
              includesChars word.toList (tail.map Char.toLower))

/-- What `.*` followed by the rest of a pattern matches. -/
def starMatch (rest : List Char → Bool) : List Char → Bool
  | [] => rest []
  | c :: text => rest (c :: text) || (!lineTerminator c && starMatch rest text)

/-- A pattern with stars against a whole text. -/
def globMatch : List Char → List Char → Bool
  | [], text => text.isEmpty
  | p :: pattern, text =>
      if p = '*' then starMatch (globMatch pattern) text
      else match text with
        | [] => false
        | c :: text => p = c && globMatch pattern text

/-- The text without its last characters. -/
def dropLastChars (n : Nat) (text : String) : String :=
  String.ofList (text.toList.take (text.toList.length - n))

def matchesPattern (path pattern : String) : Bool :=
  if pattern = "**" ∨ pattern = "*" then true
  else if endsWith pattern "/**" then
    path = dropLastChars 3 pattern || startsWith path (dropLastChars 2 pattern)
  else if startsWith pattern "**/*." then endsWith path (String.ofList (pattern.toList.drop 4))
  else if includes pattern "*" then globMatch pattern.toList path.toList
  else path = pattern || startsWith path (pattern ++ "/")

def matchesAny (path : String) (patterns : List String) : Bool := patterns.any (matchesPattern path)

/-! ### The policy -/

/-- A path the policy lets through: where it is, and what is left of it below the root. -/
structure ResolvedPath where
  absolutePath : TreePath
  relativePath : String
  deriving DecidableEq, Repr

section Policy

-- a relative root is resolved at `cwd`
variable (cwd : TreePath) (workspace : RepositoryWorkspace)

def RepositoryWorkspace.root : TreePath := resolvePath cwd workspace.repoRoot

/-- The path below the root, whatever the policy says of it. -/
def RepositoryWorkspace.below (path : String) : String :=
  slashed (OpenLagrange.relativePath (workspace.root cwd) (resolvePath (workspace.root cwd) path))

def resolveRepositoryPath (path : String) : Except String ResolvedPath :=
  let absolutePath := resolvePath (workspace.root cwd) path
  let rel := workspace.below cwd path
  if rel = "" ∨ leavesDirectory rel ∨ absolutePath = workspace.root cwd then
    .error "Path is outside the repository root"
  else if rel = ".git" ∨ startsWith rel ".git/" then .error "Git internals are denied"
  else if secretPath rel then .error "Secret-like paths are denied"
  else if !matchesAny rel workspace.allowedPaths then
    .error "Path is not allowed by repository policy"
  else if matchesAny rel workspace.deniedPaths then .error "Path is denied by repository policy"
  else .ok ⟨absolutePath, rel⟩

/-! ### Links -/

variable {B : Type} (tree : FileTree B)

def isInside (parent target : TreePath) : Bool :=
  let rel := slashed (OpenLagrange.relativePath parent target)
  rel = "" || (!leavesDirectory rel && !startsWith rel "/")

/-- The nearest directory above a path that exists. -/
def nearestExistingParent (path : TreePath) : TreePath :=
  (path.dropLast.inits.reverse.find? tree.existsAt).getD []

/-- The check of a target that need not exist. -/
def assertRealRepositoryTarget (absolutePath : TreePath) : Except String Unit :=
  if !tree.existsAt (workspace.root cwd) then .error "ENOENT: no such file or directory, lstat"
  else
    let realRoot := tree.place (workspace.root cwd)
    if tree.existsAt absolutePath then
      if tree.isSymbolicLink absolutePath then .error "Repository paths may not be symbolic links"
      else if !isInside realRoot (tree.place absolutePath) then
        .error "Path resolves outside the repository root"
      else .ok ()
    else
      let parent := nearestExistingParent tree absolutePath
      if tree.isSymbolicLink parent then .error "Repository paths may not be under symbolic links"
      else if !isInside realRoot (tree.place parent) then
        .error "Path parent resolves outside the repository root"
      else .ok ()

def assertWritableRepositoryPath (path : String) : Except String ResolvedPath :=
  match resolveRepositoryPath cwd workspace path with
  | .error reason => .error reason
  | .ok decision =>
      match assertRealRepositoryTarget cwd workspace tree decision.absolutePath with
      | .error reason => .error reason
      | .ok () => .ok decision

end Policy

example : resolvePath ["repo"] "src/../lib//a.ts" = ["repo", "lib", "a.ts"] := by decide

example : matchesPattern "src/deep/a.ts" "src/*.ts" = true := by decide

end OpenLagrange
