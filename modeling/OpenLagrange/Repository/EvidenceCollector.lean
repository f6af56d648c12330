/-
Collecting evidence.

A node learns about the repository through three capability steps: it lists the files, reads the
ones that look relevant to the goal, with the requested files before all others, and searches for
the goal.  A step that failed has no output.  For the list and the search that counts as nothing
found; a read without an output is thrown.
-/
import OpenLagrange.Repository.RepositoryCalls

namespace OpenLagrange

/-! ### Choosing the files -/

/-- `\w`. -/
def wordChar (c : Char) : Bool :=
  ('a' ≤ c ∧ c ≤ 'z') ∨ ('A' ≤ c ∧ c ≤ 'Z') ∨ ('0' ≤ c ∧ c ≤ '9') ∨ c = '_'

section Selection

variable (P : RepositoryPlatform)

/-- The words of a goal that have more than two letters. -/
def goalTerms (goal : String) : List String :=
  (((P.toLowerCase goal).toList.splitOnP fun c => !wordChar c).filter (2 < ·.length)).map
    String.ofList

def score (path : String) (terms : List String) : Nat :=
  let lower := P.toLowerCase path
  (if path = "package.json" then 100 else 0) +
  (if startsWith lower "readme" then 70 else 0) +
  (if includes lower "cli" ∨ includes lower "index" then 50 else 0) +
  (if endsWith lower ".ts" ∨ endsWith lower ".tsx" then 30 else 0) +
  15 * (terms.filter fun term => includes lower term).length

/-- The files by falling score; files of one score stay in order. -/
def selectFiles (files : List String) (goal : String) : List String :=
  files.insertionSort fun left right => score P right (goalTerms P goal) ≤ score P left (goalTerms P goal)

def mergeRequestedFiles (requested discovered : List String) : List String :=
  distinct (requested.filter (· ≠ "") ++ discovered)

end Selection

/-! ### Reading outputs -/

/-- `Schema.parse(output ?? [])`. -/
def StepOutput.orNone {α : Type} : StepOutput (List α) → RepositoryProgram (List α)
  | .missing _ => pure []
  | .parsed values => pure values
  | .refused issues => .fail issues

/-- `Schema.parse(output)`. -/
def StepOutput.orThrow {α : Type} : StepOutput α → RepositoryProgram α
  | .parsed value => pure value
  | .missing issues | .refused issues => .fail issues

def readFiles (nodeId : String) : List String → RepositoryProgram (List RepositoryFileRead)
  | [] => pure []
  | path :: rest => do
      let output ← await (.readFile nodeId path)
      let read ← output.orThrow
      let reads ← readFiles nodeId rest
      pure (read :: reads)

/-- The bundle of what was read; a finding for each file, for five matches and for the goal. -/
def evidenceBundleOf (P : RepositoryPlatform) (planId nodeId : String)
    (reads : List RepositoryFileRead) (searchResults : List RepositorySearchMatch) : EvidenceBundle :=
  let evidenceBundleId := "evidence_" ++ firstChars 18 (stableHash P.sha256 (.obj
    [("plan", .str planId), ("node", .str nodeId), ("files", strings (reads.map (·.sha256)))]))
  { evidenceBundleId
    artifactId := evidenceBundleId
    files := reads.map (·.relativePath)
    findings := reads.length + (searchResults.take 5).length + 1 }

def collectEvidenceBundle (P : RepositoryPlatform) (planId nodeId goal : String)
    (workspace : RepositoryWorkspace) (requestedFiles : List String) :
    RepositoryProgram EvidenceBundle := do
  let listed ← await (.listFiles nodeId workspace.maxFilesPerTask)
  let files ← listed.orNone
  let selected := (mergeRequestedFiles requestedFiles (selectFiles P files goal)).take
    (min 8 workspace.maxFilesPerTask)
  let reads ← readFiles nodeId selected
  let searched ← await (.searchText nodeId goal 12)
  let searchResults ← searched.orNone
  pure (evidenceBundleOf P planId nodeId reads searchResults)

end OpenLagrange
