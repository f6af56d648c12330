/-
The index of local artifacts.

The index lists what is known of each artifact and where its file is.  It is written as a whole:
what it held is read into a map by id, the new entries are set over it, and the values of the map
are written back, sorted by when they were created.  An index that cannot be read counts as empty.

`reindexArtifacts` makes the entries from files that are there: it walks a number of directories,
recognises files by their names, and gives each an id made of its kind and of its path.  Paths are
written without the directory the caller started in.
-/
import OpenLagrange.Capability.Registry
import OpenLagrange.Lib.LocalPath
import OpenLagrange.Lib.Table
import OpenLagrange.Output.Artifacts

namespace OpenLagrange.Artifacts

open LocalPath
open Output (ArtifactKind)

/-- An artifact as the index lists it, with the fields that the index itself looks after. -/
structure ArtifactSummary extends Output.ArtifactSummary where
  updatedAt : Option String
  executionMode : ExecutionMode
  exportable : Bool
  sizeBytes : Option Nat
  /-- The fields that nothing here reads. -/
  details : List (String × Value)

/-- What the index takes from its platform: the directory the caller started in, the one the
process runs in, and how texts are compared and lowered. -/
structure ViewerPlatform where
  callerCwd : AbsolutePath
  processCwd : AbsolutePath
  localeCompare : String → String → Ordering
  toLowerCase : String → String
  isDatetime : String → Bool

/-- A time that the schemas accept. -/
abbrev ViewerPlatform.Timestamp (P : ViewerPlatform) := { text : String // P.isDatetime text = true }

variable (P : ViewerPlatform)

/-! ### Paths -/

def resolveLocalPath (path : List Char) : AbsolutePath := P.callerCwd.resolve path

/-- `/^[a-z]+:\/\//.test(text)`. -/
def hasScheme (text : List Char) : Bool :=
  let rest := text.dropWhile fun c => 'a' ≤ c ∧ c ≤ 'z'
  rest.length < text.length && "://".toList.isPrefixOf rest

/-- The local path that a reference leads to. -/
def resolvePath (pathOrUri : String) : Option (List Char) :=
  if "file://".toList.isPrefixOf pathOrUri.toList then some (pathOrUri.toList.drop 7)
  else if hasScheme pathOrUri.toList then none
  else some (resolveLocalPath P pathOrUri.toList).text

def basename (path : AbsolutePath) : List Char := (path.getLast?.map (·.chars)).getD []

/-- `path.extname` of a name: from its last dot, unless nothing stands before it. -/
def extname (name : List Char) : List Char :=
  let afterDot := (name.reverse.takeWhile (· ≠ '.')).reverse
  if afterDot.length + 1 < name.length ∧ name ≠ ['.', '.'] then '.' :: afterDot else []

/-- `path.dirname` of a text that does not end in a slash. -/
def dirname (text : List Char) : List Char :=
  let before := (text.reverse.dropWhile (· ≠ '/')).reverse
  if before = [] then ['.'] else if before.length = 1 then ['/'] else before.dropLast

/-- The text with each run of other characters replaced by an underscore. -/
def underscored (plain : Char → Bool) : Bool → List Char → List Char
  | _, [] => []
  | inRun, c :: rest =>
      if plain c then c :: underscored plain false rest
      else if inRun then underscored plain true rest
      else '_' :: underscored plain true rest

def plainIdChar (c : Char) : Bool :=
  'a' ≤ c && c ≤ 'z' || 'A' ≤ c && c ≤ 'Z' || '0' ≤ c && c ≤ '9' || c = '_' || c = '-'

/-! ### Kinds -/

/-- What is asked of a name in lower case. -/
inductive NameTest where
  | contains (part : String)
  | endsWith (part : String)
  | is (text : String)

def NameTest.passes (name : String) : NameTest → Bool
  | .contains part => includes name part
  | .endsWith part => OpenLagrange.endsWith name part
  | .is text => name = text

def kindTests : List (ArtifactKind × List NameTest) :=
  [(.planfile, [.contains "planfile", .endsWith ".plan.md"]),
    (.skillFrame, [.contains "skill-frame"]),
    (.workflowSkill, [.contains "workflow-skill", .endsWith ".skill.md"]),
    (.packBuildPlan, [.contains "build-plan"]),
    (.packManifest, [.is "open-lagrange.pack.yaml"]),
    (.packValidationReport, [.contains "validation-report"]),
    (.packTestReport, [.contains "test-report"]),
    (.packInstallReport, [.contains "install-report"]),
    (.packSmokeReport, [.contains "smoke-report"]),
    (.policyDecisionReport, [.contains "policy-decision"]),
    (.patchPlan, [.contains "patch-plan"]),
    (.patchArtifact, [.contains "patch-artifact"]),
    (.verificationReport, [.contains "verification"]),
    (.reviewReport, [.contains "review"]),
    (.sourceSearchResults, [.contains "source-search-results", .contains "source_search_results"]),
    (.sourceSnapshot, [.contains "source-snapshot", .contains "source_snapshot"]),
    (.sourceText, [.contains "source-text", .contains "source_text"]),
    (.sourceSet, [.contains "source-set", .contains "source_set"]),
    (.researchBrief, [.contains "research-brief"]),
    (.citationIndex, [.contains "citation-index", .contains "citation_index"]),
    (.markdownExport, [.contains "markdown-export", .contains "markdown_export"]),
    (.artifactSelection, [.contains "artifact-selection", .contains "artifact_selection"]),
    (.runDigest, [.contains "run-digest", .contains "run_digest"]),
    (.runPacket, [.contains "run-packet", .contains "run_packet"]),
    (.artifactManifest, [.contains "artifact-manifest", .contains "artifact_manifest"]),
    (.htmlExport, [.contains "html-export", .contains "html_export"]),
    (.pdfExport, [.contains "pdf-export", .contains "pdf_export"]),
    (.artifactBundle, [.contains "artifact-bundle", .contains "artifact_bundle"]),
    (.zipExport, [.contains "zip-export", .contains "zip_export"]),
    (.capabilityStepResult, [.contains "capability-step", .contains "capability_step"]),
    (.executionTimeline, [.contains "timeline"]),
    (.modelCall, [.contains "model-call", .contains "model_call"]),
    (.rawLog, [.endsWith ".log"])]

/-- The first kind whose test the name passes. -/
def kindFromPath (path : AbsolutePath) : Option ArtifactKind :=
  let name := P.toLowerCase (String.ofList (basename path))
  (kindTests.find? fun rule => rule.2.any (·.passes name)).map (·.1)

/-! ### The index -/

def artifactKey (artifact : ArtifactSummary) : String := artifact.artifactId

/-- The entries of the index set over those it holds. -/
def registerArtifacts (current artifacts : List ArtifactSummary) (now : P.Timestamp) :
    List ArtifactSummary :=
  let byId : Table.Keyed artifactKey := current.foldl .upsert .empty
  let updated := artifacts.map fun artifact => { artifact with updatedAt := some now.1 }
  sortByLocale P.localeCompare (·.createdAt) (updated.foldl .upsert byId).rows

/-- A value that a schema refuses. -/
structure SchemaRefusal where
  field : String
  deriving DecidableEq, Repr

/-- The size of what a local path leads to. -/
def sizeAt (files : FileSystem) (path : List Char) : Option Nat :=
  (files.find (P.processCwd.resolve path)).map (·.size)

def artifactIdOf (kind : ArtifactKind) (path : AbsolutePath) : String :=
  kind.text ++ "_" ++ String.ofList
    ((underscored plainIdChar false (P.callerCwd.relativeText path)).take 96)

/-- The entry of a file; an empty path is refused. -/
def summaryFromPath (files : FileSystem) (path : AbsolutePath) (kind : ArtifactKind)
    (now : P.Timestamp) : Except SchemaRefusal ArtifactSummary :=
  let relative := String.ofList (P.callerCwd.relativeText path)
  if relative = "" then .error ⟨"path_or_uri"⟩
  else .ok
    { artifactId := artifactIdOf P kind path
      kind
      artifactRole := none
      title := String.ofList (basename path)
      summary := kind.text ++ " artifact from " ++
        String.ofList (dirname (P.callerCwd.relativeText path))
      pathOrUri := relative
      createdAt := now.1
      relatedRunId := none
      relatedPlanId := none
      producedByPackId := none
      producedByCapabilityId := none
      producedByPlanId := none
      inputArtifactRefs := none
      outputArtifactRefs := none
      redactionStatus := some .redacted
      redacted := true
      restricted := none
      outputFormat := none
      checksumSha256 := none
      contentType := some (if extname (basename path) = ".json".toList then "application/json"
        else "text/markdown")
      updatedAt := none
      executionMode := .live
      exportable := true
      sizeBytes := (resolvePath P relative).bind (sizeAt P files)
      details := [] }

/-- The files below the roots that have a kind, with their kinds. -/
def recognised (files : FileSystem) (roots : List String) : List (AbsolutePath × ArtifactKind) :=
  (roots.flatMap fun root => files.filesUnder (resolveLocalPath P root.toList)).filterMap
    fun path => (kindFromPath P path).map fun kind => (path, kind)

def reindexArtifacts (files : FileSystem) (roots : List String) (current : List ArtifactSummary)
    (now : P.Timestamp) : Except SchemaRefusal (List ArtifactSummary) := do
  let artifacts ← (recognised P files roots).mapM fun file =>
    summaryFromPath P files file.1 file.2 now
  .ok (registerArtifacts P current artifacts now)

end OpenLagrange.Artifacts
