/-
The sources research works with.

A source is what was extracted from a page: where it is, what it says, and the citation it is
cited by.  A capability gets its input through the schema, so a source that reaches it has an id
and a URL; the two are carried here as they were checked.
-/
import OpenLagrange.Util.Value
import OpenLagrange.Planning.Planfile

namespace OpenLagrange.Research

structure ResearchPlatform where
  sha256 : String → String
  /-- `z.string().url()`. -/
  isUrl : String → Bool

structure Citation where
  citationId : String
  sourceId : String
  title : String
  url : String
  publishedAt : Option String
  deriving DecidableEq, Repr

structure ExtractedSource where
  sourceId : String
  title : Option String
  url : String
  domain : String
  excerpt : String
  citation : Citation
  artifactId : String
  deriving DecidableEq, Repr

/-- What the schema of a source checks of the fields kept here. -/
def ExtractedSource.accepted (P : ResearchPlatform) (source : ExtractedSource) : Bool :=
  nonempty source.sourceId && P.isUrl source.url && nonempty source.domain &&
    nonempty source.citation.citationId && nonempty source.citation.sourceId &&
    nonempty source.citation.title && P.isUrl source.citation.url

inductive ValidationStatus where
  | pass | fail | pending | notApplicable
  deriving DecidableEq, Repr

/-- What a capability gives to `artifacts.write`. -/
structure ArtifactWrite (Content : Type) where
  artifactId : String
  kind : String
  title : String
  summary : String
  content : Content
  inputArtifactRefs : List String
  validationStatus : ValidationStatus
  deriving DecidableEq, Repr

/-- A store that takes an artifact, or fails with a message. -/
abbrev ArtifactStore (Content : Type) := ArtifactWrite Content → Except String Unit

/-- `artifacts.write`. -/
def writeArtifact {Content : Type} (store : ArtifactStore Content) (artifact : ArtifactWrite Content) :
    Except String Unit :=
  match store artifact with
  | .error _ => .error "Artifact write failed."
  | .ok () => .ok ()

end OpenLagrange.Research
