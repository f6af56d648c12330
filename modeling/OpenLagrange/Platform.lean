/-
What the control plane uses but does not define.

The digest of `node:crypto`, the collation of `localeCompare`, the datetime format
and the issues of the schema library, the YAML text inside a rendered Planfile, and
the capability packs that happen to be registered.  Every result about the control
plane holds for all of them.
-/
import OpenLagrange.Capability.Registry

namespace OpenLagrange

inductive PathItem where
  | key (name : String)
  | index (n : Nat)
  deriving DecidableEq, Repr

structure Platform where
  /-- The hex SHA-256 of a text. -/
  sha256 : String → String
  localeCompare : String → String → Ordering
  /-- Whether the schema library accepts a text as a datetime. -/
  isDatetime : String → Bool
  /-- The message and path of every schema issue of a Planfile that is refused. -/
  schemaIssues : Planfile → List (String × List PathItem)
  renderPlanfileMarkdown : Planfile → String
  registry : PackRegistry

end OpenLagrange
