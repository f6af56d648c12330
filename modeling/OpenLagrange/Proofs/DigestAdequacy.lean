/-
What a canonical digest vouches for.

The documentation says that approval and execution compare digests, so that a local edit
between review and execution is detected.  The `requirements` section of a plan is not part
of what is hashed, and Plan Check reads it: an edit of the section keeps the digest and
changes the report.  What a handler is told about earlier runs of its node is not hashed
either, and numbers that JSON has no text for are hashed as `null`.

With these left alone, plans with one digest are judged, checked and run alike.
-/
import OpenLagrange.Proofs.DigestRuns

namespace OpenLagrange

open PlanRunner PlanCheck

variable {p q : Planfile}

/-- The canonical texts of the two plans do not collide. -/
def NoCollision (sha256 : String → String) (p q : Planfile) : Prop :=
  sha256 ((stableStringify (canonicalPlanObject p)).getD "") =
      sha256 ((stableStringify (canonicalPlanObject q)).getD "") →
    (stableStringify (canonicalPlanObject p)).getD "" = (stableStringify (canonicalPlanObject q)).getD ""

/-- **Plans with one digest have the same content.** -/
theorem sameContent_of_digest {sha256 : String → String} (hno : NoCollision sha256 p q)
    (hdigest : canonicalPlanDigest sha256 p = canonicalPlanDigest sha256 q) (hp : p.jsonContext = true)
    (hq : q.jsonContext = true) : SameContent p q :=
  sameContent_of_canonical (sameValue_of_text hp hq (hno hdigest))

/-- Load the plan, and run it. -/
def loadAndRun (P : Platform) (o : PlanRunnerOptions) (plan : Planfile) :
    Program PlanRunnerExecutionResult := do
  let _ ← load P o plan
  runToCompletion P o plan

/-- With the same answers to their questions the runs of the two plans make the same calls: they
start the same nodes with the same inputs. -/
def SameRuns (P : Platform) (o : PlanRunnerOptions) (p q : Planfile) : Prop :=
  ∀ (env env' : Env) (w : World), SameOutcomes env env' →
    Prog.Matching (sameCalls P) SameResult SameWorld (Prog.exec (handle P env) (loadAndRun P o p) w)
      (Prog.exec (handle P env') (loadAndRun P o q) w)

theorem sameRuns_of_content {P : Platform} {o : PlanRunnerOptions}
    (hsha : ∀ text, isSha256Hex (P.sha256 text) = true) (h : SameContent p q)
    (hp : p.refined P.isDatetime = true) (hq : q.refined P.isDatetime = true)
    (hdigest : canonicalPlanDigest P.sha256 p = canonicalPlanDigest P.sha256 q)
    (hnotes : HandsOver o p → p.nodes.map (·.notes) = q.nodes.map (·.notes)) : SameRuns P o p q := by
  intro env env' w hsame
  have halike : PlanRunner.Alike P SameResult (loadAndRun P o p) (loadAndRun P o q) :=
    Prog.alike_bind (alike_load hsha h hp hq hdigest) fun _ _ _ =>
      alike_runToCompletion hsha h hp hq hdigest hnotes
  exact Prog.alike_exec (fun e e' s s' he hs => handle_same hsame he hs) halike
    ⟨fun _ => rfl, rfl⟩

/-- A plan that requires the given packs in its `requirements` section. -/
def packPlan (packs : List String) : Planfile :=
  { samplePlan [sampleNode "first" .frame []] with
    requirements := some
      { packs := some (packs.map fun id => ⟨id, none, true⟩)
        providers := none
        credentials := none
        permissions := none
        approvals := none
        runtime := none
        parameters := none } }

end OpenLagrange
