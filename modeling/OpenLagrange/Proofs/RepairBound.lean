/-
How often a plan is repaired.

The decision on a repair is a function of the attempts that the run remembers.  The runner records
it and goes on to repair whatever was decided, and a resumed run remembers no attempts.  So the
limit of three holds only where no failure is found that the attempts of all the runs of the plan,
taken together, would not let pass.
-/
import OpenLagrange.Proofs.RepositoryRun

namespace OpenLagrange

open RepositoryPlanRunner

/-! ### The repairs of a plan -/

/-- The runs of one plan, fresh and resumed ones, by the calls that they made. -/
inductive PlanRuns (P : RepositoryPlatform) (planId : String) : List RepositoryCall → Prop where
  | none : PlanRuns P planId []
  | run {S : Type} {calls : List RepositoryCall} (before : PlanRuns P planId calls)
      (o : RepositoryPlanRunnerOptions) (h : Prog.Handler RepositoryCall RepositoryAnswer S) (s : S)
      (hplan : o.planfile.planId = planId) :
      PlanRuns P planId (calls ++ (Prog.exec h (constructAndRun P o) s).trace.map (·.2))

def RepairAttempt.yields (attempt : RepairAttempt) : Bool := attempt.decision.decision = .yield

/-- After a decision to yield nothing is repaired, and at most three repair patches are applied. -/
def BoundedRepair (calls : List RepositoryCall) : Prop :=
  (calls.Pairwise fun earlier later =>
    earlier.attempt.any (·.yields) = true → later.repairs = false) ∧
    (calls.filter (·.appliesRepair)).length ≤ 3

/-- Each failure is found with fewer than three attempts before it, and not seen twice before. -/
def WithinLimit (attempts : List RepairAttempt) : Prop :=
  ∀ before attempt after, attempts = before ++ attempt :: after →
    before.length < maxRepairAttempts ∧ repeatedFailure before attempt.failureSummary = false

/-- What is seen of the repairs in a run. -/
inductive RepairEvent where
  | decides (attempt : RepairAttempt)
  | applies

def RepositoryCall.repairEvent : RepositoryCall → Option RepairEvent
  | .recordArtifact _ _ (.repair attempt) => some (.decides attempt)
  | .applyPatchPlan .repair _ _ _ => some .applies
  | _ => none

def RepairEvent.attempt : RepairEvent → Option RepairAttempt
  | .decides attempt => some attempt
  | .applies => none

def RepairEvent.isApplies : RepairEvent → Bool
  | .decides _ => false
  | .applies => true

/-- The attempts among what is seen. -/
def attemptsOf (events : List RepairEvent) : List RepairAttempt := events.filterMap (·.attempt)

theorem attemptsOf_calls (calls : List RepositoryCall) :
    attemptsOf (calls.filterMap (·.repairEvent)) = calls.filterMap (·.attempt) := by
  unfold attemptsOf
  rw [List.filterMap_filterMap]
  congr 1
  funext call
  cases call with
  | recordArtifact kind title content => cases content <;> rfl
  | applyPatchPlan mode workspace plan policy => cases mode <;> rfl
  | _ => rfl

theorem applies_calls (calls : List RepositoryCall) :
    (calls.filterMap (·.repairEvent)).countP (·.isApplies) =
      (calls.filter (·.appliesRepair)).length := by
  rw [List.countP_filterMap, List.countP_eq_length_filter]
  congr 2
  funext call
  cases call with
  | recordArtifact kind title content => cases content <;> rfl
  | applyPatchPlan mode workspace plan policy => cases mode <;> rfl
  | _ => rfl

/-! ### What the nodes of a run do to the repairs -/

/-- The attempt is the next one after the attempts that the run remembers. -/
def IsNext (previous : List RepairAttempt) (attempt : RepairAttempt) : Prop :=
  ∃ planId nodeId report now, attempt = nextRepairAttempt planId nodeId previous report now

/-- A node leaves the repairs alone, or it decides on the next one and then applies at most one
patch. -/
inductive NodeRepairs : List RepairAttempt → List RepairEvent → List RepairAttempt → Prop where
  | none (previous : List RepairAttempt) : NodeRepairs previous [] previous
  | tried {previous : List RepairAttempt} {attempt : RepairAttempt} {seen : List RepairEvent}
      (next : IsNext previous attempt) (tries : seen = [] ∨ seen = [.applies]) :
      NodeRepairs previous (.decides attempt :: seen) (previous ++ [attempt])

/-- What is seen of the repairs over the nodes of a run. -/
inductive Tally : List RepairAttempt → List RepairEvent → Prop where
  | done (previous : List RepairAttempt) : Tally previous []
  | node {previous next : List RepairAttempt} {seen rest : List RepairEvent}
      (hnode : NodeRepairs previous seen next) (hrest : Tally next rest) :
      Tally previous (seen ++ rest)

theorem Tally.single {previous next : List RepairAttempt} {seen : List RepairEvent}
    (hnode : NodeRepairs previous seen next) : Tally previous seen := by
  rw [← List.append_nil seen]
  exact .node hnode (.done next)

/-- Each patch that is applied was decided on. -/
theorem Tally.applies_le {previous : List RepairAttempt} {events : List RepairEvent}
    (h : Tally previous events) : events.countP (·.isApplies) ≤ (attemptsOf events).length := by
  induction h with
  | done previous => exact Nat.le_refl _
  | @node previous next seen rest hnode hrest ih =>
      unfold attemptsOf at ih ⊢
      rw [List.countP_append, List.filterMap_append, List.length_append]
      refine Nat.add_le_add ?_ ih
      cases hnode with
      | none => exact Nat.le_refl _
      | tried hnext htries =>
          rcases htries with rfl | rfl
          · exact Nat.zero_le _
          · exact Nat.le_refl _

/-- What was not repeated among all attempts was not repeated among some of them. -/
theorem repeatedFailure_right {earlier previous : List RepairAttempt} {summary : String}
    (h : repeatedFailure (earlier ++ previous) summary = false) :
    repeatedFailure previous summary = false := by
  unfold repeatedFailure at h ⊢
  rw [List.filter_append, List.length_append] at h
  simp only [decide_eq_false_iff_not] at h ⊢
  omega

theorem IsNext.not_yields {previous : List RepairAttempt} {attempt : RepairAttempt}
    (hnext : IsNext previous attempt) (hlength : previous.length < maxRepairAttempts)
    (hrepeated : repeatedFailure previous attempt.failureSummary = false) :
    attempt.yields = false := by
  obtain ⟨planId, nodeId, report, now, rfl⟩ := hnext
  have hlimit : ¬ previous.length + 1 > maxRepairAttempts := by omega
  unfold nextRepairAttempt at hrepeated ⊢
  simp only at hrepeated
  simp [RepairAttempt.yields, hlimit, hrepeated]

/-- Within the limit that counts the attempts of all runs, a run decides to go on each time. -/
theorem Tally.not_yields (earlier : List RepairAttempt) {previous : List RepairAttempt} {events : List RepairEvent}
    (h : Tally previous events) (hlimit : WithinLimit (earlier ++ previous ++ attemptsOf events)) :
    ∀ attempt ∈ attemptsOf events, attempt.yields = false := by
  induction h with
  | done previous =>
      intro attempt hattempt
      cases hattempt
  | @node previous next seen rest hnode hrest ih =>
      have hsplit : attemptsOf (seen ++ rest) = attemptsOf seen ++ attemptsOf rest :=
        List.filterMap_append
      rw [hsplit] at hlimit ⊢
      cases hnode with
      | none => exact ih hlimit
      | @tried attempt tries hnext htries =>
          have hseen : attemptsOf (.decides attempt :: tries) = [attempt] := by
            rcases htries with rfl | rfl <;> rfl
          rw [hseen] at hlimit ⊢
          obtain ⟨hlength, hrepeated⟩ := hlimit (earlier ++ previous) attempt (attemptsOf rest) rfl
          rw [List.length_append] at hlength
          intro other hother
          rcases List.mem_cons.mp hother with rfl | hother
          · exact hnext.not_yields (by omega) (repeatedFailure_right hrepeated)
          · refine ih ?_ other hother
            simpa [List.append_assoc] using hlimit

/-! ### The repairs of a run -/

variable {P : RepositoryPlatform} {o : RepositoryPlanRunnerOptions} {r : RepositoryRunner}
  {x : Execution} {node : PlanNode} {workspace : RepositoryWorkspace} {S : Type}
  {h : Prog.Handler RepositoryCall RepositoryAnswer S} {s : S}

def observeRepairs (call : S × RepositoryCall) : Option RepairEvent := call.2.repairEvent

/-- A program in which nothing is seen of the repairs. -/
abbrev Unrepairing {α : Type} (Q : α → Prop) (program : RepositoryProgram α) : Prop :=
  Prog.Obeys (fun call => call.repairEvent = none) (fun _ _ => True) Q program

theorem unrepairing_await {call : RepositoryCall} (hcall : call.repairEvent = none) :
    Unrepairing (fun _ => True) (await call) :=
  Prog.obeys_perform hcall fun _ _ => trivial

theorem quiet_unrepairing : Prog.Quiet h observeRepairs (fun call => call.repairEvent = none)
    (fun _ _ => True) (fun _ => True) where
  state _ _ _ _ := trivial
  answer _ _ _ _ _ _ := trivial
  unseen _ _ hcall _ := hcall

/-- A quiet first part is passed over, and a throw of it shows nothing. -/
theorem unrepairing_bind {α β : Type} {Q : α → Prop} {program : RepositoryProgram α}
    {f : α → RepositoryProgram β} {post : Except String β → S → List RepairEvent → Prop}
    (hp : Unrepairing Q program) (herr : ∀ message s', post (.error message) s' [])
    (hf : ∀ a s', Q a → Prog.Shows h observeRepairs (f a) s' post) :
    Prog.Shows h observeRepairs (program.bind f) s post :=
  hp.shows_bind quiet_unrepairing trivial (fun message s' _ => herr message s')
    fun a s' ha _ => hf a s' ha

theorem unrepairing_of_aside {α : Type} {c : Course} {Q : α → Prop} {program : RepositoryProgram α}
    (hp : Aside c (fun _ _ => True) Q program) : Unrepairing Q program := by
  refine hp.mono (fun call hcall => ?_) (fun _ _ h => h) fun _ h => h
  obtain ⟨-, hattempt, hpatches⟩ := hcall
  cases call with
  | recordArtifact kind title content =>
      cases content with
      | repair attempt => cases hattempt
      | _ => rfl
  | applyPatchPlan mode workspace plan policy => cases hpatches
  | _ => rfl

theorem unrepairing_of_plain {α : Type} {c : Course} {Q : α → Prop} {program : RepositoryProgram α}
    (hp : Plain c (fun _ _ => True) Q program) : Unrepairing Q program := by
  refine hp.mono (fun call hcall => ?_) (fun _ _ h => h) fun _ h => h
  obtain ⟨-, hattempt, hrepairs⟩ := hcall
  cases call with
  | recordArtifact kind title content =>
      cases content with
      | repair attempt => cases hattempt
      | _ => rfl
  | applyPatchPlan mode workspace plan policy =>
      cases mode with
      | initialPatch => rfl
      | repair => cases hrepairs
  | _ => rfl

/-- What is seen of a node once its repair is decided on. -/
def Tries (repairs : List RepairAttempt) (out : Except String (RepositoryNodeResult × Execution))
    (seen : List RepairEvent) : Prop :=
  (seen = [] ∨ seen = [.applies]) ∧ ∀ made, out = .ok made → made.2.memory.repairs = repairs

theorem tries_error {repairs : List RepairAttempt} {message : String} {seen : List RepairEvent}
    (hseen : seen = [] ∨ seen = [.applies]) : Tries repairs (.error message) seen := by
  refine ⟨hseen, fun made hmade => ?_⟩
  cases hmade

theorem tries_ok {repairs : List RepairAttempt} {made : RepositoryNodeResult × Execution}
    {seen : List RepairEvent} (hseen : seen = [] ∨ seen = [.applies])
    (hrepairs : made.2.memory.repairs = repairs) : Tries repairs (.ok made) seen := by
  refine ⟨hseen, fun other hmade => ?_⟩
  cases hmade
  exact hrepairs

/-- A repair applies its patch at most once. -/
theorem attemptRepair_shows {c : Course} {verification : RepositoryVerificationReport}
    {repair : RepairAttempt} {repairArtifact : RepositoryArtifact} (hx : OnCourse c x) :
    Prog.Shows h observeRepairs
      (attemptRepair P o r workspace node verification repair repairArtifact x) s
      fun out _ seen => Tries c.repairs out seen := by
  unfold attemptRepair
  refine unrepairing_bind (unrepairing_of_aside (aside_ensureEvidence hx))
    (fun _ _ => tries_error (Or.inl rfl)) ?_
  rintro ⟨evidence, z⟩ s₁ hz
  have hgenerate : Unrepairing (fun made => made.1.Halts ∧ OnCourse c made.2)
      (generatePatchPlan P o r node evidence .repair (some verification.failures)
        (some (diffSummary z.memory.changedFiles)) z) := by
    refine generatePatchPlan_obeys (fun call hcall => ?_) (fun _ _ => rfl) hz
    exact (unrepairing_of_aside (aside_await (c := c) hcall)).1
  refine unrepairing_bind hgenerate (fun _ _ => tries_error (Or.inl rfl)) ?_
  rintro ⟨generated, w⟩ s₂ ⟨-, hw⟩
  cases generated with
  | ended result => exact Prog.shows_done (tries_ok (Or.inl rfl) hw.repairs)
  | generated patchPlan policy contextArtifact =>
      refine unrepairing_bind (unrepairing_of_aside (aside_examinePatchPlan (Or.inr rfl) hw))
        (fun _ _ => tries_error (Or.inl rfl)) ?_
      rintro ⟨examined, v⟩ s₃ ⟨-, hv⟩
      cases examined with
      | ended result => exact Prog.shows_done (tries_ok (Or.inl rfl) hv.repairs)
      | accepted refs =>
          refine Prog.shows_bind (Prog.shows_perform ?_)
          cases happly : (h (.applyPatchPlan .repair workspace patchPlan policy) s₃).1 with
          | error message => exact tries_error (Or.inr rfl)
          | ok outcome =>
              dsimp only
              refine unrepairing_bind (unrepairing_of_aside (aside_recordArtifact (c := c)
                (x := Execution.keepPatch v outcome) (hv.of_eq rfl rfl) rfl))
                (fun _ _ => tries_error (Or.inr rfl)) ?_
              rintro ⟨patchArtifact, u⟩ s₄ hu
              refine unrepairing_bind (unrepairing_of_aside (aside_verifyWorktree hu))
                (fun _ _ => tries_error (Or.inr rfl)) ?_
              rintro ⟨verifyArtifact, t⟩ s₅ ht
              exact Prog.shows_done (tries_ok (Or.inr rfl) ht.repairs)

/-- What is seen of the repairs at a node. -/
def NodeShows (repairs : List RepairAttempt)
    (out : Except String (RepositoryNodeResult × Execution)) (seen : List RepairEvent) : Prop :=
  ∃ next, NodeRepairs repairs seen next ∧
    ∀ made, out = .ok made → made.2.memory.repairs = next

theorem nodeShows_quiet {c : Course} {p : Prop}
    {program : RepositoryProgram (RepositoryNodeResult × Execution)}
    (hp : Plain c (fun _ _ => True) (EndsWell c p) program) :
    Prog.Shows h observeRepairs program s fun out _ seen => NodeShows c.repairs out seen := by
  refine ((unrepairing_of_plain hp).shows quiet_unrepairing trivial).mono ?_
  rintro out s' seen ⟨rfl, -, hout⟩
  exact ⟨c.repairs, .none _, fun made hmade => (hout made hmade).2.repairs⟩

theorem repairNode_shows :
    Prog.Shows h observeRepairs (repairNode P o r workspace node x) s
      fun out _ seen => NodeShows x.memory.repairs out seen := by
  have hskipped : Prog.Shows h observeRepairs
      (.done (⟨.skipped, [], []⟩, x) : RepositoryProgram (RepositoryNodeResult × Execution)) s
      fun out _ seen => NodeShows x.memory.repairs out seen := by
    refine Prog.shows_done ⟨_, .none _, fun made hmade => ?_⟩
    cases hmade
    rfl
  unfold repairNode
  cases x.memory.verification with
  | none => exact hskipped
  | some verification =>
      dsimp only
      split
      · exact hskipped
      · unfold recordArtifact
        rw [Prog.bind_eq, Prog.bind_eq, Prog.bind_assoc]
        have hnext : IsNext x.memory.repairs
            (nextRepairAttempt r.plan.planId node.id x.memory.repairs verification r.now) :=
          ⟨_, _, _, _, rfl⟩
        refine Prog.shows_bind (Prog.shows_perform ?_)
        split
        · rename_i written hwritten
          have hdecided (y : Execution) : OnCourse ⟨y.status, y.memory.repairs⟩ y :=
            ⟨⟨rfl, rfl, rfl⟩, rfl⟩
          refine (attemptRepair_shows (hdecided _)).mono ?_
          rintro out s' seen ⟨htries, hrepairs⟩
          exact ⟨_, .tried hnext htries, hrepairs⟩
        · refine ⟨_, .tried hnext (Or.inl rfl), fun made hmade => ?_⟩
          cases hmade

theorem runNode_shows :
    Prog.Shows h observeRepairs (runNode P o r node x) s
      fun out _ seen => NodeShows x.memory.repairs out seen := by
  by_cases hkind : node.kind = .repair
  · unfold runNode
    rw [if_neg (by simp [hkind])]
    refine unrepairing_bind (Q := fun _ => True) (unrepairing_await rfl) ?_ ?_
    · intro message s'
      refine ⟨_, .none _, fun made hmade => ?_⟩
      cases hmade
    · intro workspace s' _
      rw [hkind]
      exact repairNode_shows
  · exact nodeShows_quiet (p := True)
      (plain_runNode (c := ⟨x.status, x.memory.repairs⟩) hkind ⟨⟨rfl, rfl, rfl⟩, rfl⟩)

theorem unrepairing_markNode {state : PlanState} {status : PlanNodeStatus}
    {artifacts : List PlanArtifactRef} {errors : List String} :
    Unrepairing (fun _ => True) (markNode P r state node status artifacts errors) :=
  (markNode_obeys (φ := fun call => call.repairEvent = none) rfl fun _ _ => rfl).mono (fun _ h => h) (fun _ _ h => h)
    fun _ _ => trivial

theorem unrepairing_writeStatus {patch : RepositoryPlanStatus → RepositoryPlanStatus} :
    Unrepairing (fun y => y.memory = x.memory) (writeStatus x patch) :=
  (writeStatus_obeys (φ := fun call => call.repairEvent = none) rfl fun _ => rfl).mono (fun _ h => h) (fun _ _ h => h)
    fun _ h => h.1

theorem runNodes_shows (nodes : List PlanNode) (state : PlanState) (x : Execution) (s : S) :
    Prog.Shows h observeRepairs (runNodes P o r nodes state x) s
      fun _ _ seen => Tally x.memory.repairs seen := by
  induction nodes generalizing state x s with
  | nil => exact Prog.shows_done (.done _)
  | cons node rest ih =>
      unfold runNodes
      refine unrepairing_bind unrepairing_markNode (fun _ _ => .done _) fun running s₁ _ => ?_
      refine unrepairing_bind unrepairing_writeStatus (fun _ _ => .done _) fun y s₂ hy => ?_
      refine Prog.shows_bind (runNode_shows.mono ?_)
      rintro out s₃ seen ⟨next, hnode, hrepairs⟩
      rw [hy] at hnode
      cases out with
      | error message => exact Tally.single hnode
      | ok made =>
          obtain ⟨result, z⟩ := made
          have hz : z.memory.repairs = next := hrepairs _ rfl
          have hpassed : Tally x.memory.repairs (seen ++ []) := .node hnode (.done _)
          refine unrepairing_bind unrepairing_markNode (fun _ _ => hpassed) fun marked s₄ _ => ?_
          refine unrepairing_bind unrepairing_writeStatus (fun _ _ => hpassed) fun w s₅ hw => ?_
          split
          · exact Prog.shows_done hpassed
          · refine (ih marked w s₅).mono ?_
            intro _ _ seen' hrest
            rw [hw, hz] at hrest
            exact .node hnode hrest

theorem unrepairing_construct : Unrepairing (fun _ => True) (construct P o) := by
  unfold construct
  refine Prog.obeys_bind (Q := fun _ => True) ?_ fun now _ => ?_
  · unfold readNow
    cases o.now with
    | none => exact unrepairing_await rfl
    | some now => trivial
  · split
    · exact Prog.obeys_fail
    · split
      · exact Prog.obeys_fail
      · refine Prog.obeys_bind (Q := fun _ => True) (unrepairing_await rfl)
          fun updatedAt _ => ?_
        exact Prog.obeys_bind (Q := fun _ => True) (unrepairing_await rfl)
          fun _ _ => trivial

/-- A run remembers no attempts of earlier runs. -/
theorem unrepairing_createInitialMemory :
    Unrepairing (fun memory => memory.repairs = []) (createInitialMemory o) := by
  unfold createInitialMemory
  refine Prog.obeys_bind (Q := fun _ => True) ?_ fun verification _ =>
    Prog.obeys_bind (Q := fun _ => True) ?_ fun artifact _ => Prog.obeys_done rfl
  · cases (o.initialStatus.bind fun status => truthy status.verificationReportIds.getLast?) with
    | none => trivial
    | some id => exact unrepairing_await rfl
  · cases (rememberedMemory o).patchArtifactId with
    | none => trivial
    | some id => exact unrepairing_await rfl

theorem unrepairing_finish {state : PlanState} : Unrepairing (fun _ => True) (finish r state x) := by
  unfold finish
  refine Prog.obeys_bind (Q := fun _ => True) (unrepairing_await rfl)
    fun finalPatch _ => ?_
  refine Prog.obeys_bind (recordArtifact_obeys rfl) ?_
  rintro ⟨finalArtifact, y⟩ -
  refine Prog.obeys_bind (Q := fun _ => True) (unrepairing_await rfl)
    fun updatedAt _ => ?_
  refine Prog.obeys_bind unrepairing_writeStatus fun z _ => ?_
  exact Prog.obeys_bind (Q := fun _ => True) (unrepairing_await rfl)
    fun _ _ => trivial

/-- **The repairs of a run**: attempts that each follow the ones before, each with at most one
patch. -/
theorem constructAndRun_shows :
    Prog.Shows h observeRepairs (constructAndRun P o) s fun _ _ seen => Tally [] seen := by
  unfold constructAndRun
  refine unrepairing_bind unrepairing_construct (fun _ _ => .done _) fun r s₁ _ => ?_
  unfold run
  dsimp only
  split
  · refine unrepairing_bind (Q := fun _ => True) (unrepairing_await rfl)
      (fun _ _ => .done _) fun _ s₂ _ => ?_
    refine unrepairing_bind (Q := fun _ => True) (unrepairing_await rfl)
      (fun _ _ => .done _) fun _ s₃ _ => ?_
    refine unrepairing_bind unrepairing_createInitialMemory (fun _ _ => .done _)
      fun memory s₄ hmemory => ?_
    refine Prog.shows_bind ((runNodes_shows _ _ _ _).mono ?_)
    intro out s₅ seen htally
    rw [hmemory] at htally
    cases out with
    | error message => exact htally
    | ok walked =>
        refine (unrepairing_finish.shows quiet_unrepairing trivial).mono ?_
        rintro out' s₆ seen' ⟨rfl, -, -⟩
        rw [List.append_nil]
        exact htally
  · exact Prog.shows_fail (.done _)

/-! ### All the runs of a plan -/

/-- The attempts and the patches of all runs. -/
theorem PlanRuns.applies_le {planId : String} {calls : List RepositoryCall}
    (hruns : PlanRuns P planId calls) :
    (calls.filter (·.appliesRepair)).length ≤ (calls.filterMap (·.attempt)).length := by
  rw [← applies_calls, ← attemptsOf_calls]
  induction hruns with
  | none => exact Nat.le_refl _
  | @run S calls before o h s hplan ih =>
      have htally : Tally [] ((Prog.exec h (constructAndRun P o) s).trace.filterMap observeRepairs) :=
        constructAndRun_shows
      have hseen : ((Prog.exec h (constructAndRun P o) s).trace.map (·.2)).filterMap (·.repairEvent) =
          (Prog.exec h (constructAndRun P o) s).trace.filterMap observeRepairs := by
        rw [List.filterMap_map]
        rfl
      unfold attemptsOf at ih ⊢
      rw [List.filterMap_append, List.countP_append, List.filterMap_append, List.length_append, hseen]
      exact Nat.add_le_add ih htally.applies_le

/-- Within the limit no run of the plan decides to yield. -/
theorem PlanRuns.not_yields {planId : String} {calls : List RepositoryCall}
    (hruns : PlanRuns P planId calls) (hlimit : WithinLimit (calls.filterMap (·.attempt))) :
    ∀ attempt ∈ calls.filterMap (·.attempt), attempt.yields = false := by
  rw [← attemptsOf_calls] at hlimit ⊢
  induction hruns with
  | none =>
      intro attempt hattempt
      cases hattempt
  | @run S calls before o h s hplan ih =>
      have htally : Tally [] ((Prog.exec h (constructAndRun P o) s).trace.filterMap observeRepairs) :=
        constructAndRun_shows
      have hseen : ((Prog.exec h (constructAndRun P o) s).trace.map (·.2)).filterMap (·.repairEvent) =
          (Prog.exec h (constructAndRun P o) s).trace.filterMap observeRepairs := by
        rw [List.filterMap_map]
        rfl
      have hsplit : attemptsOf ((calls ++ (Prog.exec h (constructAndRun P o) s).trace.map (·.2)).filterMap
          (·.repairEvent)) = attemptsOf (calls.filterMap (·.repairEvent)) ++
            attemptsOf ((Prog.exec h (constructAndRun P o) s).trace.filterMap observeRepairs) := by
        rw [List.filterMap_append, hseen]
        exact List.filterMap_append
      rw [hsplit] at hlimit ⊢
      intro attempt hattempt
      rcases List.mem_append.mp hattempt with hattempt | hattempt
      · refine ih (fun before attempt after hsame => ?_) attempt hattempt
        refine hlimit before attempt (after ++ attemptsOf
          ((Prog.exec h (constructAndRun P o) s).trace.filterMap observeRepairs)) ?_
        rw [hsame, List.append_assoc, List.cons_append]
      · refine htally.not_yields (attemptsOf (calls.filterMap (·.repairEvent))) ?_ attempt
          hattempt
        rw [List.append_nil]
        exact hlimit

/-- Within the limit there are at most three attempts. -/
theorem WithinLimit.length_le {attempts : List RepairAttempt} (hlimit : WithinLimit attempts) :
    attempts.length ≤ maxRepairAttempts := by
  by_contra hlong
  have hin : maxRepairAttempts < attempts.length := by omega
  have hsplit : attempts = attempts.take maxRepairAttempts ++
      attempts[maxRepairAttempts] :: attempts.drop (maxRepairAttempts + 1) := by
    rw [← List.drop_eq_getElem_cons hin, List.take_append_drop]
  obtain ⟨hlength, -⟩ := hlimit _ _ _ hsplit
  rw [List.length_take] at hlength
  omega

/-- **Repair is bounded while the limit is not reached**: counting the attempts of all the runs of
the plan, no failure is found that should end the repairs. -/
theorem planRuns_boundedRepair (P : RepositoryPlatform) (planId : String)
    (calls : List RepositoryCall) (hruns : PlanRuns P planId calls)
    (hlimit : WithinLimit (calls.filterMap (·.attempt))) : BoundedRepair calls := by
  refine ⟨?_, hruns.applies_le.trans hlimit.length_le⟩
  refine List.Pairwise.imp_of_mem ?_ (List.pairwise_of_forall (R := fun _ _ => True)
    fun _ _ => trivial)
  intro earlier later hearlier _ _ hyields
  cases hattempt : earlier.attempt with
  | none =>
      rw [hattempt] at hyields
      cases hyields
  | some attempt =>
      have hmem : attempt ∈ calls.filterMap (·.attempt) :=
        List.mem_filterMap.mpr ⟨earlier, hearlier, hattempt⟩
      have hgoes := hruns.not_yields hlimit attempt hmem
      rw [hattempt] at hyields
      simp [hgoes] at hyields

/-! ### A bounded run, and an unbounded one -/

/-- Two failures are repaired. -/
def repairedTwice : List RepositoryCall :=
  (Prog.exec (failing appliedPatch) (constructAndRun sampleRepositoryPlatform
    (sampleRepositoryOptions (repairingPlan ["repair_first", "repair_second"]))) ()).trace.map (·.2)

theorem planRuns_boundedRepair_twice : BoundedRepair ([] ++ repairedTwice) :=
  planRuns_boundedRepair sampleRepositoryPlatform "plan" ([] ++ repairedTwice)
    (.run .none (sampleRepositoryOptions (repairingPlan ["repair_first", "repair_second"]))
      (failing appliedPatch) () rfl) (by
      have hattempts : ([] ++ repairedTwice).filterMap RepositoryCall.attempt =
          [nextRepairAttempt "plan" "repair_first" [] ⟨"", [], false, [], ""⟩ "2026-01-01T00:00:00Z",
            nextRepairAttempt "plan" "repair_second"
              [nextRepairAttempt "plan" "repair_first" [] ⟨"", [], false, [], ""⟩
                "2026-01-01T00:00:00Z"] ⟨"", [], false, [], ""⟩ "2026-01-01T00:00:00Z"] := by
        decide +kernel
      rw [hattempts]
      intro before attempt after hsame
      rcases before with _ | ⟨first, before⟩
      · exact ⟨by decide, rfl⟩
      · rcases before with _ | ⟨second, before⟩
        · obtain ⟨rfl, hrest⟩ := List.cons.inj hsame
          obtain ⟨rfl, -⟩ := List.cons.inj hrest
          exact ⟨by decide, rfl⟩
        · simp at hsame)

/-- Four repair nodes find the same failure: the third and the fourth decide to yield, and all four
apply their patches. -/
theorem fourRepairs_unbounded :
    ∃ calls, PlanRuns sampleRepositoryPlatform "plan" calls ∧ ¬ BoundedRepair calls := by
  refine ⟨_, .run .none (sampleRepositoryOptions (repairingPlan
    ["repair_first", "repair_second", "repair_third", "repair_fourth"])) (failing appliedPatch) ()
    rfl, ?_⟩
  rintro ⟨-, hbound⟩
  revert hbound
  decide +kernel

end OpenLagrange
