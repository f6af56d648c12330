/-
The status that is recorded of a project, and the result that is returned.

A run of the project reconciler that returns has ended in one of three ways: the plan was invalid,
the plan had too many tasks, or the tasks were run.  In the first and the last the status recorded
last is that of the result.  In the second nothing is recorded after the project was said to be
planned, so that it stays planned for whoever looks it up.

The tasks are run one after the other, each once and under its own run id.  A run id is cut from a
hash of the project, the version of the plan, the task's place in it and its title; the texts that
are hashed differ in the place.
-/
import OpenLagrange.Util.CanonicalText
import OpenLagrange.Workflows.ProjectReconciler

namespace OpenLagrange

open Prog

variable {S : Type} (h : Prog.Handler ProjectCall ProjectCall.Answer S)

/-! ### What is seen of a run -/

/-- A task that was run: under which key, on what, and with what result. -/
structure TaskRun where
  key : String
  input : TaskReconcilerInput
  result : Option TaskReconciliationResult

inductive ProjectEvent where
  | recorded (snapshot : WorkflowStatusSnapshot)
  | planned (plan : Except String ExecutionPlan)
  | ran (run : TaskRun)

namespace ProjectEvent

def snapshot? : ProjectEvent → Option WorkflowStatusSnapshot
  | .recorded snapshot => some snapshot
  | _ => none

def plan? : ProjectEvent → Option (Except String ExecutionPlan)
  | .planned plan => some plan
  | _ => none

def run? : ProjectEvent → Option TaskRun
  | .ran run => some run
  | _ => none

end ProjectEvent

/-- What a call to a task reconciler answered. -/
def taskAnswer : Except String (Except String TaskReconciliationResult) →
    Option TaskReconciliationResult
  | .ok (.ok result) => some result
  | _ => none

def projectEvent : S × ProjectCall → Option ProjectEvent
  | (_, ⟨_, .recordProjectStatus snapshot, _⟩) => some (.recorded snapshot)
  | (_, ⟨_, .recordTaskStatus _, _⟩) => none
  | (s, ⟨key, .generateExecutionPlan goal delegation given bounds, metadata⟩) =>
      match (h ⟨key, .generateExecutionPlan goal delegation given bounds, metadata⟩ s).1 with
      | .ok plan => some (.planned plan)
      | .error _ => none
  | (s, ⟨key, .taskReconciler input, metadata⟩) =>
      some (.ran ⟨key, input, taskAnswer (h ⟨key, .taskReconciler input, metadata⟩ s).1⟩)

/-- The status that was recorded last. -/
def lastStatus (seen : List ProjectEvent) : Option WorkflowStatusSnapshot :=
  (seen.filterMap ProjectEvent.snapshot?).getLast?

/-- The plans that were generated. -/
def plansOf (seen : List ProjectEvent) : List (Except String ExecutionPlan) :=
  seen.filterMap ProjectEvent.plan?

/-- The tasks that were run, in their order. -/
def runsOf (seen : List ProjectEvent) : List TaskRun := seen.filterMap ProjectEvent.run?

theorem lastStatus_append (seen : List ProjectEvent) (snapshot : WorkflowStatusSnapshot) :
    lastStatus (seen ++ [.recorded snapshot]) = some snapshot := by
  unfold lastStatus
  rw [List.filterMap_append]
  exact List.getLast?_concat

theorem plansOf_append (seen seen' : List ProjectEvent) :
    plansOf (seen ++ seen') = plansOf seen ++ plansOf seen' := List.filterMap_append

theorem runsOf_append (seen seen' : List ProjectEvent) :
    runsOf (seen ++ seen') = runsOf seen ++ runsOf seen' := List.filterMap_append

/-! ### The tasks of a plan -/

namespace ProjectSetting

variable {h} {p : ProjectSetting} {sha256 : String → String} {clock : Nat → String} {s : S}

/-- The run of a task under an id. -/
def taskRun (p : ProjectSetting) (task : String × ScopedTask) (result : TaskReconciliationResult) :
    TaskRun where
  key := task.1
  input := p.taskInput task.1 task.2
  result := some result

/-- **One task is run once, and its result is kept.** -/
theorem reconcileTask_shows {ids : List String} {total index : Nat} {id : String}
    {task : ScopedTask} {results : List TaskReconciliationResult} :
    Shows h (projectEvent h) (p.reconcileTask clock ids total index id task results) s
      fun out _ seen => ∀ results', out = .ok results' →
        ∃ result, results' = results ++ [result] ∧ runsOf seen = [p.taskRun (id, task) result] ∧
          plansOf seen = [] := by
  unfold reconcileTask
  refine shows_bind (shows_perform ?_)
  cases hrun : (h (p.runTask id task) s).1 with
  | error message =>
      intro results' hout
      cases hout
  | ok candidate =>
      have hanswer : taskAnswer (h (p.runTask id task) s).1 = taskAnswer (.ok candidate) :=
        congrArg taskAnswer hrun
      cases candidate with
      | error message =>
          refine shows_fail ?_
          intro results' hout
          cases hout
      | ok result =>
          refine shows_bind (shows_perform ?_)
          split
          · refine shows_bind (shows_perform ?_)
            split
            · refine shows_done ?_
              intro results' hout
              cases hout
              refine ⟨result, rfl, ?_, rfl⟩
              show [(⟨id, p.taskInput id task, taskAnswer (h (p.runTask id task) s).1⟩ : TaskRun)] = _
              rw [hanswer]
              rfl
            · intro results' hout
              cases hout
          · intro results' hout
            cases hout

/-- **The tasks are run in their order, each once.** -/
theorem reconcileTasks_shows {ids : List String} {total : Nat} :
    ∀ {tasks : List (String × ScopedTask)} {index : Nat}
      {results : List TaskReconciliationResult} {s : S},
      Shows h (projectEvent h) (p.reconcileTasks clock ids total index tasks results) s
        fun out _ seen => ∀ results', out = .ok results' →
          ∃ more : List TaskReconciliationResult, results' = results ++ more ∧
            more.length = tasks.length ∧ runsOf seen = List.zipWith p.taskRun tasks more ∧
            plansOf seen = [] := by
  intro tasks
  induction tasks with
  | nil =>
      intro index results s
      refine shows_done ?_
      intro results' hout
      cases hout
      exact ⟨[], (List.append_nil _).symm, rfl, rfl, rfl⟩
  | cons task rest ih =>
      intro index results s
      obtain ⟨id, task⟩ := task
      refine shows_bind (reconcileTask_shows.mono ?_)
      rintro (message | results₁) s₁ seen₁ hfirst
      · intro results' hout
        cases hout
      · obtain ⟨result, rfl, hruns, hplans⟩ := hfirst results₁ rfl
        refine ih.mono ?_
        intro out s₂ seen₂ hrest results' hout
        obtain ⟨more, rfl, hlength, hruns', hplans'⟩ := hrest results' hout
        refine ⟨result :: more, by rw [List.append_assoc, List.singleton_append], ?_, ?_, ?_⟩
        · rw [List.length_cons, List.length_cons, hlength]
        · rw [runsOf_append, hruns, hruns']
          rfl
        · rw [plansOf_append, hplans, hplans', List.append_nil]

/-! ### How a run ends -/

/-- The ways a run that returns can end. -/
inductive Ending (p : ProjectSetting) (sha256 : String → String) (clock : Nat → String)
    (seen : List ProjectEvent) : ProjectReconciliationResult → Prop
  | invalidPlan (message : String) (hplan : plansOf seen = [.error message])
      (hruns : runsOf seen = [])
      (hlast : lastStatus seen = some (p.statusSnapshot (.reconciled .failed) (clock 0) [] []
        [structuredError "INVALID_PLAN" message (clock 0) none none] "Execution plan was invalid.")) :
      Ending p sha256 clock seen (p.failedResult none
        (structuredError "INVALID_PLAN" message (clock 0) none none) "Execution plan was invalid.")
  | tooManyTasks (plan : ExecutionPlan) (hplan : plansOf seen = [.ok plan])
      (hover : p.bounds.maxTasksPerProject < plan.tasks.length) (hruns : runsOf seen = [])
      (hlast : lastStatus seen = some (p.statusSnapshot .planning (clock 0) [] [] []
        "Planning project.")) :
      Ending p sha256 clock seen (p.failedResult (some plan) (structuredError "BUDGET_EXCEEDED"
        "Plan exceeds maximum task count" (clock 0) none none) "Task count bound exceeded.")
  | tasksRun (plan : ExecutionPlan) (results : List TaskReconciliationResult)
      (hplan : plansOf seen = [.ok plan])
      (hbound : plan.tasks.length ≤ p.bounds.maxTasksPerProject)
      (hlength : results.length = plan.tasks.length)
      (hruns : runsOf seen =
        List.zipWith p.taskRun ((p.taskRunIds sha256 plan).zip plan.tasks) results)
      (now : String)
      (hlast : lastStatus seen = some (p.finalStatus now
        (p.projectResult plan (p.taskRunIds sha256 plan) results))) :
      Ending p sha256 clock seen (p.projectResult plan (p.taskRunIds sha256 plan) results)

theorem length_taskRunIds (plan : ExecutionPlan) :
    (p.taskRunIds sha256 plan).length = plan.tasks.length := by
  unfold taskRunIds
  rw [List.length_map, List.length_zipIdx]

theorem reconcilePlan_shows {plan : ExecutionPlan}
    (hbound : plan.tasks.length ≤ p.bounds.maxTasksPerProject) {before : List ProjectEvent}
    (hplan : plansOf before = [.ok plan]) (hruns : runsOf before = []) :
    Shows h (projectEvent h) (p.reconcilePlan sha256 clock plan) s fun out _ seen =>
      ∀ result, out = .ok result → Ending p sha256 clock (before ++ seen) result := by
  unfold reconcilePlan
  refine shows_bind (shows_perform ?_)
  split
  · refine shows_bind (reconcileTasks_shows.mono ?_)
    rintro (message | results) s₁ seen₁ htasks
    · intro result hout
      cases hout
    · obtain ⟨more, hmore, hlength, hran, hplans⟩ := htasks results rfl
      rw [List.nil_append] at hmore
      subst hmore
      refine shows_bind (shows_perform ?_)
      split
      · refine shows_done ?_
        intro result hout
        cases hout
        have hzip : ((p.taskRunIds sha256 plan).zip plan.tasks).length = plan.tasks.length := by
          rw [List.length_zip, length_taskRunIds, Nat.min_self]
        refine .tasksRun plan results ?_ hbound (hlength.trans hzip) ?_
          (clock (2 * plan.tasks.length + 1)) ?_
        · rw [plansOf_append, plansOf_append, plansOf_append, hplan, hplans]
          rfl
        · rw [runsOf_append, runsOf_append, runsOf_append, hruns, hran]
          exact List.append_nil _
        · rw [List.append_nil, ← List.append_assoc, ← List.append_assoc]
          exact lastStatus_append _ _
      · intro result hout
        cases hout
  · intro result hout
    cases hout

/-- **A run that returns ends in one of the three ways.** -/
theorem reconcile_shows :
    Shows h (projectEvent h) (p.reconcile sha256 clock) s fun out _ seen =>
      ∀ result, out = .ok result → Ending p sha256 clock seen result := by
  unfold reconcile
  refine shows_bind (shows_perform ?_)
  split
  · refine shows_bind (shows_perform ?_)
    rename_i s₁ _ _
    cases hplan : (h p.generatePlan (h (p.recordStatus "planning" (p.statusSnapshot .planning
        (clock 0) [] [] [] "Planning project.")) s).2).1 with
    | error message =>
        intro result hout
        cases hout
    | ok planParsed =>
        have hseen : projectEvent h ((h (p.recordStatus "planning" (p.statusSnapshot .planning
            (clock 0) [] [] [] "Planning project.")) s).2, p.generatePlan) =
            some (.planned planParsed) := by
          unfold projectEvent generatePlan
          dsimp only
          unfold generatePlan at hplan
          rw [hplan]
        rw [hseen]
        cases planParsed with
        | error message =>
            refine shows_bind (shows_perform ?_)
            split
            · refine shows_done ?_
              intro result hout
              cases hout
              exact .invalidPlan message rfl rfl rfl
            · intro result hout
              cases hout
        | ok plan =>
            dsimp only
            split
            · rename_i hover
              refine shows_done ?_
              intro result hout
              cases hout
              exact .tooManyTasks plan rfl hover rfl rfl
            · rename_i hbound
              have hrest := @reconcilePlan_shows _ h p sha256 clock
                (h p.generatePlan (h (p.recordStatus "planning" (p.statusSnapshot .planning
                  (clock 0) [] [] [] "Planning project.")) s).2).2 plan (not_lt.mp hbound)
                [.recorded (p.statusSnapshot .planning (clock 0) [] [] [] "Planning project."),
                  .planned (.ok plan)] rfl rfl
              exact hrest
  · intro result hout
    cases hout

end ProjectSetting

/-! ### Run ids -/

theorem numberText_repr (n : Nat) : numberText (Nat.repr n) = true := by
  unfold numberText
  rw [Nat.toList_repr, Bool.and_eq_true, List.all_eq_true]
  refine ⟨?_, ?_⟩
  · intro c hc
    have hdigit := Nat.isDigit_of_mem_toDigits (by decide) (by decide) hc
    simp [numberChar, hdigit]
  · refine decide_eq_true ?_
    intro hempty
    have hchars := congrArg String.toList hempty
    rw [Nat.toList_repr] at hchars
    exact Nat.toDigits_ne_nil hchars

/-- The text that the run id of a task is cut from the hash of. -/
def taskRunText (projectId planVersion : String) (taskIndex : Nat) (taskTitle : String) : String :=
  (stableStringify (taskRunContent projectId planVersion taskIndex taskTitle)).getD ""

/-- Texts of different places differ. -/
theorem taskRunText_index {projectId planVersion title title' : String} {index index' : Nat}
    (heq : taskRunText projectId planVersion index title =
      taskRunText projectId planVersion index' title') : index = index' := by
  have hplain : ∀ index title,
      (taskRunContent projectId planVersion index title).plain = true := by
    intro index title
    simp [taskRunContent, Value.plain, plainFields, numberText_repr]
  have hsome : ∀ index title, (stableStringify (taskRunContent projectId planVersion index title)) =
      some (taskRunText projectId planVersion index title) := fun _ _ => rfl
  have htext : stableStringify (taskRunContent projectId planVersion index title) =
      stableStringify (taskRunContent projectId planVersion index' title') := by
    rw [hsome, hsome, heq]
  have hsame := property_same ((stableStringify_eq_iff (hplain _ _) (hplain _ _)).mp htext) "task_index"
  have hrepr : Nat.repr index = Nat.repr index' := by
    have hnum : SameValue (.num (Nat.repr index)) (.num (Nat.repr index')) := hsame
    unfold SameValue at hnum
    simp only [Value.sorted, Value.num.injEq] at hnum
    exact hnum
  exact Nat.repr_injective hrepr

/-- No two of the texts have hashes that begin alike. -/
def Collisionless (sha256 : String → String) (texts : List String) : Prop :=
  ∀ a ∈ texts, ∀ b ∈ texts, firstChars 24 (sha256 a) = firstChars 24 (sha256 b) → a = b

namespace ProjectSetting

variable {p : ProjectSetting} {sha256 : String → String} {clock : Nat → String}

/-- The texts of the tasks of a plan. -/
def taskRunTexts (p : ProjectSetting) (plan : ExecutionPlan) : List String :=
  plan.tasks.zipIdx.map fun task => taskRunText p.projectId plan.planVersion task.2 task.1.title

theorem taskRunIds_eq (plan : ExecutionPlan) : p.taskRunIds sha256 plan =
    (p.taskRunTexts plan).map fun text => "task_run" ++ "_" ++ firstChars 24 (sha256 text) := by
  unfold taskRunIds taskRunTexts
  rw [List.map_map]
  rfl

theorem nodup_taskRunTexts (plan : ExecutionPlan) : (p.taskRunTexts plan).Nodup := by
  have hindex : (plan.tasks.zipIdx.map Prod.snd).Nodup := by
    rw [List.zipIdx_map_snd]
    exact List.nodup_range'
  have hpairs := List.pairwise_map.mp hindex
  unfold taskRunTexts
  refine List.pairwise_map.mpr (hpairs.imp ?_)
  intro a b hne heq
  exact hne (taskRunText_index heq)

/-- **Tasks have run ids of their own.** -/
theorem nodup_taskRunIds {plan : ExecutionPlan} (h : Collisionless sha256 (p.taskRunTexts plan)) :
    (p.taskRunIds sha256 plan).Nodup := by
  rw [taskRunIds_eq]
  refine List.Nodup.map_on ?_ (nodup_taskRunTexts plan)
  intro a ha b hb heq
  have hlist := congrArg String.toList heq
  simp only [String.toList_append] at hlist
  exact h a ha b hb (String.toList_inj.mp (List.append_cancel_left hlist))

end ProjectSetting

/-! ### Agreement -/

theorem aggregateStatus_completed {results : List TaskReconciliationResult} :
    aggregateStatus results = .completed ↔ ∀ result ∈ results, result.status = .completed := by
  unfold aggregateStatus
  constructor
  · intro h result hmem
    have hnone : ∀ status, results.any (·.status = status) = false → result.status ≠ status := by
      intro status hany heq
      have hsome : results.any (·.status = status) = true :=
        List.any_eq_true.mpr ⟨result, hmem, decide_eq_true heq⟩
      rw [hany] at hsome
      cases hsome
    split at h
    · cases h
    · split at h
      · cases h
      · split at h
        · cases h
        · split at h
          · cases h
          · rename_i happroval hfailed hyielded herrors
            have h₁ := hnone _ (Bool.eq_false_iff.mpr happroval)
            have h₂ := hnone _ (Bool.eq_false_iff.mpr hfailed)
            have h₃ := hnone _ (Bool.eq_false_iff.mpr hyielded)
            have h₄ := hnone _ (Bool.eq_false_iff.mpr herrors)
            cases hstatus : result.status with
            | completed => rfl
            | completedWithErrors => exact absurd hstatus h₄
            | yielded => exact absurd hstatus h₃
            | requiresApproval => exact absurd hstatus h₁
            | failed => exact absurd hstatus h₂
  · intro h
    have hnone : ∀ status, status ≠ .completed → ¬ results.any (·.status = status) = true := by
      intro status hne hany
      obtain ⟨result, hmem, hstatus⟩ := List.any_eq_true.mp hany
      exact hne ((of_decide_eq_true hstatus).symm.trans (h result hmem))
    rw [if_neg (hnone _ (by decide)), if_neg (hnone _ (by decide)), if_neg (hnone _ (by decide)),
      if_neg (hnone _ (by decide))]

/-- What is recorded of a project and what is returned agree, and the tasks are run as planned. -/
structure StatusAgreement (p : ProjectSetting) (sha256 : String → String)
    (seen : List ProjectEvent) (result : ProjectReconciliationResult) : Prop where
  recorded : ∃ snapshot, lastStatus seen = some snapshot ∧ snapshot.projectId = result.projectId ∧
    snapshot.projectRunId = result.projectRunId ∧
    snapshot.status = .reconciled result.status ∧ snapshot.errors = result.errors ∧
    snapshot.taskRunIds = result.taskRunIds
  tasks : ∀ plan, plansOf seen = [.ok plan] → plan.tasks.length ≤ p.bounds.maxTasksPerProject →
    (runsOf seen).map (·.input.scopedTask) = plan.tasks ∧
      (runsOf seen).map (·.key) = p.taskRunIds sha256 plan ∧
      (runsOf seen).map (·.input.taskRunId) = p.taskRunIds sha256 plan ∧
      (runsOf seen).map (·.result) = result.taskResults.map some
  own : ((runsOf seen).map (·.key)).Nodup
  bound : (runsOf seen).length ≤ p.bounds.maxTasksPerProject
  completed : result.status = .completed → ∀ item ∈ result.taskResults, item.status = .completed

namespace ProjectSetting

variable {p : ProjectSetting} {sha256 : String → String} {clock : Nat → String}
  {seen : List ProjectEvent} {result : ProjectReconciliationResult}

theorem map_taskRuns {α : Type} (f : TaskRun → α) (g : String × ScopedTask → α)
    (hfg : ∀ task result, f (p.taskRun task result) = g task) :
    ∀ {tasks : List (String × ScopedTask)} {results : List TaskReconciliationResult},
      results.length = tasks.length → (List.zipWith p.taskRun tasks results).map f = tasks.map g := by
  intro tasks
  induction tasks with
  | nil =>
      intro results _
      rfl
  | cons task rest ih =>
      intro results hlength
      cases results with
      | nil => cases hlength
      | cons result others =>
          rw [List.zipWith_cons_cons, List.map_cons, List.map_cons, hfg,
            ih (Nat.succ.inj hlength)]

theorem results_taskRuns : ∀ {tasks : List (String × ScopedTask)}
    {results : List TaskReconciliationResult}, results.length = tasks.length →
      (List.zipWith p.taskRun tasks results).map (·.result) = results.map some := by
  intro tasks
  induction tasks with
  | nil =>
      intro results hlength
      rw [List.length_eq_zero_iff.mp hlength]
      rfl
  | cons task rest ih =>
      intro results hlength
      cases results with
      | nil => cases hlength
      | cons result others =>
          rw [List.zipWith_cons_cons, List.map_cons, List.map_cons, ih (Nat.succ.inj hlength)]
          rfl

/-- **What is recorded last agrees with what is returned exactly where the plan has no more tasks
than it may have.** -/
theorem agreement_of_ending (h : Ending p sha256 clock seen result)
    (hhash : ∀ plan, plansOf seen = [.ok plan] → Collisionless sha256 (p.taskRunTexts plan)) :
    StatusAgreement p sha256 seen result ↔
      ∀ plan, plansOf seen = [.ok plan] → plan.tasks.length ≤ p.bounds.maxTasksPerProject := by
  cases h with
  | invalidPlan message hplan hruns hlast =>
      refine iff_of_true ?_ ?_
      · refine
          { recorded := ⟨_, hlast, rfl, rfl, rfl, rfl, rfl⟩
            tasks := ?_
            own := ?_
            bound := ?_
            completed := ?_ }
        · intro plan hother
          rw [hplan] at hother
          cases hother
        · rw [hruns]
          exact List.nodup_nil
        · rw [hruns]
          exact Nat.zero_le _
        · intro hstatus
          cases hstatus
      · intro plan hother
        rw [hplan] at hother
        cases hother
  | tooManyTasks plan hplan hover hruns hlast =>
      refine iff_of_false ?_ ?_
      · intro hagree
        obtain ⟨snapshot, hsnapshot, -, -, hstatus, -⟩ := hagree.recorded
        rw [hlast] at hsnapshot
        cases hsnapshot
        cases hstatus
      · intro hbound
        have hle := hbound plan hplan
        omega
  | tasksRun plan results hplan hbound hlength hruns now hlast =>
      have hids := @length_taskRunIds p sha256 plan
      have hpairs : results.length = ((p.taskRunIds sha256 plan).zip plan.tasks).length := by
        rw [List.length_zip, hids, Nat.min_self, hlength]
      have hkeys : (runsOf seen).map (·.key) = p.taskRunIds sha256 plan := by
        rw [hruns, map_taskRuns (·.key) Prod.fst (fun _ _ => rfl) hpairs]
        exact List.map_fst_zip hids.le
      refine iff_of_true ?_ ?_
      · refine
          { recorded := ⟨_, hlast, rfl, rfl, rfl, rfl, rfl⟩
            tasks := ?_
            own := ?_
            bound := ?_
            completed := aggregateStatus_completed.mp }
        · intro other hother _
          rw [hplan] at hother
          cases hother
          refine ⟨?_, hkeys, ?_, ?_⟩
          · rw [hruns, map_taskRuns (·.input.scopedTask) Prod.snd (fun _ _ => rfl) hpairs]
            exact List.map_snd_zip hids.ge
          · rw [hruns, map_taskRuns (·.input.taskRunId) Prod.fst (fun _ _ => rfl) hpairs]
            exact List.map_fst_zip hids.le
          · rw [hruns]
            exact results_taskRuns hpairs
        · rw [hkeys]
          exact nodup_taskRunIds (hhash plan hplan)
        · have hcount := congrArg List.length hkeys
          rw [List.length_map, hids] at hcount
          rw [hcount]
          exact hbound
      · intro other hother
        rw [hplan] at hother
        cases hother
        exact hbound

end ProjectSetting

/-- What is seen of reconciling a project. -/
def projectEvents (sha256 toLowerCase : String → String) (clock : Nat → String)
    (requested : ProjectReconcilerInput) (s : S) : List ProjectEvent :=
  (exec h (projectReconciler sha256 toLowerCase clock (.ok requested)) s).trace.filterMap
    (projectEvent h)

/-- **The status that is recorded of a project is that of the result that is returned, and its
tasks are run as planned, exactly where the plan has no more tasks than it may have.** -/
theorem project_status_agreement (sha256 toLowerCase : String → String) (clock : Nat → String)
    (requested : ProjectReconcilerInput) (s : S) (result : ProjectReconciliationResult)
    (hreturn : (exec h (projectReconciler sha256 toLowerCase clock (.ok requested)) s).outcome =
      .ok result)
    (hhash : ∀ plan, plansOf (projectEvents h sha256 toLowerCase clock requested s) = [.ok plan] →
      Collisionless sha256 ((requested.setting sha256 toLowerCase).taskRunTexts plan)) :
    StatusAgreement (requested.setting sha256 toLowerCase) sha256
        (projectEvents h sha256 toLowerCase clock requested s) result ↔
      ∀ plan, plansOf (projectEvents h sha256 toLowerCase clock requested s) = [.ok plan] →
        plan.tasks.length ≤ (requested.setting sha256 toLowerCase).bounds.maxTasksPerProject := by
  have hshows := @ProjectSetting.reconcile_shows _ h (requested.setting sha256 toLowerCase) sha256
    clock s
  exact ProjectSetting.agreement_of_ending (hshows result hreturn) hhash

section Sample

def sampleClock : Nat → String := fun _ => "2026-04-30T12:00:00.000Z"

/-- The digests of the two texts that a run with one task hashes. -/
def projectSha (text : String) : String :=
  if text = taskRunText "project_1" "v1" 0 "Write notes" then
    "a200404d596005a137b4f3cd325252de045ba495db9f4494a55b984693572510"
  else "1081ea4ef27f73dbb2bd74e53da0930467521ba2916f623026a468b9f7070393"

def sampleDelegation : DelegationContext where
  principalId := "user_1"
  principalType := "human"
  delegateId := "reconciler_1"
  delegateType := "reconciler"
  projectId := "project_1"
  workspaceId := "workspace_1"
  allowedScopes := []
  deniedScopes := []
  allowedCapabilities := []
  maxRiskLevel := .read
  approvalRequiredFor := []
  expiresAt := "2026-05-01T12:00:00.000Z"
  traceId := "trace_1"
  parentRunId := "run_1"
  taskRunId := none

def requestedNotes : ProjectReconcilerInput where
  goal := "Write notes"
  projectId := some "project_1"
  delegationContext := sampleDelegation
  metadata := none
  bounds := none

def notesTask (taskId : String) : ScopedTask where
  taskId
  title := "Write notes"
  objective := "Write notes."
  allowedScopes := []
  allowedCapabilities := []
  maxRiskLevel := .read

def notesPlan (tasks : List ScopedTask) : ExecutionPlan where
  planId := "plan_1"
  projectId := "project_1"
  planVersion := "v1"
  goal := "Write notes"
  tasks
  assumptions := []

def notesResult (input : TaskReconcilerInput) : TaskReconciliationResult where
  reconciliationId := "reconciliation_1"
  taskId := input.scopedTask.taskId
  taskRunId := input.taskRunId
  status := .completed
  capabilitySnapshot := ⟨"caps_1", "2026-04-30T12:00:00.000Z", "hash", []⟩
  artifact := none
  executedIntents := []
  skippedIntents := []
  observations := []
  errors := []
  finalMessage := "Task completed."
  approvalRequest := none

/-- Children that plan the tasks and complete each of them. -/
def notesChildren (tasks : List ScopedTask) : Prog.Handler ProjectCall ProjectCall.Answer Unit
  | ⟨_, .recordProjectStatus _, _⟩, s => (.ok (), s)
  | ⟨_, .recordTaskStatus _, _⟩, s => (.ok (), s)
  | ⟨_, .generateExecutionPlan _ _ _ _, _⟩, s => (.ok (.ok (notesPlan tasks)), s)
  | ⟨_, .taskReconciler input, _⟩, s => (.ok (.ok (notesResult input)), s)

def notesEvents (tasks : List ScopedTask) : List ProjectEvent :=
  projectEvents (notesChildren tasks) projectSha id sampleClock requestedNotes ()

theorem plansOf_notes_one : plansOf (notesEvents [notesTask "task_1"]) =
    [.ok (notesPlan [notesTask "task_1"])] := rfl

/-- A project with a task of its own: what is recorded is what is returned. -/
theorem oneTask_agrees : ∃ result,
    (exec (notesChildren [notesTask "task_1"]) (projectReconciler projectSha id sampleClock
      (.ok requestedNotes)) ()).outcome = .ok result ∧
    StatusAgreement (requestedNotes.setting projectSha id) projectSha
      (notesEvents [notesTask "task_1"]) result := by
  refine ⟨_, rfl, ?_⟩
  refine (project_status_agreement (notesChildren [notesTask "task_1"]) projectSha id sampleClock
    requestedNotes () _ rfl ?_).mpr ?_
  · intro plan hplan
    have hsame := plansOf_notes_one.symm.trans hplan
    cases hsame
    intro a ha b hb _
    have hone : (requestedNotes.setting projectSha id).taskRunTexts
        (notesPlan [notesTask "task_1"]) = [taskRunText "project_1" "v1" 0 "Write notes"] := rfl
    rw [hone] at ha hb
    rw [List.mem_singleton.mp ha, List.mem_singleton.mp hb]
  · intro plan hplan
    have hsame := plansOf_notes_one.symm.trans hplan
    cases hsame
    decide

def fourTasks : List ScopedTask :=
  [notesTask "task_1", notesTask "task_2", notesTask "task_3", notesTask "task_4"]

/-- A plan with a task too many fails, and stays recorded as being planned. -/
theorem fourTasks_stay_planned : ∃ result snapshot,
    (exec (notesChildren fourTasks) (projectReconciler projectSha id sampleClock
      (.ok requestedNotes)) ()).outcome = .ok result ∧ result.status = .failed ∧
    lastStatus (notesEvents fourTasks) = some snapshot ∧ snapshot.status = .planning ∧
    ¬ StatusAgreement (requestedNotes.setting projectSha id) projectSha (notesEvents fourTasks)
      result := by
  refine ⟨_, _, rfl, rfl, rfl, rfl, ?_⟩
  intro hagree
  obtain ⟨snapshot, hlast, -, -, hstatus, -⟩ := hagree.recorded
  have hplanned : lastStatus (notesEvents fourTasks) = some _ := rfl
  rw [hplanned] at hlast
  cases hlast
  cases hstatus

end Sample

end OpenLagrange
