/-
What the validator guarantees.

The runner relies on three facts about an accepted plan: node ids are unique, every
dependency is a node, and dependencies never lead back to where they started.  The
first two are read off the checks, the third is the correctness of the depth-first
search.  `Planfile.Sound` keeps them together, and everything later rests on it alone.
-/
import OpenLagrange.Planning.PlanState
import OpenLagrange.Planning.Validator

namespace OpenLagrange

/-- The dependencies of a plan make sense. -/
structure Planfile.Sound (plan : Planfile) : Prop where
  nodup : (plan.nodes.map (·.id)).Nodup
  deps : ∀ node ∈ plan.nodes, ∀ d ∈ node.dependsOn, d ∈ plan.nodes.map (·.id)
  acyclic : WellFounded plan.graph.Below

/-! ### Nodes by their id -/

theorem Planfile.mem_tasks {plan : Planfile} {id : String} :
    id ∈ plan.graph.tasks ↔ ∃ node ∈ plan.nodes, node.id = id := by
  simp [Planfile.graph]

/-- Where keys are unique, a search by key finds the element itself. -/
theorem find?_of_nodup {α κ : Type} [DecidableEq κ] {key : α → κ} {l : List α}
    (hnd : (l.map key).Nodup) {a : α} (ha : a ∈ l) :
    l.find? (fun other => key other = key a) = some a := by
  induction l with
  | nil => cases ha
  | cons first rest ih =>
      rw [List.map_cons, List.nodup_cons] at hnd
      rcases List.mem_cons.mp ha with rfl | ha'
      · simp
      · have hne : key first ≠ key a := fun he =>
          hnd.1 (he ▸ List.mem_map.mpr ⟨a, ha', rfl⟩)
        rw [List.find?_cons_of_neg (by simpa using hne)]
        exact ih hnd.2 ha'

theorem Planfile.node?_of_nodup {plan : Planfile} (hnd : (plan.nodes.map (·.id)).Nodup)
    {node : PlanNode} (hn : node ∈ plan.nodes) : plan.node? node.id = some node :=
  find?_of_nodup hnd hn

theorem Planfile.deps_of_nodup {plan : Planfile} (hnd : (plan.nodes.map (·.id)).Nodup)
    {node : PlanNode} (hn : node ∈ plan.nodes) : plan.graph.deps node.id = node.dependsOn := by
  simp only [Planfile.graph]
  rw [plan.node?_of_nodup hnd hn]

theorem Planfile.deps_of_not_mem {plan : Planfile} {id : String} (hid : id ∉ plan.graph.tasks) :
    plan.graph.deps id = [] := by
  simp only [Planfile.graph]
  cases hf : plan.node? id with
  | none => rfl
  | some node =>
      have hnode := List.find?_some hf
      exact absurd (Planfile.mem_tasks.mpr ⟨node, List.mem_of_find?_eq_some hf, by simpa using hnode⟩) hid

/-- With unique ids the last node of an id is the first. -/
theorem byId_of_nodup {nodes : List PlanNode} (hnd : (nodes.map (·.id)).Nodup) {node : PlanNode}
    (hn : node ∈ nodes) : byId nodes node.id = some node := by
  have hrev : (nodes.reverse.map (·.id)).Nodup := by
    rw [List.map_reverse, List.nodup_reverse]
    exact hnd
  exact find?_of_nodup hrev (List.mem_reverse.mpr hn)

theorem byId_mem {nodes : List PlanNode} {id : String} {node : PlanNode}
    (h : byId nodes id = some node) : node ∈ nodes ∧ node.id = id := by
  have hid := List.find?_some h
  exact ⟨List.mem_reverse.mp (List.mem_of_find?_eq_some h), by simpa using hid⟩

/-! ### The checks -/

theorem nodup_of_nodeIdIssues {nodes : List PlanNode} {seen : List String}
    (h : nodeIdIssues seen nodes = []) :
    (nodes.map (·.id)).Nodup ∧ ∀ node ∈ nodes, node.id ∉ seen := by
  induction nodes generalizing seen with
  | nil => exact ⟨List.nodup_nil, by simp⟩
  | cons node rest ih =>
      unfold nodeIdIssues at h
      obtain ⟨h12, h3⟩ := List.append_eq_nil_iff.mp h
      obtain ⟨-, h2⟩ := List.append_eq_nil_iff.mp h12
      have hnew : node.id ∉ seen := by
        intro hin
        rw [if_pos hin] at h2
        cases h2
      obtain ⟨hnd, hrest⟩ := ih h3
      refine ⟨?_, ?_⟩
      · rw [List.map_cons, List.nodup_cons]
        refine ⟨?_, hnd⟩
        intro hmem
        obtain ⟨other, hother, hid⟩ := List.mem_map.mp hmem
        exact hrest other hother (by simp [hid])
      · intro other hother
        rcases List.mem_cons.mp hother with rfl | hother'
        · exact hnew
        · intro hin
          exact hrest other hother' (by simp [hin])

theorem deps_of_dependencyIssues {plan : Planfile} (h : dependencyIssues plan = []) :
    ∀ node ∈ plan.nodes, ∀ d ∈ node.dependsOn, d ∈ plan.nodes.map (·.id) := by
  unfold dependencyIssues at h
  obtain ⟨h1, -⟩ := List.append_eq_nil_iff.mp h
  intro node hnode d hd
  by_contra hmiss
  have hnil := List.flatMap_eq_nil_iff.mp h1 node hnode
  have hfilter : d ∈ node.dependsOn.filter (· ∉ plan.nodes.map (·.id)) :=
    List.mem_filter.mpr ⟨hd, by simpa using hmiss⟩
  rw [List.map_eq_nil_iff.mp hnil] at hfilter
  cases hfilter

/-- **No cycle is reported only where dependencies are well founded.** -/
theorem acyclic_of_hasCycle {plan : Planfile} (hnd : (plan.nodes.map (·.id)).Nodup)
    (h : hasCycle plan.nodes = false) : WellFounded plan.graph.Below := by
  have hkeys : ∀ id, ((byId plan.nodes id).map (·.dependsOn)).isSome →
      id ∈ plan.nodes.map (·.id) := by
    intro id hid
    rw [Option.isSome_map] at hid
    obtain ⟨node, hnode⟩ := Option.isSome_iff_exists.mp hid
    obtain ⟨hmem, rfl⟩ := byId_mem hnode
    exact List.mem_map.mpr ⟨node, hmem, rfl⟩
  obtain ⟨found, marks, hrun, hacc, -⟩ := Dfs.visitAll_spec hkeys (plan.nodes.map (·.id))
  have hfound : found = false := by
    rw [List.length_map] at hrun
    unfold hasCycle at h
    rw [hrun] at h
    exact h
  -- The search and the graph follow the same dependencies.
  have hchild : ∀ d n, plan.graph.Below d n →
      Dfs.Child (fun id => (byId plan.nodes id).map (·.dependsOn)) d n := by
    intro d n hbelow
    by_cases hn : n ∈ plan.graph.tasks
    · obtain ⟨node, hnode, rfl⟩ := Planfile.mem_tasks.mp hn
      refine ⟨node.dependsOn, ?_, ?_⟩
      · simp only [byId_of_nodup hnd hnode, Option.map_some]
      · rwa [TaskGraph.Below, plan.deps_of_nodup hnd hnode] at hbelow
    · rw [TaskGraph.Below, Planfile.deps_of_not_mem hn] at hbelow
      cases hbelow
  have hsub : ∀ n, Acc (Dfs.Child fun id => (byId plan.nodes id).map (·.dependsOn)) n →
      Acc plan.graph.Below n := by
    intro n hn
    induction hn with
    | intro n _ ih => exact ⟨n, fun d hd => ih d (hchild d n hd)⟩
  refine ⟨fun n => ?_⟩
  by_cases hn : n ∈ plan.graph.tasks
  · exact hsub n (hacc hfound n hn)
  · refine ⟨n, fun d hd => ?_⟩
    rw [TaskGraph.Below, Planfile.deps_of_not_mem hn] at hd
    cases hd

/-! ### An accepted plan is sound -/

theorem nodeIdIssues_severity {nodes : List PlanNode} {seen : List String} :
    ∀ issue ∈ nodeIdIssues seen nodes, issue.severity = .error := by
  induction nodes generalizing seen with
  | nil => simp [nodeIdIssues]
  | cons node rest ih =>
      intro issue hissue
      unfold nodeIdIssues at hissue
      rcases List.mem_append.mp hissue with h12 | h3
      · rcases List.mem_append.mp h12 with h1 | h2
        · split at h1
          · cases h1
          · rw [List.mem_singleton.mp h1]
            rfl
        · split at h2
          · rw [List.mem_singleton.mp h2]
            rfl
          · cases h2
      · exact ih issue h3

theorem dependencyIssues_severity (plan : Planfile) :
    ∀ issue ∈ dependencyIssues plan, issue.severity = .error := by
  intro issue hissue
  rcases List.mem_append.mp hissue with h | h
  · obtain ⟨node, -, hin⟩ := List.mem_flatMap.mp h
    obtain ⟨d, -, rfl⟩ := List.mem_map.mp hin
    rfl
  · obtain ⟨edge, -, rfl⟩ := List.mem_map.mp h
    rfl

/-- Issues that are all errors are absent from an accepted plan. -/
private theorem nil_of_ok {issues : List PlanValidationIssue}
    (herr : ∀ issue ∈ issues, issue.severity = .error)
    (hok : ∀ issue ∈ issues, issue.severity ≠ .error) : issues = [] := by
  rw [List.eq_nil_iff_forall_not_mem]
  intro issue hissue
  exact hok issue hissue (herr issue hissue)

/-- **An accepted plan is sound.** -/
theorem sound_of_valid {P : Platform} {snapshot : Option CapabilitySnapshot} {plan : Planfile}
    (h : (validatePlanfile P snapshot plan).ok = true) : plan.Sound := by
  unfold validatePlanfile at h
  by_cases href : plan.refined P.isDatetime = true
  · rw [if_pos href] at h
    have hall : ∀ issue ∈ nodeIdIssues [] plan.nodes ++ dependencyIssues plan ++ graphIssues plan ++
        capabilityIssues plan snapshot ++ plan.nodes.flatMap (policyIssues plan),
        issue.severity ≠ .error := by
      intro issue hissue
      simpa using List.all_eq_true.mp h issue hissue
    have hids : nodeIdIssues [] plan.nodes = [] :=
      nil_of_ok nodeIdIssues_severity fun issue hi => hall issue (by simp [hi])
    have hdeps : dependencyIssues plan = [] :=
      nil_of_ok (dependencyIssues_severity plan) fun issue hi => hall issue (by simp [hi])
    have hcycle : hasCycle plan.nodes = false := by
      by_contra hc
      have hc' : hasCycle plan.nodes = true := by simpa using hc
      refine hall (planIssue .cycleDetected "Plan DAG contains a cycle." ["nodes"]) ?_ rfl
      simp [graphIssues, hc']
    have hnd := (nodup_of_nodeIdIssues hids).1
    exact ⟨hnd, deps_of_dependencyIssues hdeps, acyclic_of_hasCycle hnd hcycle⟩
  · rw [if_neg href] at h
    cases h

end OpenLagrange
