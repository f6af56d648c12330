/-
What the validator reports, exactly.

The checks about the graph of a plan are two searches and two scans.  Of each it is shown when an
issue is reported and which one: the scans report the duplicate ids and the dependencies that name
no node, the depth-first search a cycle, and the search forwards from the start nodes what it does
not reach.  Both searches end on every plan.

The searches look nodes up by id, and of nodes with one id they find the last.  So where an id is
used twice the relation that is searched for a cycle is not the one the plan lists, and a cycle
through the first of two such nodes is not reported; the duplicate id is.
-/
import OpenLagrange.Proofs.Runner

namespace OpenLagrange

variable {P : Platform} {snapshot : Option CapabilitySnapshot} {plan : Planfile}
  {nodes : List PlanNode} {seen : List String} {id : String} {issue : PlanValidationIssue}

/-! ### The relations of a plan -/

/-- A node of the plan lists the dependency, which is a node of the plan too. -/
def Planfile.Lists (plan : Planfile) (dependency id : String) : Prop :=
  ∃ node ∈ plan.nodes, node.id = id ∧ dependency ∈ node.dependsOn ∧
    dependency ∈ plan.nodes.map (·.id)

/-- The last node of this id lists the dependency, which is a node of the plan too. -/
def Planfile.LastLists (plan : Planfile) (dependency id : String) : Prop :=
  ∃ node, byId plan.nodes id = some node ∧ dependency ∈ node.dependsOn ∧
    dependency ∈ plan.nodes.map (·.id)

/-- Some id comes back to itself. -/
def Cyclic (relation : String → String → Prop) : Prop :=
  ∃ id, Relation.TransGen relation id id

/-- The nodes a search forwards starts from: the frame nodes, or else those without dependencies. -/
def Planfile.StartsAt (plan : Planfile) (node : PlanNode) : Prop :=
  node ∈ plan.nodes ∧ (node.kind = .frame ∨
    (∀ other ∈ plan.nodes, other.kind ≠ .frame) ∧ node.dependsOn = [])

/-- What the start nodes lead to. -/
inductive Planfile.Leads (plan : Planfile) : String → Prop
  | start {node : PlanNode} (h : plan.StartsAt node) : Planfile.Leads plan node.id
  | next {node : PlanNode} {dependency : String} (hdep : Planfile.Leads plan dependency)
      (hnode : node ∈ plan.nodes) (h : dependency ∈ node.dependsOn) : Planfile.Leads plan node.id

theorem lists_of_nodup (hnodup : (plan.nodes.map (·.id)).Nodup) : plan.LastLists = plan.Lists := by
  funext dependency id
  refine propext ⟨?_, ?_⟩
  · rintro ⟨node, hnode, hlists⟩
    obtain ⟨hmem, rfl⟩ := byId_mem hnode
    exact ⟨node, hmem, rfl, hlists⟩
  · rintro ⟨node, hmem, rfl, hlists⟩
    exact ⟨node, byId_of_nodup hnodup hmem, hlists⟩

/-! ### The search for a cycle -/

/-- The search that `hasCycle` makes, to this depth. -/
def cycleSearch (nodes : List PlanNode) (depth : Nat) : Option (Bool × Dfs.Marks String) :=
  Dfs.visitAll (Dfs.visit (fun id => (byId nodes id).map (·.dependsOn)) depth) (nodes.map (·.id))
    ⟨[], []⟩

/-- The search that `unreachableNodes` makes, for this many rounds. -/
def forwardSearch (nodes : List PlanNode) (rounds : Nat) : Option (List String) :=
  let roots := nodes.filter (·.kind = .frame)
  let start := (if roots.length > 0 then roots else nodes.filter (·.dependsOn.length = 0)).map (·.id)
  Dfs.reach (childrenOf nodes) (· = "") rounds start.reverse []

theorem acc_irrefl {α : Type} {r : α → α → Prop} {a : α} (h : Acc r a) : ¬ r a a := by
  induction h with
  | intro a _ ih => exact fun hself => ih a hself hself

/-- A walk from a node of the plan stays with the nodes of the plan. -/
theorem lastLists_of_child {a b : String}
    (h : Relation.TransGen (Dfs.Child fun id => (byId plan.nodes id).map (·.dependsOn)) a b)
    (ha : a ∈ plan.nodes.map (·.id)) :
    Relation.TransGen plan.LastLists a b ∧ b ∈ plan.nodes.map (·.id) := by
  have hstep : ∀ {d n : String}, Dfs.Child (fun id => (byId plan.nodes id).map (·.dependsOn)) d n →
      d ∈ plan.nodes.map (·.id) → plan.LastLists d n ∧ n ∈ plan.nodes.map (·.id) := by
    rintro d n ⟨deps, hdeps, hd⟩ hmem
    obtain ⟨node, hnode, rfl⟩ := Option.map_eq_some_iff.mp hdeps
    obtain ⟨hin, hid⟩ := byId_mem hnode
    exact ⟨⟨node, hnode, hd, hmem⟩, List.mem_map.mpr ⟨node, hin, hid⟩⟩
  induction h with
  | single hab =>
      obtain ⟨hlists, hb⟩ := hstep hab ha
      exact ⟨.single hlists, hb⟩
  | tail _ hbc ih =>
      obtain ⟨hwalk, hb⟩ := ih
      obtain ⟨hlists, hc⟩ := hstep hbc hb
      exact ⟨hwalk.tail hlists, hc⟩

theorem child_of_lastLists {a b : String} (h : plan.LastLists a b) :
    Dfs.Child (fun id => (byId plan.nodes id).map (·.dependsOn)) a b := by
  obtain ⟨node, hnode, hlists, -⟩ := h
  exact ⟨node.dependsOn, by simp only [hnode, Option.map_some], hlists⟩

/-- **The search for a cycle ends, and finds one exactly where there is one.** -/
theorem hasCycle_iff : (∃ found, cycleSearch plan.nodes (plan.nodes.length + 1) = some found) ∧
    (hasCycle plan.nodes = true ↔ Cyclic plan.LastLists) := by
  have hkeys : ∀ id, ((byId plan.nodes id).map (·.dependsOn)).isSome →
      id ∈ plan.nodes.map (·.id) := by
    intro id hid
    rw [Option.isSome_map] at hid
    obtain ⟨node, hnode⟩ := Option.isSome_iff_exists.mp hid
    obtain ⟨hmem, rfl⟩ := byId_mem hnode
    exact List.mem_map.mpr ⟨node, hmem, rfl⟩
  obtain ⟨found, marks, hrun, hacc, hwalk⟩ := Dfs.visitAll_spec hkeys (plan.nodes.map (·.id))
  rw [List.length_map] at hrun
  have hcycle : hasCycle plan.nodes = found := by
    unfold hasCycle
    rw [hrun]
  refine ⟨⟨_, hrun⟩, ?_⟩
  rw [hcycle]
  constructor
  · intro hfound
    obtain ⟨v, hv⟩ := hwalk hfound
    -- The walk ends in `v`, so `v` is a node of the plan, and it starts there too.
    have hmem : v ∈ plan.nodes.map (·.id) := by
      obtain ⟨w, -, deps, hdeps, -⟩ := Relation.TransGen.tail'_iff.mp hv
      exact hkeys v (Option.isSome_iff_exists.mpr ⟨deps, hdeps⟩)
    exact ⟨v, (lastLists_of_child hv hmem).1⟩
  · rintro ⟨v, hv⟩
    by_contra hnot
    have hmem : v ∈ plan.nodes.map (·.id) := by
      obtain ⟨w, -, node, hnode, -⟩ := Relation.TransGen.tail'_iff.mp hv
      obtain ⟨hin, hid⟩ := byId_mem hnode
      exact List.mem_map.mpr ⟨node, hin, hid⟩
    have hchild : Relation.TransGen (Dfs.Child fun id => (byId plan.nodes id).map (·.dependsOn)) v v :=
      Relation.TransGen.mono (fun _ _ => child_of_lastLists) v v hv
    exact acc_irrefl (hacc (by simpa using hnot) v hmem).transGen hchild

/-! ### The search forwards -/

theorem mem_childrenOf {child : String} :
    child ∈ childrenOf nodes id ↔ ∃ node ∈ nodes, node.id = child ∧ id ∈ node.dependsOn := by
  unfold childrenOf
  simp only [List.mem_flatMap, List.mem_map, List.mem_filter, decide_eq_true_eq]
  constructor
  · rintro ⟨node, hnode, _, ⟨hdep, rfl⟩, rfl⟩
    exact ⟨node, hnode, rfl, hdep⟩
  · rintro ⟨node, hnode, rfl, hdep⟩
    exact ⟨node, hnode, id, ⟨hdep, rfl⟩, rfl⟩

/-- The rounds that are allowed for the search forwards. -/
def forwardRounds (nodes : List PlanNode) : Nat :=
  let roots := nodes.filter (·.kind = .frame)
  let start := (if roots.length > 0 then roots else nodes.filter (·.dependsOn.length = 0)).map (·.id)
  start.length + ((nodes.flatMap (·.dependsOn)).map fun id => (childrenOf nodes id).length).sum + 1

theorem reachedIds_eq : reachedIds nodes = (forwardSearch nodes (forwardRounds nodes)).getD [] := rfl

theorem mem_start {node : PlanNode} :
    node ∈ (if (plan.nodes.filter (·.kind = .frame)).length > 0 then
      plan.nodes.filter (·.kind = .frame) else plan.nodes.filter (·.dependsOn.length = 0)) ↔
      plan.StartsAt node := by
  unfold Planfile.StartsAt
  by_cases hroots : (plan.nodes.filter (·.kind = .frame)).length > 0
  · rw [if_pos hroots, List.mem_filter]
    obtain ⟨root, hroot⟩ := List.exists_mem_of_length_pos hroots
    obtain ⟨hmem, hframe⟩ := List.mem_filter.mp hroot
    simp only [decide_eq_true_eq] at hframe ⊢
    refine and_congr_right fun _ => ⟨Or.inl, ?_⟩
    rintro (h | ⟨hnone, -⟩)
    · exact h
    · exact (hnone root hmem hframe).elim
  · rw [if_neg hroots, List.mem_filter]
    have hnone : ∀ other ∈ plan.nodes, other.kind ≠ .frame := by
      intro other hother hframe
      exact hroots (List.length_pos_of_mem (List.mem_filter.mpr ⟨hother, by simpa using hframe⟩))
    simp only [decide_eq_true_eq, List.length_eq_zero_iff]
    refine and_congr_right fun hmem => ⟨fun h => Or.inr ⟨hnone, h⟩, ?_⟩
    rintro (h | ⟨-, h⟩)
    · exact (hnone _ hmem h).elim
    · exact h

/-- **The search forwards ends, and reaches exactly what the start nodes lead to.** -/
theorem reachedIds_iff (hids : ∀ node ∈ plan.nodes, node.id ≠ "") :
    (∃ reached, forwardSearch plan.nodes (forwardRounds plan.nodes) = some reached) ∧
      ∀ id, id ∈ reachedIds plan.nodes ↔ plan.Leads id := by
  have hkeys : ∀ v, childrenOf plan.nodes v ≠ [] → v ∈ plan.nodes.flatMap (·.dependsOn) := by
    intro v hv
    obtain ⟨child, hchild⟩ := List.exists_mem_of_ne_nil _ hv
    obtain ⟨node, hnode, -, hdep⟩ := mem_childrenOf.mp hchild
    exact List.mem_flatMap.mpr ⟨node, hnode, hdep⟩
  obtain ⟨reached, hrun, -, hstack, hclosed, hleast⟩ := Dfs.reach_spec hkeys
    (forwardRounds plan.nodes) (((if (plan.nodes.filter (·.kind = .frame)).length > 0 then
      plan.nodes.filter (·.kind = .frame)
      else plan.nodes.filter (·.dependsOn.length = 0)).map (·.id)).reverse) []
    (by
      unfold forwardRounds Dfs.unpushed
      simp only [List.length_reverse, List.not_mem_nil, not_false_eq_true, decide_true,
        List.filter_true]
      omega)
    (by simp)
  have hsearch : forwardSearch plan.nodes (forwardRounds plan.nodes) = some reached := hrun
  have hkept : ∀ node ∈ plan.nodes, decide (node.id = "") = false := by
    intro node hnode
    simpa using hids node hnode
  refine ⟨⟨reached, hsearch⟩, fun id => ?_⟩
  rw [reachedIds_eq, hsearch, Option.getD_some]
  constructor
  · refine hleast plan.Leads (by simp) ?_ ?_ id
    · intro v hv _
      rw [List.mem_reverse, List.mem_map] at hv
      obtain ⟨node, hnode, rfl⟩ := hv
      exact .start (mem_start.mp hnode)
    · intro v c hv hc _
      obtain ⟨node, hnode, rfl, hdep⟩ := mem_childrenOf.mp hc
      exact .next hv hnode hdep
  · intro hleads
    induction hleads with
    | @start node h =>
        refine hstack node.id ?_ (hkept node h.1)
        rw [List.mem_reverse]
        exact List.mem_map.mpr ⟨node, mem_start.mpr h, rfl⟩
    | @next node dependency _ hnode h ih =>
        exact hclosed dependency ih node.id (mem_childrenOf.mpr ⟨node, hnode, rfl, h⟩)
          (hkept node hnode)

/-- **The unreachable nodes**: of every id that nothing leads to, the last node. -/
theorem mem_unreachableNodes (hids : ∀ node ∈ plan.nodes, node.id ≠ "") {node : PlanNode} :
    node ∈ unreachableNodes plan.nodes ↔
      byId plan.nodes node.id = some node ∧ ¬ plan.Leads node.id := by
  unfold unreachableNodes
  rw [List.mem_filter, List.mem_filterMap]
  simp only [decide_eq_true_eq, (reachedIds_iff hids).2]
  refine and_congr_left fun _ => ⟨?_, ?_⟩
  · rintro ⟨id, -, hfound⟩
    obtain ⟨-, rfl⟩ := byId_mem hfound
    exact hfound
  · intro hfound
    refine ⟨node.id, ?_, hfound⟩
    rw [mem_distinct]
    exact List.mem_map.mpr ⟨node, (byId_mem hfound).1, rfl⟩

/-! ### A listing from below -/

/-- What has no infinite descent can be listed so that nothing is below an earlier element. -/
theorem exists_listing {α : Type} {below : α → α → Prop} (hwf : WellFounded below) :
    ∀ (count : Nat) (l : List α), l.length = count →
      ∃ order : List α, order.Perm l ∧ order.Pairwise fun a b => ¬ below b a := by
  intro count
  induction count with
  | zero =>
      intro l hl
      exact ⟨[], by rw [List.length_eq_zero_iff.mp hl], List.Pairwise.nil⟩
  | succ count ih =>
      intro l hl
      -- A minimal element of the list comes first, and the others are listed after it.
      obtain ⟨a, ha, hmin⟩ := hwf.has_min {a | a ∈ l}
        (List.exists_mem_of_length_pos (by omega))
      obtain ⟨before, rest, rfl⟩ := List.append_of_mem ha
      obtain ⟨order, hperm, hpair⟩ := ih (before ++ rest) (by
        simp only [List.length_append, List.length_cons] at hl ⊢
        omega)
      refine ⟨a :: order, ?_, List.pairwise_cons.mpr ⟨?_, hpair⟩⟩
      · exact (hperm.cons a).trans List.perm_middle.symm
      · intro b hb
        refine hmin b ?_
        have hin : b ∈ before ++ rest := hperm.subset hb
        rw [List.mem_append] at hin
        simp only [Set.mem_ofPred_eq, List.mem_append, List.mem_cons]
        rcases hin with h | h
        · exact Or.inl h
        · exact Or.inr (Or.inr h)

/-- Every node follows all its dependencies. -/
def FollowDependencies (order : List PlanNode) : Prop :=
  ∀ before node rest, order = before ++ node :: rest →
    ∀ dependency ∈ node.dependsOn, ∃ other ∈ before, other.id = dependency

/-- **The nodes of a sound plan can be listed in the order of their dependencies.** -/
theorem Planfile.Sound.listing (hs : plan.Sound) :
    ∃ order : List PlanNode, order.Perm plan.nodes ∧ FollowDependencies order := by
  have hsub : ∀ {a b : PlanNode}, b ∈ plan.nodes → a.id ∈ b.dependsOn →
      plan.graph.Below a.id b.id := by
    intro a b hb hdep
    show a.id ∈ plan.graph.deps b.id
    rw [Planfile.deps_of_nodup hs.nodup hb]
    exact hdep
  have hwf : WellFounded fun a b : PlanNode => b ∈ plan.nodes ∧ a.id ∈ b.dependsOn :=
    Subrelation.wf (fun h => hsub h.1 h.2) (InvImage.wf (fun node : PlanNode => node.id) hs.acyclic)
  obtain ⟨order, hperm, hpair⟩ := exists_listing hwf _ plan.nodes rfl
  refine ⟨order, hperm, ?_⟩
  rintro before node rest rfl dependency hdep
  have hnode : node ∈ plan.nodes := hperm.subset (by simp)
  obtain ⟨other, hother, rfl⟩ := List.mem_map.mp (hs.deps node hnode dependency hdep)
  rcases List.mem_append.mp (hperm.symm.subset hother) with h | h
  · exact ⟨other, h, rfl⟩
  · rcases List.mem_cons.mp h with rfl | h
    · exact (acc_irrefl (hwf.apply other) ⟨hnode, hdep⟩).elim
    · have hlater := (List.pairwise_cons.mp (List.pairwise_append.mp hpair).2.1).1 other h
      exact (hlater ⟨hnode, hdep⟩).elim

/-! ### The issues of each check -/

/-- The issue that reports a duplicate id. -/
def duplicateIssue (id : String) : PlanValidationIssue :=
  planIssue .duplicateNodeId ("Duplicate node id: " ++ id) ["nodes", id]

/-- The issue that reports a dependency that names no node. -/
def missingIssue (node : PlanNode) (dependency : String) : PlanValidationIssue :=
  planIssue .missingDependency (node.id ++ " depends on missing node " ++ dependency)
    ["nodes", node.id, "depends_on"]

/-- The issue that reports an edge one end of which names no node. -/
def missingEdgeIssue (edge : PlanEdge) : PlanValidationIssue :=
  planIssue .missingDependency
    ("Edge references missing node: " ++ edge.source ++ " -> " ++ edge.target) ["edges"]

/-- The issue that reports an unreachable node. -/
def unreachableIssue (node : PlanNode) : PlanValidationIssue :=
  planIssue .unreachableNode ("Node is not reachable from the frame node: " ++ node.id)
    ["nodes", node.id]

theorem mem_nodeIdIssues_duplicate :
    (issue ∈ nodeIdIssues seen nodes ∧ issue.code = .duplicateNodeId) ↔
      ∃ id, (1 < (nodes.map (·.id)).count id ∨ id ∈ seen ∧ id ∈ nodes.map (·.id)) ∧
        issue = duplicateIssue id := by
  induction nodes generalizing seen with
  | nil =>
      constructor
      · rintro ⟨h, -⟩
        cases h
      · rintro ⟨id, h | ⟨-, h⟩, -⟩
        · simp at h
        · cases h
  | cons node rest ih =>
      have hsplit : (issue ∈ nodeIdIssues seen (node :: rest) ∧ issue.code = .duplicateNodeId) ↔
          (node.id ∈ seen ∧ issue = duplicateIssue node.id) ∨
            (issue ∈ nodeIdIssues (seen ++ [node.id]) rest ∧ issue.code = .duplicateNodeId) := by
        rw [nodeIdIssues, List.mem_append, List.mem_append]
        constructor
        · rintro ⟨(h | h) | h, hcode⟩
          · split at h
            · cases h
            · rw [List.mem_singleton] at h
              subst h
              cases hcode
          · split at h
            · next hseen =>
                rw [List.mem_singleton] at h
                exact Or.inl ⟨hseen, h⟩
            · cases h
          · exact Or.inr ⟨h, hcode⟩
        · rintro (⟨hseen, rfl⟩ | ⟨h, hcode⟩)
          · refine ⟨Or.inl (Or.inr ?_), rfl⟩
            rw [if_pos hseen]
            exact List.mem_singleton.mpr rfl
          · exact ⟨Or.inr h, hcode⟩
      rw [hsplit, ih]
      simp only [List.map_cons, List.mem_append, List.mem_cons, List.not_mem_nil, or_false,
        List.count_cons]
      constructor
      · rintro (⟨hseen, rfl⟩ | ⟨id, h | ⟨hseen | rfl, hrest⟩, rfl⟩)
        · exact ⟨_, Or.inr ⟨hseen, Or.inl rfl⟩, rfl⟩
        · exact ⟨id, Or.inl (by omega), rfl⟩
        · exact ⟨id, Or.inr ⟨hseen, Or.inr hrest⟩, rfl⟩
        · have hpos := List.count_pos_iff.mpr hrest
          exact ⟨_, Or.inl (by simp only [beq_self_eq_true, if_true]; omega), rfl⟩
      · rintro ⟨id, h | ⟨hseen, rfl | hrest⟩, rfl⟩
        · by_cases hid : node.id = id
          · subst hid
            simp only [beq_self_eq_true, if_true] at h
            exact Or.inr ⟨_, Or.inr ⟨Or.inr rfl, List.count_pos_iff.mp (by omega)⟩, rfl⟩
          · simp only [beq_iff_eq, hid, if_false] at h
            exact Or.inr ⟨id, Or.inl (by omega), rfl⟩
        · exact Or.inl ⟨hseen, rfl⟩
        · exact Or.inr ⟨id, Or.inr ⟨Or.inl hseen, hrest⟩, rfl⟩

theorem mem_dependencyIssues : issue ∈ dependencyIssues plan ↔
    (∃ node ∈ plan.nodes, ∃ dependency ∈ node.dependsOn,
      dependency ∉ plan.nodes.map (·.id) ∧ issue = missingIssue node dependency) ∨
    ∃ edge ∈ plan.edges, (edge.source ∉ plan.nodes.map (·.id) ∨
      edge.target ∉ plan.nodes.map (·.id)) ∧ issue = missingEdgeIssue edge := by
  unfold dependencyIssues
  simp only [List.mem_append, List.mem_flatMap, List.mem_map, List.mem_filter, decide_eq_true_eq]
  refine or_congr ?_ ?_
  · constructor
    · rintro ⟨node, hnode, dependency, ⟨hdep, hmissing⟩, rfl⟩
      exact ⟨node, hnode, dependency, hdep, hmissing, rfl⟩
    · rintro ⟨node, hnode, dependency, hdep, hmissing, rfl⟩
      exact ⟨node, hnode, dependency, ⟨hdep, hmissing⟩, rfl⟩
  · constructor
    · rintro ⟨edge, ⟨hedge, hmissing⟩, rfl⟩
      exact ⟨edge, hedge, hmissing, rfl⟩
    · rintro ⟨edge, hedge, hmissing, rfl⟩
      exact ⟨edge, ⟨hedge, hmissing⟩, rfl⟩

theorem mem_graphIssues : issue ∈ graphIssues plan ↔
    (hasCycle plan.nodes = true ∧
      issue = planIssue .cycleDetected "Plan DAG contains a cycle." ["nodes"]) ∨
    ∃ node ∈ unreachableNodes plan.nodes, node.optional ≠ some true ∧
      issue = unreachableIssue node := by
  unfold graphIssues
  rw [List.mem_append]
  refine or_congr ?_ ?_
  · by_cases hcycle : hasCycle plan.nodes = true
    · rw [if_pos hcycle, List.mem_singleton]
      exact ⟨fun h => ⟨hcycle, h⟩, fun h => h.2⟩
    · rw [if_neg hcycle]
      exact ⟨fun h => (List.not_mem_nil h).elim, fun h => (hcycle h.1).elim⟩
  · simp only [List.mem_map, List.mem_filter, decide_eq_true_eq]
    constructor
    · rintro ⟨node, ⟨hnode, hopt⟩, rfl⟩
      exact ⟨node, hnode, hopt, rfl⟩
    · rintro ⟨node, hnode, hopt, rfl⟩
      exact ⟨node, ⟨hnode, hopt⟩, rfl⟩

/-! ### All checks together -/

/-- The codes of the issues about the graph of a plan. -/
def graphCodes : List PlanIssueCode :=
  [.duplicateNodeId, .missingDependency, .cycleDetected, .unreachableNode]

theorem planIssue_outside {code : PlanIssueCode} {message : String} {path : List String}
    (h : code ∉ graphCodes) : (planIssue code message path).code ∉ graphCodes := h

theorem capabilityIssues_code (h : issue ∈ capabilityIssues plan snapshot) :
    issue.code ∉ graphCodes := by
  cases snapshot with
  | none => cases h
  | some snapshot =>
      unfold capabilityIssues at h
      simp only [List.mem_flatMap, List.mem_map] at h
      obtain ⟨node, -, ref, -, rfl⟩ := h
      exact planIssue_outside (by decide)

theorem policyIssues_code {node : PlanNode} (h : issue ∈ policyIssues plan node) :
    issue.code ∉ graphCodes := by
  have hone : ∀ {condition : Prop} [Decidable condition] {issues : List PlanValidationIssue},
      (∀ i ∈ issues, i.code ∉ graphCodes) → issue ∈ (if condition then issues else []) →
        issue.code ∉ graphCodes := by
    intro condition _ issues hissues hmem
    split at hmem
    · exact hissues issue hmem
    · cases hmem
  have hsingle : ∀ {code : PlanIssueCode} {message : String} {path : List String},
      code ∉ graphCodes → ∀ i ∈ [planIssue code message path], i.code ∉ graphCodes := by
    intro code message path hcode i hi
    rw [List.mem_singleton.mp hi]
    exact planIssue_outside hcode
  unfold policyIssues at h
  simp only [List.mem_append] at h
  rcases h with ((((h | h) | h) | h) | h) | h
  · exact hone (hsingle (by decide)) h
  · exact hone (hsingle (by decide)) h
  · exact hone (hsingle (by decide)) h
  · exact hone (hsingle (by decide)) h
  · refine hone ?_ h
    intro i hi
    obtain ⟨commandId, -, rfl⟩ := List.mem_map.mp hi
    exact planIssue_outside (by decide)
  · exact hone (hsingle (by decide)) h

theorem nodeIdIssues_code (h : issue ∈ nodeIdIssues seen nodes) :
    issue.code = .invalidNodeId ∨ issue.code = .duplicateNodeId := by
  induction nodes generalizing seen with
  | nil => cases h
  | cons node rest ih =>
      rw [nodeIdIssues, List.mem_append, List.mem_append] at h
      rcases h with (h | h) | h
      · split at h
        · cases h
        · rw [List.mem_singleton.mp h]
          exact Or.inl rfl
      · split at h
        · rw [List.mem_singleton.mp h]
          exact Or.inr rfl
        · cases h
      · exact ih h

theorem dependencyIssues_code (h : issue ∈ dependencyIssues plan) :
    issue.code = .missingDependency := by
  rcases mem_dependencyIssues.mp h with ⟨_, _, _, _, _, rfl⟩ | ⟨_, _, _, rfl⟩
  · rfl
  · rfl

theorem graphIssues_code (h : issue ∈ graphIssues plan) :
    issue.code = .cycleDetected ∨ issue.code = .unreachableNode := by
  rcases mem_graphIssues.mp h with ⟨_, rfl⟩ | ⟨_, _, _, rfl⟩
  · exact Or.inl rfl
  · exact Or.inr rfl

/-- An issue about the graph comes from one of the first three checks. -/
theorem mem_issues_of_code (href : plan.refined P.isDatetime = true)
    (hcode : issue.code ∈ graphCodes) :
    issue ∈ (validatePlanfile P snapshot plan).issues ↔
      issue ∈ nodeIdIssues [] plan.nodes ∨ issue ∈ dependencyIssues plan ∨
        issue ∈ graphIssues plan := by
  unfold validatePlanfile
  rw [if_pos href]
  simp only [List.mem_append]
  constructor
  · rintro ((((h | h) | h) | h) | h)
    · exact Or.inl h
    · exact Or.inr (Or.inl h)
    · exact Or.inr (Or.inr h)
    · exact (capabilityIssues_code h hcode).elim
    · obtain ⟨node, -, h⟩ := List.mem_flatMap.mp h
      exact (policyIssues_code h hcode).elim
  · rintro (h | h | h)
    · exact Or.inl (Or.inl (Or.inl (Or.inl h)))
    · exact Or.inl (Or.inl (Or.inl (Or.inr h)))
    · exact Or.inl (Or.inl (Or.inr h))

/-- The checks about the graph report exactly this, for a relation that is searched for a cycle. -/
structure Planfile.Reported (plan : Planfile) (below : String → String → Prop)
    (issues : List PlanValidationIssue) : Prop where
  duplicates : ∀ issue, (issue ∈ issues ∧ issue.code = .duplicateNodeId) ↔
    ∃ id, 1 < (plan.nodes.map (·.id)).count id ∧ issue = duplicateIssue id
  missing : ∀ issue, (issue ∈ issues ∧ issue.code = .missingDependency) ↔
    (∃ node ∈ plan.nodes, ∃ dependency ∈ node.dependsOn,
      dependency ∉ plan.nodes.map (·.id) ∧ issue = missingIssue node dependency) ∨
    ∃ edge ∈ plan.edges, (edge.source ∉ plan.nodes.map (·.id) ∨
      edge.target ∉ plan.nodes.map (·.id)) ∧ issue = missingEdgeIssue edge
  cycle : (∃ issue ∈ issues, issue.code = .cycleDetected) ↔ Cyclic below
  unreachable : ∀ issue, (issue ∈ issues ∧ issue.code = .unreachableNode) ↔
    ∃ node ∈ unreachableNodes plan.nodes, node.optional ≠ some true ∧ issue = unreachableIssue node

theorem reported (href : plan.refined P.isDatetime = true) :
    plan.Reported plan.LastLists (validatePlanfile P snapshot plan).issues where
  duplicates issue := by
    have hids : (issue ∈ nodeIdIssues [] plan.nodes ∧ issue.code = .duplicateNodeId) ↔
        ∃ id, 1 < (plan.nodes.map (·.id)).count id ∧ issue = duplicateIssue id := by
      rw [mem_nodeIdIssues_duplicate]
      simp only [List.not_mem_nil, false_and, or_false]
    rw [← hids]
    refine and_congr_left fun hcode => ?_
    rw [mem_issues_of_code href (by rw [hcode]; decide)]
    refine ⟨?_, Or.inl⟩
    rintro (h | h | h)
    · exact h
    · rw [dependencyIssues_code h] at hcode
      cases hcode
    · rcases graphIssues_code h with h | h <;> rw [h] at hcode <;> cases hcode
  missing issue := by
    rw [← mem_dependencyIssues]
    constructor
    · rintro ⟨h, hcode⟩
      rcases (mem_issues_of_code href (by rw [hcode]; decide)).mp h with h | h | h
      · rcases nodeIdIssues_code h with h | h <;> rw [h] at hcode <;> cases hcode
      · exact h
      · rcases graphIssues_code h with h | h <;> rw [h] at hcode <;> cases hcode
    · intro h
      have hcode := dependencyIssues_code h
      exact ⟨(mem_issues_of_code href (by rw [hcode]; decide)).mpr (Or.inr (Or.inl h)), hcode⟩
  cycle := by
    rw [← hasCycle_iff.2]
    constructor
    · rintro ⟨issue, h, hcode⟩
      rcases (mem_issues_of_code href (by rw [hcode]; decide)).mp h with h | h | h
      · rcases nodeIdIssues_code h with h | h <;> rw [h] at hcode <;> cases hcode
      · rw [dependencyIssues_code h] at hcode
        cases hcode
      · rcases mem_graphIssues.mp h with ⟨hcycle, -⟩ | ⟨_, _, _, rfl⟩
        · exact hcycle
        · cases hcode
    · intro hcycle
      exact ⟨_, (mem_issues_of_code href (by decide)).mpr
        (Or.inr (Or.inr (mem_graphIssues.mpr (Or.inl ⟨hcycle, rfl⟩)))), rfl⟩
  unreachable issue := by
    constructor
    · rintro ⟨h, hcode⟩
      rcases (mem_issues_of_code href (by rw [hcode]; decide)).mp h with h | h | h
      · rcases nodeIdIssues_code h with h | h <;> rw [h] at hcode <;> cases hcode
      · rw [dependencyIssues_code h] at hcode
        cases hcode
      · rcases mem_graphIssues.mp h with ⟨-, rfl⟩ | h
        · cases hcode
        · exact h
    · rintro ⟨node, hnode, hopt, rfl⟩
      exact ⟨(mem_issues_of_code href (by simp [graphCodes, unreachableIssue, planIssue])).mpr
        (Or.inr (Or.inr (mem_graphIssues.mpr (Or.inr ⟨node, hnode, hopt, rfl⟩)))), rfl⟩

/-- What the reports leave out is what a plan has to satisfy. -/
theorem Planfile.Reported.sound {issues : List PlanValidationIssue}
    (h : plan.Reported plan.LastLists issues)
    (hnone : ∀ issue ∈ issues,
      issue.code ∉ [.duplicateNodeId, .missingDependency, .cycleDetected]) : plan.Sound := by
  have hnodup : (plan.nodes.map (·.id)).Nodup := by
    rw [List.nodup_iff_count_le_one]
    intro id
    by_contra hcount
    obtain ⟨hmem, -⟩ := (h.duplicates _).mpr ⟨id, by omega, rfl⟩
    exact hnone _ hmem (by simp [duplicateIssue, planIssue])
  have hdeps : ∀ node ∈ plan.nodes, ∀ d ∈ node.dependsOn, d ∈ plan.nodes.map (·.id) := by
    intro node hnode d hd
    by_contra hmissing
    obtain ⟨hmem, -⟩ := (h.missing _).mpr (Or.inl ⟨node, hnode, d, hd, hmissing, rfl⟩)
    exact hnone _ hmem (by simp [missingIssue, planIssue])
  have hcycle : ¬ hasCycle plan.nodes = true := by
    rw [hasCycle_iff.2, ← h.cycle]
    rintro ⟨issue, hmem, hcode⟩
    exact hnone issue hmem (by rw [hcode]; decide)
  exact ⟨hnodup, hdeps, acyclic_of_hasCycle hnodup (by simpa using hcycle)⟩

/-- **Validation is exact.**  A plan that passes the schema gets an issue for each id that is used
twice, for each dependency that names no node, for a cycle in what the last nodes of the ids list,
and for each unreachable node that is not optional.  The unreachable nodes are, of every id that
the start nodes do not lead to, the last node; without issues of the first three kinds the nodes
can be listed in the order of their dependencies; and both searches end. -/
theorem validation_exact (href : plan.refined P.isDatetime = true) :
    plan.Reported plan.LastLists (validatePlanfile P snapshot plan).issues ∧
    ((plan.nodes.map (·.id)).Nodup → plan.LastLists = plan.Lists) ∧
    (∀ node, node ∈ unreachableNodes plan.nodes ↔
      byId plan.nodes node.id = some node ∧ ¬ plan.Leads node.id) ∧
    ((∀ issue ∈ (validatePlanfile P snapshot plan).issues,
        issue.code ∉ [.duplicateNodeId, .missingDependency, .cycleDetected]) →
      ∃ order : List PlanNode, order.Perm plan.nodes ∧ FollowDependencies order) ∧
    (∃ found, cycleSearch plan.nodes (plan.nodes.length + 1) = some found) ∧
    ∃ reached, forwardSearch plan.nodes (forwardRounds plan.nodes) = some reached := by
  have hids : ∀ node ∈ plan.nodes, node.id ≠ "" := by
    intro node hnode hempty
    simp only [Planfile.refined, Bool.and_eq_true, List.all_eq_true] at href
    have hnode := href.1.1.1.1.1.1.1.1.1.2 node hnode
    simp only [PlanNode.refined, hempty, nonempty, Bool.and_eq_true] at hnode
    simp at hnode
  refine ⟨reported href, lists_of_nodup, fun node => mem_unreachableNodes hids, ?_,
    hasCycle_iff.1, (reachedIds_iff hids).1⟩
  intro hnone
  exact ((reported href).sound hnone).listing

/-- Two nodes of one id, and a cycle through the first of them. -/
def twiceNamed : Planfile :=
  samplePlan [sampleNode "first" .frame ["second"], sampleNode "first" .frame [],
    sampleNode "second" .frame ["first"]]

theorem twiceNamed_no_cycle_reported :
    twiceNamed.refined samplePlatform.isDatetime = true ∧ Cyclic twiceNamed.Lists ∧
      ¬ ∃ issue ∈ (validatePlanfile samplePlatform none twiceNamed).issues,
        issue.code = .cycleDetected := by
  refine ⟨by decide +kernel, ⟨"first", ?_⟩, by decide +kernel⟩
  exact .tail (.single ⟨_, List.mem_cons_of_mem _ (List.mem_cons_of_mem _ List.mem_cons_self), rfl,
      List.mem_cons_self, by decide⟩)
    ⟨_, List.mem_cons_self, rfl, List.mem_cons_self, by decide⟩

theorem sampleChain_validated :
    sampleChain.Reported sampleChain.LastLists
        (validatePlanfile samplePlatform none sampleChain).issues ∧
      ∃ order : List PlanNode, order.Perm sampleChain.nodes ∧ FollowDependencies order := by
  have hrefined : sampleChain.refined samplePlatform.isDatetime = true := by decide +kernel
  obtain ⟨hreported, -, -, hlisting, -⟩ := @validation_exact _ none _ hrefined
  exact ⟨hreported, hlisting (by decide +kernel)⟩

end OpenLagrange
