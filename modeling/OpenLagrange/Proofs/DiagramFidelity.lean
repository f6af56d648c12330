/-
What the drawing of a plan shows.

The text of the drawing is read back: each node of the plan is one declaration, and each edge that
is drawn one arrow, unless its reason holds a bar or a bracket.  So the drawing is faithful when
four things hold of the plan: its ids differ in more than hyphens, none of them is a word that the
reader keeps for itself, the edges it lists, if any, are its dependencies, and no reason holds a bar
or a bracket.  And it is not when one of them fails.
-/
import OpenLagrange.Lib.Flowchart
import OpenLagrange.Planning.PlanfileMarkdown
import OpenLagrange.Proofs.Runner

namespace OpenLagrange

variable {P : Platform} {snapshot : Option CapabilitySnapshot} {plan : Planfile}
  {reserved : List Char → Bool}

/-! ### What a plan that was accepted has -/

theorem issues_of_valid (h : (validatePlanfile P snapshot plan).ok = true) :
    nodeIdIssues [] plan.nodes = [] ∧ dependencyIssues plan = [] := by
  unfold validatePlanfile at h
  by_cases href : plan.refined P.isDatetime = true
  · rw [if_pos href] at h
    have hall : ∀ issue ∈ nodeIdIssues [] plan.nodes ++ dependencyIssues plan ++ graphIssues plan ++
        capabilityIssues plan snapshot ++ plan.nodes.flatMap (policyIssues plan),
        issue.severity ≠ .error := by
      intro issue hissue
      exact of_decide_eq_true (List.all_eq_true.mp h issue hissue)
    constructor
    · rw [List.eq_nil_iff_forall_not_mem]
      intro issue hissue
      exact hall issue (by simp [hissue]) (nodeIdIssues_severity issue hissue)
    · rw [List.eq_nil_iff_forall_not_mem]
      intro issue hissue
      exact hall issue (by simp [hissue]) (dependencyIssues_severity plan issue hissue)
  · rw [if_neg href] at h
    cases h

theorem safe_of_nodeIdIssues {nodes : List PlanNode} {seen : List String}
    (h : nodeIdIssues seen nodes = []) : ∀ node ∈ nodes, safeNodeId node.id = true := by
  induction nodes generalizing seen with
  | nil => exact fun node hnode => absurd hnode List.not_mem_nil
  | cons first rest ih =>
      unfold nodeIdIssues at h
      obtain ⟨hfirst, hrest⟩ := List.append_eq_nil_iff.mp h
      obtain ⟨hsafe, -⟩ := List.append_eq_nil_iff.mp hfirst
      intro node hnode
      rcases List.mem_cons.mp hnode with rfl | hnode
      · by_contra hunsafe
        rw [if_neg hunsafe] at hsafe
        cases hsafe
      · exact ih hrest node hnode

theorem edges_of_dependencyIssues (h : dependencyIssues plan = []) :
    ∀ edge ∈ plan.edges, edge.source ∈ plan.nodes.map (·.id) ∧
      edge.target ∈ plan.nodes.map (·.id) := by
  unfold dependencyIssues at h
  obtain ⟨-, hedges⟩ := List.append_eq_nil_iff.mp h
  intro edge hedge
  by_contra hmiss
  have hfilter : edge ∈ plan.edges.filter fun edge =>
      edge.source ∉ plan.nodes.map (·.id) ∨ edge.target ∉ plan.nodes.map (·.id) := by
    refine List.mem_filter.mpr ⟨hedge, decide_eq_true ?_⟩
    by_cases hsource : edge.source ∈ plan.nodes.map (·.id)
    · exact Or.inr fun htarget => hmiss ⟨hsource, htarget⟩
    · exact Or.inl hsource
  rw [List.map_eq_nil_iff.mp hedges] at hfilter
  exact List.not_mem_nil hfilter

/-- What the drawing relies on: safe ids that differ, and edges between nodes. -/
structure Drawn (plan : Planfile) : Prop where
  safe : ∀ node ∈ plan.nodes, safeNodeId node.id = true
  nodup : (plan.nodes.map (·.id)).Nodup
  deps : ∀ node ∈ plan.nodes, ∀ d ∈ node.dependsOn, d ∈ plan.nodes.map (·.id)
  edges : ∀ edge ∈ edgesFor plan.nodes plan.edges, edge.source ∈ plan.nodes.map (·.id) ∧
    edge.target ∈ plan.nodes.map (·.id)

theorem mem_edgesFor {nodes : List PlanNode} {edges : List PlanEdge} {edge : PlanEdge} :
    edge ∈ edgesFor nodes edges ↔ edge ∈ edges ∨ (edges = [] ∧ ∃ node ∈ nodes,
      ∃ dependency ∈ node.dependsOn, edge = ⟨dependency, node.id, "depends on"⟩) := by
  unfold edgesFor
  by_cases hnone : edges = []
  · rw [hnone, if_neg (by decide : ¬ ([] : List PlanEdge).length > 0)]
    constructor
    · intro hmem
      obtain ⟨node, hnode, hin⟩ := List.mem_flatMap.mp hmem
      obtain ⟨dependency, hdependency, rfl⟩ := List.mem_map.mp hin
      exact Or.inr ⟨rfl, node, hnode, dependency, hdependency, rfl⟩
    · rintro (hmem | ⟨-, node, hnode, dependency, hdependency, rfl⟩)
      · exact absurd hmem List.not_mem_nil
      · exact List.mem_flatMap.mpr ⟨node, hnode, List.mem_map.mpr ⟨dependency, hdependency, rfl⟩⟩
  · rw [if_pos (List.length_pos_iff.mpr hnone)]
    exact ⟨Or.inl, fun hor => hor.resolve_right fun hempty => hnone hempty.1⟩

theorem drawn_of_valid (h : (validatePlanfile P snapshot plan).ok = true) : Drawn plan := by
  obtain ⟨hids, hdeps⟩ := issues_of_valid h
  refine ⟨safe_of_nodeIdIssues hids, (nodup_of_nodeIdIssues hids).1,
    deps_of_dependencyIssues hdeps, ?_⟩
  intro edge hedge
  rcases mem_edgesFor.mp hedge with hmem | ⟨-, node, hnode, dependency, hdependency, rfl⟩
  · exact edges_of_dependencyIssues hdeps edge hmem
  · exact ⟨deps_of_dependencyIssues hdeps node hnode dependency hdependency,
      List.mem_map_of_mem hnode⟩

/-! ### Ids and labels as they are written -/

/-- An id with its hyphens written as underscores. -/
def withoutHyphens (id : String) : List Char := id.toList.map fun c => if c = '-' then '_' else c

theorem safeNodeId_chars {id : String} (h : safeNodeId id = true) :
    id.toList ≠ [] ∧ ∀ c ∈ id.toList, Flowchart.idChar c = true ∨ c = '-' := by
  have hlower : ∀ c : Char, 'a' ≤ c ∧ c ≤ 'z' → Flowchart.idChar c = true := by
    intro c hc
    have hletter : c.isLower = true := by
      simp only [Char.isLower, Bool.and_eq_true, decide_eq_true_eq]
      exact hc
    simp [Flowchart.idChar, Char.isAlphanum, Char.isAlpha, hletter]
  have hdigit : ∀ c : Char, '0' ≤ c ∧ c ≤ '9' → Flowchart.idChar c = true := by
    intro c hc
    have hnumber : c.isDigit = true := by
      simp only [Char.isDigit, Bool.and_eq_true, decide_eq_true_eq]
      exact hc
    simp [Flowchart.idChar, Char.isAlphanum, hnumber]
  unfold safeNodeId at h
  cases hid : id.toList with
  | nil =>
      rw [hid] at h
      cases h
  | cons first rest =>
      rw [hid] at h
      simp only [Bool.and_eq_true, decide_eq_true_eq, List.all_eq_true] at h
      obtain ⟨⟨hfirst, -⟩, hrest⟩ := h
      refine ⟨List.cons_ne_nil _ _, ?_⟩
      intro c hc
      rcases List.mem_cons.mp hc with rfl | hc
      · exact Or.inl (hlower c hfirst)
      · rcases hrest c hc with hc | hc | rfl | rfl
        · exact Or.inl (hlower c hc)
        · exact Or.inl (hdigit c hc)
        · exact Or.inl (by decide)
        · exact Or.inr rfl

theorem safeMermaidId_chars {id : String} (h : safeNodeId id = true) :
    (safeMermaidId id).toList = withoutHyphens id := by
  obtain ⟨-, hchars⟩ := safeNodeId_chars h
  unfold safeMermaidId withoutHyphens
  rw [String.toList_join, List.flatMap_map]
  generalize id.toList = text at hchars
  induction text with
  | nil => rfl
  | cons c text ih =>
      rw [List.flatMap_cons, List.map_cons, ih fun c hc => hchars c (List.mem_cons_of_mem _ hc)]
      rcases hchars c List.mem_cons_self with hc | rfl
      · have hword : c.isAlphanum ∨ c = '_' := by
          rw [Flowchart.idChar, Bool.or_eq_true, decide_eq_true_eq] at hc
          exact hc
        have hhyphen : c ≠ '-' := by
          rintro rfl
          exact absurd hc (by decide)
        have hsingle : c.toString.toList = [c] := String.toList_singleton c
        rw [if_pos hword, if_neg hhyphen, hsingle]
        rfl
      · rfl

theorem isWord_safeMermaidId {id : String} (h : safeNodeId id = true) :
    Flowchart.IsWord (safeMermaidId id).toList := by
  obtain ⟨hne, hchars⟩ := safeNodeId_chars h
  rw [safeMermaidId_chars h]
  refine ⟨?_, ?_⟩
  · intro hnil
    exact hne (List.map_eq_nil_iff.mp hnil)
  · intro c hc
    obtain ⟨c', hc', rfl⟩ := List.mem_map.mp hc
    split
    · decide
    · rename_i hhyphen
      exact (hchars c' hc').resolve_right hhyphen

def labelChar (c : Char) : List Char :=
  (if c = '\\' then "\\\\" else if c = '"' then "'" else if c = '\n' then " "
    else c.toString).toList

theorem escapeLabel_chars (value : String) :
    (escapeLabel value).toList = value.toList.flatMap labelChar := by
  unfold escapeLabel
  rw [String.toList_join, List.flatMap_map]
  rfl

/-- What is written for a character: neither a quote nor a line break, and the character itself
or one of three others. -/
theorem mem_labelChar {c d : Char} (h : d ∈ labelChar c) :
    d ≠ '"' ∧ d ≠ '\n' ∧ (d ∉ ['\\', '\x27', ' '] → d = c) := by
  unfold labelChar at h
  split at h
  · have hmem : d ∈ ['\\', '\\'] := h
    obtain rfl : d = '\\' := by simpa using hmem
    exact ⟨by decide, by decide, fun hother => absurd hother (by decide)⟩
  · split at h
    · obtain rfl : d = '\x27' := List.mem_singleton.mp h
      exact ⟨by decide, by decide, fun hother => absurd hother (by decide)⟩
    · rename_i hquote
      split at h
      · obtain rfl : d = ' ' := List.mem_singleton.mp h
        exact ⟨by decide, by decide, fun hother => absurd hother (by decide)⟩
      · rename_i hbreak
        have hsingle : c.toString.toList = [c] := String.toList_singleton c
        rw [hsingle] at h
        obtain rfl : d = c := List.mem_singleton.mp h
        exact ⟨hquote, hbreak, fun _ => rfl⟩

theorem mem_labelChar_self {c : Char} (h : c ∉ ['\\', '"', '\n']) : c ∈ labelChar c := by
  simp only [List.mem_cons, List.not_mem_nil, or_false, not_or] at h
  obtain ⟨hslash, hquote, hbreak⟩ := h
  have hsingle : c.toString.toList = [c] := String.toList_singleton c
  unfold labelChar
  rw [if_neg hslash, if_neg hquote, if_neg hbreak, hsingle]
  exact List.mem_singleton_self c

/-- A label holds no quotes and no line breaks. -/
theorem not_mem_escapeLabel (value : String) :
    '"' ∉ (escapeLabel value).toList ∧ '\n' ∉ (escapeLabel value).toList := by
  rw [escapeLabel_chars]
  constructor
  · intro hmem
    obtain ⟨c, -, hc⟩ := List.mem_flatMap.mp hmem
    exact (mem_labelChar hc).1 rfl
  · intro hmem
    obtain ⟨c, -, hc⟩ := List.mem_flatMap.mp hmem
    exact (mem_labelChar hc).2.1 rfl

/-- The characters that escaping has nothing to do with stand in a label where they do in the
text. -/
theorem mem_escapeLabel_iff {d : Char} (h : d ∉ ['\\', '\x27', ' ', '"', '\n']) (value : String) :
    d ∈ (escapeLabel value).toList ↔ d ∈ value.toList := by
  simp only [List.mem_cons, List.not_mem_nil, or_false, not_or] at h
  obtain ⟨hslash, happos, hblank, hquote, hbreak⟩ := h
  rw [escapeLabel_chars]
  constructor
  · intro hmem
    obtain ⟨c, hin, hc⟩ := List.mem_flatMap.mp hmem
    have hsame : d = c := (mem_labelChar hc).2.2 (by simp [hslash, happos, hblank])
    exact hsame ▸ hin
  · intro hmem
    exact List.mem_flatMap.mpr
      ⟨d, hmem, mem_labelChar_self (by simp [hslash, hquote, hbreak])⟩

theorem bar_mem_escapeLabel (value : String) :
    '|' ∈ (escapeLabel value).toList ↔ '|' ∈ value.toList :=
  mem_escapeLabel_iff (by decide) value

theorem any_bracket_escapeLabel (value : String) :
    (escapeLabel value).toList.any Flowchart.bracket = value.toList.any Flowchart.bracket := by
  have hsame : ∀ c, Flowchart.bracket c = true →
      (c ∈ (escapeLabel value).toList ↔ c ∈ value.toList) := by
    intro c hc
    refine mem_escapeLabel_iff ?_ value
    intro hmem
    simp only [List.mem_cons, List.not_mem_nil, or_false] at hmem
    rcases hmem with rfl | rfl | rfl | rfl | rfl
    all_goals exact absurd hc (by decide)
  rw [Bool.eq_iff_iff, List.any_eq_true, List.any_eq_true]
  constructor
  · rintro ⟨c, hmem, hc⟩
    exact ⟨c, (hsame c hc).mp hmem, hc⟩
  · rintro ⟨c, hmem, hc⟩
    exact ⟨c, (hsame c hc).mpr hmem, hc⟩

/-! ### The lines of the drawing -/

def nodeLine (node : PlanNode) : List Char :=
  ' ' :: ' ' :: ((safeMermaidId node.id).toList ++
    '[' :: '"' :: ((escapeLabel node.title).toList ++ ['"', ']']))

def edgeLine (edge : PlanEdge) : List Char :=
  if edge.reason = "" then
    ' ' :: ' ' :: ((safeMermaidId edge.source).toList ++
      ' ' :: '-' :: '-' :: '>' :: ' ' :: (safeMermaidId edge.target).toList)
  else
    ' ' :: ' ' :: ((safeMermaidId edge.source).toList ++ ' ' :: '-' :: '-' :: '>' :: '|' ::
      ((escapeLabel edge.reason).toList ++ '|' :: ' ' :: (safeMermaidId edge.target).toList))

def flowchart : List Char := "flowchart TD".toList

theorem render_chars (nodes : List PlanNode) (edges : List PlanEdge) :
    (renderPlanMermaid nodes edges).toList = ['\n'].intercalate
      (flowchart :: (nodes.map nodeLine ++ (edgesFor nodes edges).map edgeLine)) := by
  unfold renderPlanMermaid
  rw [String.toList_intercalate, List.map_cons, List.map_append, List.map_map, List.map_map]
  have hnodes : (String.toList ∘ fun node : PlanNode =>
      "  " ++ safeMermaidId node.id ++ "[\"" ++ escapeLabel node.title ++ "\"]") = nodeLine := by
    funext node
    simp [nodeLine]
  have hedges : (String.toList ∘ fun edge : PlanEdge =>
      "  " ++ safeMermaidId edge.source ++ " -->" ++
        (if edge.reason = "" then "" else "|" ++ escapeLabel edge.reason ++ "|") ++ " " ++
        safeMermaidId edge.target) = edgeLine := by
    funext edge
    unfold edgeLine
    by_cases hreason : edge.reason = ""
    · simp [hreason]
    · simp [hreason]
  rw [hnodes, hedges]
  rfl

/-! ### The drawing read back -/

def nodeStatement (node : PlanNode) : Flowchart.Diagram :=
  ⟨[⟨(safeMermaidId node.id).toList, some (escapeLabel node.title).toList⟩], []⟩

def edgeStatement (edge : PlanEdge) : Flowchart.Diagram :=
  ⟨[⟨(safeMermaidId edge.source).toList, none⟩, ⟨(safeMermaidId edge.target).toList, none⟩],
    [⟨(safeMermaidId edge.source).toList,
      if edge.reason = "" then none else some (escapeLabel edge.reason).toList,
      (safeMermaidId edge.target).toList⟩]⟩

/-- No id is written as a word that is reserved. -/
def FreeIds (reserved : List Char → Bool) (plan : Planfile) : Prop :=
  ∀ node ∈ plan.nodes, reserved (withoutHyphens node.id) = false

/-- What may stand between bars. -/
def PlainReason (text : String) : Prop :=
  '|' ∉ text.toList ∧ text.toList.any Flowchart.bracket = false

theorem Drawn.isId (h : Drawn plan) (hfree : FreeIds reserved plan) {id : String}
    (hid : id ∈ plan.nodes.map (·.id)) : Flowchart.IsId reserved (safeMermaidId id).toList := by
  obtain ⟨node, hnode, rfl⟩ := List.mem_map.mp hid
  refine ⟨isWord_safeMermaidId (h.safe node hnode), ?_⟩
  rw [safeMermaidId_chars (h.safe node hnode)]
  exact hfree node hnode

theorem readStatement_nodeLine (h : Drawn plan) (hfree : FreeIds reserved plan) {node : PlanNode}
    (hnode : node ∈ plan.nodes) :
    Flowchart.readStatement reserved (nodeLine node) = some (nodeStatement node) :=
  Flowchart.readStatement_declaration (h.isId hfree (List.mem_map_of_mem hnode))
    (not_mem_escapeLabel node.title).1

theorem readStatement_edgeLine (h : Drawn plan) (hfree : FreeIds reserved plan) {edge : PlanEdge}
    (hedge : edge ∈ edgesFor plan.nodes plan.edges) (hplain : PlainReason edge.reason) :
    Flowchart.readStatement reserved (edgeLine edge) = some (edgeStatement edge) := by
  have hsource := h.isId hfree (h.edges edge hedge).1
  have htarget := h.isId hfree (h.edges edge hedge).2
  unfold edgeLine edgeStatement
  by_cases hreason : edge.reason = ""
  · rw [if_pos hreason, if_pos hreason]
    exact Flowchart.readStatement_link hsource htarget
  · rw [if_neg hreason, if_neg hreason]
    refine Flowchart.readStatement_labelled hsource htarget ?_ ?_
    · intro hmem
      exact hplain.1 ((bar_mem_escapeLabel edge.reason).mp hmem)
    · rw [any_bracket_escapeLabel]
      exact hplain.2

/-- An edge whose reason is not plain is read as more than one arrow, or not at all. -/
theorem readStatement_markedLine (h : Drawn plan) (hfree : FreeIds reserved plan) {edge : PlanEdge}
    (hedge : edge ∈ edgesFor plan.nodes plan.edges) (hmarked : ¬ PlainReason edge.reason)
    {d : Flowchart.Diagram} (hread : Flowchart.readStatement reserved (edgeLine edge) = some d) :
    2 ≤ d.arrows.length := by
  have hsource := h.isId hfree (h.edges edge hedge).1
  have htarget := h.isId hfree (h.edges edge hedge).2
  have hreason : edge.reason ≠ "" := by
    intro hempty
    rw [hempty] at hmarked
    exact hmarked ⟨List.not_mem_nil, rfl⟩
  unfold edgeLine at hread
  rw [if_neg hreason] at hread
  by_cases hbar : '|' ∈ (escapeLabel edge.reason).toList
  · refine Flowchart.readStatement_barred hsource hbar ?_ hread
    intro hquote
    rcases List.mem_append.mp hquote with hlabel | hrest
    · exact (not_mem_escapeLabel edge.reason).1 hlabel
    · rcases List.mem_cons.mp hrest with hbad | hrest
      · exact absurd hbad (by decide)
      · rcases List.mem_cons.mp hrest with hbad | hid
        · exact absurd hbad (by decide)
        · exact absurd (htarget.word.2 '"' hid) (by decide)
  · have hbracket : (escapeLabel edge.reason).toList.any Flowchart.bracket = true := by
      rw [any_bracket_escapeLabel]
      by_contra hnone
      exact hmarked ⟨fun hmem => hbar ((bar_mem_escapeLabel edge.reason).mpr hmem),
        Bool.eq_false_iff.mpr hnone⟩
    rw [Flowchart.readStatement_bracketed hsource hbar hbracket] at hread
    cases hread

theorem lines_unbroken (h : Drawn plan) : ∀ line ∈ flowchart ::
    (plan.nodes.map nodeLine ++ (edgesFor plan.nodes plan.edges).map edgeLine), '\n' ∉ line := by
  have hbreak : ∀ node ∈ plan.nodes, '\n' ∉ (safeMermaidId node.id).toList := fun node hnode hmem =>
    absurd ((isWord_safeMermaidId (h.safe node hnode)).2 '\n' hmem) (by decide)
  have hend : ∀ id ∈ plan.nodes.map (·.id), '\n' ∉ (safeMermaidId id).toList := by
    intro id hid
    obtain ⟨node, hnode, rfl⟩ := List.mem_map.mp hid
    exact hbreak node hnode
  intro line hline
  rcases List.mem_cons.mp hline with rfl | hline
  · decide +kernel
  · rcases List.mem_append.mp hline with hnode | hedge
    · obtain ⟨node, hin, rfl⟩ := List.mem_map.mp hnode
      have hid := hbreak node hin
      have hlabel := (not_mem_escapeLabel node.title).2
      simp [nodeLine, hid, hlabel]
    · obtain ⟨edge, hin, rfl⟩ := List.mem_map.mp hedge
      have hsource := hend edge.source (h.edges edge hin).1
      have htarget := hend edge.target (h.edges edge hin).2
      have hlabel := (not_mem_escapeLabel edge.reason).2
      unfold edgeLine
      split
      · simp [hsource, htarget]
      · simp [hsource, htarget, hlabel]

theorem read_render (h : Drawn plan) :
    Flowchart.read reserved flowchart (renderPlanMermaid plan.nodes plan.edges).toList =
      Flowchart.readStatements reserved
        (plan.nodes.map nodeLine ++ (edgesFor plan.nodes plan.edges).map edgeLine) := by
  rw [render_chars]
  exact Flowchart.read_lines flowchart (lines_unbroken h)

/-- What is drawn where every reason is plain. -/
def drawing (plan : Planfile) : Flowchart.Diagram :=
  Flowchart.Diagram.append
    ⟨plan.nodes.flatMap fun node => (nodeStatement node).vertices,
      plan.nodes.flatMap fun node => (nodeStatement node).arrows⟩
    ⟨(edgesFor plan.nodes plan.edges).flatMap fun edge => (edgeStatement edge).vertices,
      (edgesFor plan.nodes plan.edges).flatMap fun edge => (edgeStatement edge).arrows⟩

theorem read_drawing (h : Drawn plan) (hfree : FreeIds reserved plan)
    (hplain : ∀ edge ∈ edgesFor plan.nodes plan.edges, PlainReason edge.reason) :
    Flowchart.read reserved flowchart (renderPlanMermaid plan.nodes plan.edges).toList =
      some (drawing plan) := by
  rw [read_render h]
  exact Flowchart.readStatements_append
    (Flowchart.readStatements_map fun node hnode => readStatement_nodeLine h hfree hnode)
    (Flowchart.readStatements_map fun edge hedge =>
      readStatement_edgeLine h hfree hedge (hplain edge hedge))

theorem drawing_declarations (plan : Planfile) : (drawing plan).declarations =
    plan.nodes.map fun node =>
      ((safeMermaidId node.id).toList, (escapeLabel node.title).toList) := by
  have hnodes : ∀ nodes : List PlanNode, (nodes.flatMap fun node =>
      (nodeStatement node).vertices).filterMap
        (fun vertex => vertex.text.map fun text => (vertex.id, text)) =
      nodes.map fun node =>
        ((safeMermaidId node.id).toList, (escapeLabel node.title).toList) := by
    intro nodes
    induction nodes with
    | nil => rfl
    | cons node rest ih =>
        rw [List.flatMap_cons, List.filterMap_append, ih]
        rfl
  have hedges : ∀ edges : List PlanEdge, (edges.flatMap fun edge =>
      (edgeStatement edge).vertices).filterMap
        (fun vertex => vertex.text.map fun text => (vertex.id, text)) = [] := by
    intro edges
    induction edges with
    | nil => rfl
    | cons edge rest ih =>
        rw [List.flatMap_cons, List.filterMap_append, ih]
        rfl
  unfold drawing Flowchart.Diagram.append Flowchart.Diagram.declarations
  rw [List.filterMap_append, hnodes, hedges, List.append_nil]

theorem drawing_arrows (plan : Planfile) :
    ((drawing plan).arrows.map fun arrow => (arrow.source, arrow.target)) =
      (edgesFor plan.nodes plan.edges).map fun edge =>
        ((safeMermaidId edge.source).toList, (safeMermaidId edge.target).toList) := by
  have hnodes : (plan.nodes.flatMap fun node => (nodeStatement node).arrows) = [] :=
    List.flatMap_eq_nil_iff.mpr fun _ _ => rfl
  have hedges : ∀ edges : List PlanEdge, ((edges.flatMap fun edge =>
      (edgeStatement edge).arrows).map fun arrow => (arrow.source, arrow.target)) =
      edges.map fun edge =>
        ((safeMermaidId edge.source).toList, (safeMermaidId edge.target).toList) := by
    intro edges
    induction edges with
    | nil => rfl
    | cons edge rest ih =>
        rw [List.flatMap_cons, List.map_append, ih]
        rfl
  unfold drawing Flowchart.Diagram.append
  rw [hnodes, List.nil_append, hedges]

/-! ### Faithful drawings -/

/-- A diagram shows a plan: a declaration for each node, under ids that differ, an arrow for each
edge that is drawn and no others, and from one node to another exactly when it is a dependency. -/
structure ShowsPlan (plan : Planfile) (d : Flowchart.Diagram) : Prop where
  declared : d.declarations = plan.nodes.map fun node =>
    ((safeMermaidId node.id).toList, (escapeLabel node.title).toList)
  apart : (plan.nodes.map fun node => (safeMermaidId node.id).toList).Nodup
  drawn : (d.arrows.map fun arrow => (arrow.source, arrow.target)) =
    (edgesFor plan.nodes plan.edges).map fun edge =>
      ((safeMermaidId edge.source).toList, (safeMermaidId edge.target).toList)
  depends : ∀ a ∈ plan.nodes, ∀ b ∈ plan.nodes,
    (∃ arrow ∈ d.arrows, arrow.source = (safeMermaidId a.id).toList ∧
      arrow.target = (safeMermaidId b.id).toList) ↔ a.id ∈ b.dependsOn

/-- The text of the drawing is read as a diagram that shows the plan. -/
def FaithfulDrawing (reserved : List Char → Bool) (plan : Planfile) : Prop :=
  ∃ d, Flowchart.read reserved flowchart (renderPlanMermaid plan.nodes plan.edges).toList = some d ∧
    ShowsPlan plan d

/-- What makes a drawing faithful. -/
structure Drawable (reserved : List Char → Bool) (plan : Planfile) : Prop where
  free : FreeIds reserved plan
  hyphens : (plan.nodes.map fun node => withoutHyphens node.id).Nodup
  edges : plan.edges = [] ∨ ∀ a b, (∃ edge ∈ plan.edges, edge.source = a ∧ edge.target = b) ↔
    ∃ node ∈ plan.nodes, node.id = b ∧ a ∈ node.dependsOn
  plain : ∀ edge ∈ plan.edges, PlainReason edge.reason

theorem map_withoutHyphens (h : Drawn plan) :
    (plan.nodes.map fun node => (safeMermaidId node.id).toList) =
      plan.nodes.map fun node => withoutHyphens node.id :=
  List.map_congr_left fun node hnode => safeMermaidId_chars (h.safe node hnode)

/-- Ids that differ as they are written are the ids of different nodes. -/
theorem eq_of_written
    (hapart : (plan.nodes.map fun node => (safeMermaidId node.id).toList).Nodup) {a b : String}
    (ha : a ∈ plan.nodes.map (·.id)) (hb : b ∈ plan.nodes.map (·.id))
    (heq : (safeMermaidId a).toList = (safeMermaidId b).toList) : a = b := by
  obtain ⟨node, hnode, rfl⟩ := List.mem_map.mp ha
  obtain ⟨node', hnode', rfl⟩ := List.mem_map.mp hb
  rw [List.inj_on_of_nodup_map hapart hnode hnode' heq]

/-- An edge that is drawn from one node to another. -/
theorem arrow_iff_edge (h : Drawn plan)
    (hapart : (plan.nodes.map fun node => (safeMermaidId node.id).toList).Nodup)
    {d : Flowchart.Diagram} (hdrawn : (d.arrows.map fun arrow => (arrow.source, arrow.target)) =
      (edgesFor plan.nodes plan.edges).map fun edge =>
        ((safeMermaidId edge.source).toList, (safeMermaidId edge.target).toList)) {a b : String}
    (ha : a ∈ plan.nodes.map (·.id)) (hb : b ∈ plan.nodes.map (·.id)) :
    (∃ arrow ∈ d.arrows, arrow.source = (safeMermaidId a).toList ∧
      arrow.target = (safeMermaidId b).toList) ↔
      ∃ edge ∈ edgesFor plan.nodes plan.edges, edge.source = a ∧ edge.target = b := by
  constructor
  · rintro ⟨arrow, harrow, hsource, htarget⟩
    have hmem : (arrow.source, arrow.target) ∈
        d.arrows.map fun arrow => (arrow.source, arrow.target) := List.mem_map_of_mem harrow
    rw [hdrawn] at hmem
    obtain ⟨edge, hedge, heq⟩ := List.mem_map.mp hmem
    obtain ⟨heq₁, heq₂⟩ := Prod.mk.inj heq
    exact ⟨edge, hedge, eq_of_written hapart (h.edges edge hedge).1 ha (heq₁.trans hsource),
      eq_of_written hapart (h.edges edge hedge).2 hb (heq₂.trans htarget)⟩
  · rintro ⟨edge, hedge, rfl, rfl⟩
    have hmem : ((safeMermaidId edge.source).toList, (safeMermaidId edge.target).toList) ∈
        (edgesFor plan.nodes plan.edges).map fun edge =>
          ((safeMermaidId edge.source).toList, (safeMermaidId edge.target).toList) :=
      List.mem_map.mpr ⟨edge, hedge, rfl⟩
    rw [← hdrawn] at hmem
    obtain ⟨arrow, harrow, heq⟩ := List.mem_map.mp hmem
    exact ⟨arrow, harrow, (Prod.mk.inj heq).1, (Prod.mk.inj heq).2⟩

/-- A node lists what the node of its id lists. -/
theorem listed_iff (h : Drawn plan) {a : String} {node : PlanNode} (hnode : node ∈ plan.nodes) :
    (∃ other ∈ plan.nodes, other.id = node.id ∧ a ∈ other.dependsOn) ↔ a ∈ node.dependsOn := by
  constructor
  · rintro ⟨other, hother, hid, hmem⟩
    rw [← List.inj_on_of_nodup_map h.nodup hother hnode hid]
    exact hmem
  · intro hmem
    exact ⟨node, hnode, rfl, hmem⟩

/-- The edges that are drawn are the dependencies, if the plan's own are, or there are none. -/
theorem edge_iff_listed
    (hedges : plan.edges = [] ∨ ∀ a b, (∃ edge ∈ plan.edges, edge.source = a ∧ edge.target = b) ↔
      ∃ node ∈ plan.nodes, node.id = b ∧ a ∈ node.dependsOn) (a b : String) :
    (∃ edge ∈ edgesFor plan.nodes plan.edges, edge.source = a ∧ edge.target = b) ↔
      ∃ node ∈ plan.nodes, node.id = b ∧ a ∈ node.dependsOn := by
  by_cases hnone : plan.edges = []
  · constructor
    · rintro ⟨edge, hedge, rfl, rfl⟩
      rcases mem_edgesFor.mp hedge with hmem | ⟨-, node, hnode, dependency, hdependency, rfl⟩
      · rw [hnone] at hmem
        exact absurd hmem List.not_mem_nil
      · exact ⟨node, hnode, rfl, hdependency⟩
    · rintro ⟨node, hnode, rfl, hmem⟩
      exact ⟨⟨a, node.id, "depends on"⟩,
        mem_edgesFor.mpr (Or.inr ⟨hnone, node, hnode, a, hmem, rfl⟩), rfl, rfl⟩
  · rw [← hedges.resolve_left hnone a b]
    have hsame : ∀ edge, edge ∈ edgesFor plan.nodes plan.edges ↔ edge ∈ plan.edges := fun edge =>
      mem_edgesFor.trans ⟨fun hor => hor.resolve_right fun hempty => hnone hempty.1, Or.inl⟩
    simp only [hsame]

theorem plain_edgesFor (h : ∀ edge ∈ plan.edges, PlainReason edge.reason) :
    ∀ edge ∈ edgesFor plan.nodes plan.edges, PlainReason edge.reason := by
  intro edge hedge
  rcases mem_edgesFor.mp hedge with hmem | ⟨-, node, -, dependency, -, rfl⟩
  · exact h edge hmem
  · show PlainReason "depends on"
    unfold PlainReason
    decide +kernel

theorem Drawable.faithful (hplan : Drawn plan) (h : Drawable reserved plan) :
    FaithfulDrawing reserved plan := by
  have hapart : (plan.nodes.map fun node => (safeMermaidId node.id).toList).Nodup := by
    rw [map_withoutHyphens hplan]
    exact h.hyphens
  refine ⟨drawing plan, read_drawing hplan h.free (plain_edgesFor h.plain),
    drawing_declarations plan, hapart, drawing_arrows plan, ?_⟩
  intro a ha b hb
  rw [arrow_iff_edge hplan hapart (drawing_arrows plan) (List.mem_map_of_mem ha)
    (List.mem_map_of_mem hb), edge_iff_listed h.edges, listed_iff hplan hb]

/-! ### What a faithful drawing needs -/

/-- No id is reserved where the drawing is read at all. -/
theorem free_of_read (h : Drawn plan) {d : Flowchart.Diagram}
    (hread : Flowchart.read reserved flowchart (renderPlanMermaid plan.nodes plan.edges).toList =
      some d) : FreeIds reserved plan := by
  intro node hnode
  by_contra hword
  rw [read_render h] at hread
  obtain ⟨d', hline⟩ := Flowchart.readStatement_of_mem hread
    (List.mem_append_left _ (List.mem_map_of_mem hnode))
  have hhead : ∀ c ∈ ('[' :: '"' :: ((escapeLabel node.title).toList ++ ['"', ']'])).head?,
      Flowchart.idChar c = false := by
    intro c hc
    obtain rfl : '[' = c := Option.some.inj hc
    decide
  have hreserved : reserved (safeMermaidId node.id).toList = true := by
    rw [safeMermaidId_chars (h.safe node hnode)]
    exact Bool.not_eq_false _ ▸ hword
  unfold nodeLine at hline
  rw [Flowchart.readStatement_reserved (isWord_safeMermaidId (h.safe node hnode)) hreserved
    hhead] at hline
  cases hline

/-- Every reason is plain where each edge is drawn as one arrow. -/
theorem plain_of_read (h : Drawn plan) {d : Flowchart.Diagram}
    (hread : Flowchart.read reserved flowchart (renderPlanMermaid plan.nodes plan.edges).toList =
      some d) (hlength : d.arrows.length = (edgesFor plan.nodes plan.edges).length) :
    ∀ edge ∈ edgesFor plan.nodes plan.edges, PlainReason edge.reason := by
  have hfree := free_of_read h hread
  rw [read_render h] at hread
  obtain ⟨d₁, d₂, hnodes, hedges, rfl⟩ := Flowchart.readStatements_split hread
  have htotal : (d₁.append d₂).arrows.length = d₁.arrows.length + d₂.arrows.length :=
    List.length_append
  have hone : ∀ edge ∈ edgesFor plan.nodes plan.edges, ∀ d,
      Flowchart.readStatement reserved (edgeLine edge) = some d → 1 ≤ d.arrows.length := by
    intro edge hedge d hd
    by_cases hplain : PlainReason edge.reason
    · rw [readStatement_edgeLine h hfree hedge hplain] at hd
      obtain rfl := Option.some.inj hd
      exact Nat.le_refl 1
    · exact Nat.le_of_succ_le (readStatement_markedLine h hfree hedge hplain hd)
  intro edge hedge
  by_contra hmarked
  have hmore := (Flowchart.length_arrows_lt hone hedges).2
    ⟨edge, hedge, fun d hd => readStatement_markedLine h hfree hedge hmarked hd⟩
  omega

theorem FaithfulDrawing.drawable (hplan : Drawn plan) (h : FaithfulDrawing reserved plan) :
    Drawable reserved plan := by
  obtain ⟨d, hread, hshows⟩ := h
  have hlength := congrArg List.length hshows.drawn
  rw [List.length_map, List.length_map] at hlength
  have hplain := plain_of_read hplan hread hlength
  refine ⟨free_of_read hplan hread, map_withoutHyphens hplan ▸ hshows.apart, ?_, ?_⟩
  · by_cases hnone : plan.edges = []
    · exact Or.inl hnone
    refine Or.inr ?_
    have hsame : ∀ edge, edge ∈ edgesFor plan.nodes plan.edges ↔ edge ∈ plan.edges := fun edge =>
      mem_edgesFor.trans ⟨fun hor => hor.resolve_right fun hempty => hnone hempty.1, Or.inl⟩
    intro a b
    constructor
    · rintro ⟨edge, hedge, rfl, rfl⟩
      obtain ⟨hsource, htarget⟩ := hplan.edges edge ((hsame edge).mpr hedge)
      obtain ⟨node, hnode, hid⟩ := List.mem_map.mp hsource
      obtain ⟨node', hnode', hid'⟩ := List.mem_map.mp htarget
      have harrow := (arrow_iff_edge hplan hshows.apart hshows.drawn hsource htarget).mpr
        ⟨edge, (hsame edge).mpr hedge, rfl, rfl⟩
      rw [← hid, ← hid'] at harrow
      refine ⟨node', hnode', hid', ?_⟩
      rw [← hid]
      exact (hshows.depends node hnode node' hnode').mp harrow
    · rintro ⟨node, hnode, rfl, hmem⟩
      obtain ⟨other, hother, rfl⟩ := List.mem_map.mp (hplan.deps node hnode a hmem)
      have harrow := (hshows.depends other hother node hnode).mpr hmem
      obtain ⟨edge, hedge, hsource, htarget⟩ := (arrow_iff_edge hplan hshows.apart hshows.drawn
        (List.mem_map_of_mem hother) (List.mem_map_of_mem hnode)).mp harrow
      exact ⟨edge, (hsame edge).mp hedge, hsource, htarget⟩
  · intro edge hedge
    exact hplain edge (mem_edgesFor.mpr (Or.inl hedge))

end OpenLagrange
