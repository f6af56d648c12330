/-
Reading back a page that was rendered from a Planfile.

A page is the prose before the block, the block, and the prose after it.  As long as the
prose before leaves no fence open and the YAML holds no fence, the block is found, and then
the plan is read back exactly if the prose holds no candidate of its own.

What a page is read as depends on its executable block alone: any prose around it that
leaves no fence open and holds no candidate gives the same result.
-/
import OpenLagrange.Planning.PlanfileMarkdown
import OpenLagrange.Proofs.Runner

namespace OpenLagrange

namespace PlanfileMarkdown

/-! ### Blanks -/

theorem trimEndChars_append {text blanks : List Char} (h : ∀ c ∈ blanks, jsSpace c = true) :
    trimEndChars (text ++ blanks) = trimEndChars text := by
  unfold trimEndChars
  rw [List.reverse_append, List.dropWhile_append_of_pos]
  intro c hc
  exact h c (List.mem_reverse.mp hc)

theorem trimChars_append {text blanks : List Char} (h : ∀ c ∈ blanks, jsSpace c = true) :
    trimChars (text ++ blanks) = trimChars text := by
  unfold trimChars trimStartChars
  rw [List.dropWhile_append]
  split
  · rename_i hempty
    have hnil : text.dropWhile jsSpace = [] := by simpa using hempty
    have hblanks : blanks.dropWhile jsSpace = [] := by
      rw [List.dropWhile_eq_nil_iff]
      exact h
    rw [hnil, hblanks]
  · exact trimEndChars_append h

/-- A text is what is left after trimming its end, and blanks. -/
theorem trimEndChars_eq (text : List Char) :
    ∃ blanks, text = trimEndChars text ++ blanks ∧ ∀ c ∈ blanks, jsSpace c = true := by
  refine ⟨(text.reverse.takeWhile jsSpace).reverse, ?_, ?_⟩
  · unfold trimEndChars
    rw [← List.reverse_append, List.takeWhile_append_dropWhile, List.reverse_reverse]
  · intro c hc
    exact List.mem_takeWhile_imp (List.mem_reverse.mp hc)

theorem trimChars_trimEnd (text : List Char) : trimChars (trimEndChars text) = trimChars text := by
  obtain ⟨blanks, htext, hblanks⟩ := trimEndChars_eq text
  conv_rhs => rw [htext, trimChars_append hblanks]

/-! ### The parts of a page -/

/-- A fenced block as it is written. -/
def blockText (block : List Char × List Char) : List Char :=
  Fences.mark ++ (block.1 ++ '\n' :: (block.2 ++ Fences.mark))

def proseBefore (plan : Planfile) : List Char := ("\n".intercalate (linesBefore plan) ++ "\n").toList

def proseAfter (plan : Planfile) (options : RenderPlanfileMarkdownOptions) : List Char :=
  ("\n" ++ "\n".intercalate (linesAfter plan options)).toList

/-- The executable block of a page. -/
def planBlock (yaml : PlanfileYaml) (plan : Planfile) : List Char × List Char :=
  ("yaml planfile".toList, trimEndChars (yaml.stringify plan).toList ++ ['\n'])

theorem intercalate_append {first second : List String} (hfirst : first ≠ []) (hsecond : second ≠ []) :
    "\n".intercalate (first ++ second) = "\n".intercalate first ++ "\n" ++ "\n".intercalate second := by
  induction first with
  | nil => exact absurd rfl hfirst
  | cons line rest ih =>
      cases rest with
      | nil =>
          cases second with
          | nil => exact absurd rfl hsecond
          | cons next others =>
              rw [List.cons_append, List.nil_append, String.intercalate_cons_cons,
                String.intercalate_singleton]
      | cons next others =>
          rw [List.cons_append, List.cons_append, String.intercalate_cons_cons,
            String.intercalate_cons_cons, ← List.cons_append, ih (List.cons_ne_nil _ _)]
          simp [String.append_assoc]

theorem renderPlanfileMarkdown_chars (yaml : PlanfileYaml) (plan : Planfile)
    (options : RenderPlanfileMarkdownOptions) :
    (renderPlanfileMarkdown yaml plan options).toList =
      proseBefore plan ++ (blockText (planBlock yaml plan) ++ proseAfter plan options) := by
  have hafter : linesAfter plan options ≠ [] := List.cons_ne_nil _ _
  have hbefore : linesBefore plan ≠ [] := List.cons_ne_nil _ _
  unfold renderPlanfileMarkdown
  rw [intercalate_append (List.append_ne_nil_of_left_ne_nil hbefore _) hafter,
    intercalate_append hbefore (List.cons_ne_nil _ _)]
  unfold proseBefore proseAfter blockText planBlock
  generalize "\n".intercalate (linesBefore plan) = before
  generalize "\n".intercalate (linesAfter plan options) = after
  have hopen : "```yaml planfile".toList = Fences.mark ++ "yaml planfile".toList := rfl
  have hclose : "```".toList = Fences.mark := rfl
  have hline : "\n".toList = ['\n'] := rfl
  simp only [String.intercalate_cons_cons, String.intercalate_singleton, String.toList_append,
    String.toList_ofList, hopen, hclose, hline, List.append_assoc, List.cons_append, List.nil_append]

/-! ### Candidates -/

def Found (text : List Char) : List (List Char × List Char) := (Fences.scan 0 text).filter isCandidate

theorem candidates_eq (text : List Char) : candidates (String.ofList text) = Found text := by
  unfold candidates Found
  rw [String.toList_ofList]

/-- **The candidates of a page are those of the prose before, the block, and those of the prose
after.** -/
theorem found_page {block : List Char × List Char} {before : List Char} (after : List Char)
    (hinfo : ∀ c ∈ block.1, Fences.lineChar c = true)
    (hbody : Fences.cut (block.2 ++ Fences.mark) = some (block.2, []))
    (hclosed : Fences.leftOpen 0 before = false) :
    Found (before ++ (blockText block ++ after)) =
      Found before ++ (if isCandidate block then [block] else []) ++ Found after := by
  have hblock : Fences.scan 0 (blockText block ++ after) = block :: Fences.scan 0 after := by
    have hfence := Fences.fenceAt_block hinfo hbody after
    have htext : blockText block ++ after =
        Fences.mark ++ (block.1 ++ '\n' :: (block.2 ++ (Fences.mark ++ after))) := by
      simp [blockText]
    rw [htext, Fences.scan_fence hfence]
  have hstart : Fences.mark <+: blockText block ++ after :=
    (List.prefix_append _ _).trans (List.prefix_append _ _)
  unfold Found
  rw [Fences.scan_append hclosed hstart, hblock, List.filter_append, List.filter_cons]
  split <;> simp

theorem parse_of_candidate (isDatetime : String → Bool) (yaml : PlanfileYaml) {markdown : String}
    {block : List Char × List Char} (h : candidates markdown = [block]) :
    parsePlanfileMarkdown isDatetime yaml markdown =
      parsePlanfileYaml isDatetime yaml (String.ofList (trimChars block.2)) := by
  unfold parsePlanfileMarkdown extractExecutableYaml
  rw [h]

theorem parse_of_none (isDatetime : String → Bool) (yaml : PlanfileYaml) {markdown : String}
    (h : candidates markdown = []) : parsePlanfileMarkdown isDatetime yaml markdown =
      .error "No executable Planfile YAML block found." := by
  unfold parsePlanfileMarkdown extractExecutableYaml
  rw [h]

/-- Prose that leaves no block open and holds no candidate. -/
def Harmless (text : List Char) : Prop := Fences.leftOpen 0 text = false ∧ Found text = []

theorem harmless_of_no_mark {text : List Char} (h : ¬ Fences.mark <:+: text) : Harmless text := by
  obtain ⟨hscan, hclosed⟩ := Fences.scan_of_no_mark h
  exact ⟨hclosed, by unfold Found; rw [hscan]; rfl⟩

/-- **The prose around the executable block does not matter.** -/
theorem parse_of_block (isDatetime : String → Bool) (yaml : PlanfileYaml) {markdown : String}
    {block : List Char × List Char} (h : candidates markdown = [block]) {before after : List Char}
    (hbefore : Harmless before) (hafter : Found after = []) :
    parsePlanfileMarkdown isDatetime yaml (String.ofList (before ++ (blockText block ++ after))) =
      parsePlanfileMarkdown isDatetime yaml markdown := by
  have hmem : block ∈ candidates markdown := h ▸ List.mem_singleton_self block
  obtain ⟨hscan, hcandidate⟩ := List.mem_filter.mp hmem
  obtain ⟨hinfo, hbody⟩ := Fences.block_of_scan hscan
  have hpage := found_page after hinfo hbody hbefore.1
  rw [hbefore.2, hafter, if_pos hcandidate] at hpage
  rw [parse_of_candidate isDatetime yaml h]
  exact parse_of_candidate isDatetime yaml ((candidates_eq _).trans hpage)

/-! ### The round trip -/

/-- What the YAML library writes for a plan names the schema and is read as that plan, also without
the blanks around it. -/
structure Undone (yaml : PlanfileYaml) (plan : Planfile) : Prop where
  marker : includesChars schemaMarker.toList (trimChars (yaml.stringify plan).toList) = true
  read : yaml.parse (String.ofList (trimChars (yaml.stringify plan).toList)) = .ok plan

/-- The executable block can be found: the prose before leaves no block open, and the YAML holds no
fence. -/
structure Intact (yaml : PlanfileYaml) (plan : Planfile) : Prop where
  closed : Fences.leftOpen 0 (proseBefore plan) = false
  unfenced : ¬ Fences.mark <:+: trimEndChars (yaml.stringify plan).toList

/-- No block of the prose is a candidate. -/
def Alone (plan : Planfile) (options : RenderPlanfileMarkdownOptions) : Prop :=
  Found (proseBefore plan) = [] ∧ Found (proseAfter plan options) = []

variable {isDatetime : String → Bool} {yaml : PlanfileYaml} {plan : Planfile}

theorem planBlock_body (hintact : Intact yaml plan) :
    Fences.cut ((planBlock yaml plan).2 ++ Fences.mark) = some ((planBlock yaml plan).2, []) := by
  have hcut := Fences.cut_line hintact.unfenced []
  rw [List.append_nil] at hcut
  unfold planBlock
  rw [List.append_assoc]
  exact hcut

theorem trimChars_planBlock : trimChars (planBlock yaml plan).2 =
    trimChars (yaml.stringify plan).toList := by
  have hblank : ∀ c ∈ ['\n'], jsSpace c = true := by
    intro c hc
    rw [List.mem_singleton.mp hc]
    rfl
  unfold planBlock
  rw [trimChars_append hblank, trimChars_trimEnd]

theorem planBlock_info : yamlInfo (planBlock yaml plan).1 = true := by
  show yamlInfo "yaml planfile".toList = true
  decide +kernel

theorem planBlock_candidate (hundone : Undone yaml plan) : isCandidate (planBlock yaml plan) = true := by
  unfold isCandidate
  rw [trimChars_planBlock, hundone.marker, planBlock_info]
  rfl

theorem candidates_render (hundone : Undone yaml plan) (hintact : Intact yaml plan)
    (options : RenderPlanfileMarkdownOptions) :
    candidates (renderPlanfileMarkdown yaml plan options) =
      Found (proseBefore plan) ++ [planBlock yaml plan] ++ Found (proseAfter plan options) := by
  have hinfo : ∀ c ∈ (planBlock yaml plan).1, Fences.lineChar c = true := by
    have hall : "yaml planfile".toList.all Fences.lineChar = true := by decide
    exact List.all_eq_true.mp hall
  have hpage := found_page (proseAfter plan options) hinfo (planBlock_body hintact)
    hintact.closed
  rw [if_pos (planBlock_candidate hundone)] at hpage
  rw [← hpage, ← candidates_eq, ← renderPlanfileMarkdown_chars, String.ofList_toList]

/-- **Where the block can be found, the plan is read back exactly if the prose holds no candidate.** -/
theorem roundTrip_iff (hrefined : plan.refined isDatetime = true) (hundone : Undone yaml plan)
    (hintact : Intact yaml plan) (options : RenderPlanfileMarkdownOptions) :
    parsePlanfileMarkdown isDatetime yaml (renderPlanfileMarkdown yaml plan options) = .ok plan ↔
      Alone plan options := by
  have hall := candidates_render hundone hintact options
  constructor
  · intro hparse
    by_contra hother
    have hlong : ∃ first second rest, candidates (renderPlanfileMarkdown yaml plan options) =
        first :: second :: rest := by
      rw [hall]
      cases hb : Found (proseBefore plan) with
      | cons first rest =>
          cases rest with
          | nil => exact ⟨_, _, _, rfl⟩
          | cons second rest => exact ⟨_, _, _, rfl⟩
      | nil =>
          cases ha : Found (proseAfter plan options) with
          | nil => exact absurd ⟨hb, ha⟩ hother
          | cons second rest => exact ⟨_, _, _, rfl⟩
    obtain ⟨first, second, rest, hlong⟩ := hlong
    unfold parsePlanfileMarkdown extractExecutableYaml at hparse
    rw [hlong] at hparse
    cases hparse
  · rintro ⟨hbefore, hafter⟩
    rw [hbefore, hafter] at hall
    rw [parse_of_candidate isDatetime yaml hall, trimChars_planBlock]
    unfold parsePlanfileYaml
    rw [hundone.read]
    exact if_pos hrefined

/-- **A page is read as the plan it was rendered from where its block can be found and is the only
candidate, and then whatever harmless prose stands around the block.** -/
theorem planfileMarkdown_roundTrip (isDatetime : String → Bool) (yaml : PlanfileYaml) :
    (∀ (plan : Planfile) (options : RenderPlanfileMarkdownOptions), plan.refined isDatetime = true →
      Undone yaml plan → Intact yaml plan →
      (parsePlanfileMarkdown isDatetime yaml (renderPlanfileMarkdown yaml plan options) = .ok plan ↔
        Alone plan options)) ∧
    (∀ (markdown : String) (block : List Char × List Char), candidates markdown = [block] →
      ∀ before after : List Char, Harmless before → Found after = [] →
        parsePlanfileMarkdown isDatetime yaml (String.ofList (before ++ (blockText block ++ after))) =
          parsePlanfileMarkdown isDatetime yaml markdown) ∧
    ∀ (markdown : String) (block : List Char × List Char), candidates markdown = [block] →
      ∀ before after : List Char, ¬ Fences.mark <:+: before → ¬ Fences.mark <:+: after →
        parsePlanfileMarkdown isDatetime yaml (String.ofList (before ++ (blockText block ++ after))) =
          parsePlanfileMarkdown isDatetime yaml markdown :=
  ⟨fun _ options hrefined hundone hintact => roundTrip_iff hrefined hundone hintact options,
    fun _ _ h _ _ hbefore hafter => parse_of_block isDatetime yaml h hbefore hafter,
    fun _ _ h _ _ hbefore hafter => parse_of_block isDatetime yaml h (harmless_of_no_mark hbefore)
      (harmless_of_no_mark hafter).2⟩

/-! ### A plan that is not read back -/

/-- The characters of lines joined by line feeds. -/
def lineChars : List String → List Char
  | [] => []
  | [line] => line.toList
  | line :: rest => line.toList ++ '\n' :: lineChars rest

theorem intercalate_chars (lines : List String) : ("\n".intercalate lines).toList = lineChars lines := by
  induction lines with
  | nil => rfl
  | cons line rest ih =>
      cases rest with
      | nil => simp [lineChars]
      | cons next others =>
          rw [String.intercalate_cons_cons, String.toList_append, String.toList_append, ih]
          simp [lineChars]

theorem proseBefore_chars (plan : Planfile) :
    proseBefore plan = lineChars (linesBefore plan) ++ ['\n'] := by
  unfold proseBefore
  rw [String.toList_append, intercalate_chars]
  rfl

theorem proseAfter_chars (plan : Planfile) (options : RenderPlanfileMarkdownOptions) :
    proseAfter plan options = '\n' :: lineChars (linesAfter plan options) := by
  unfold proseAfter
  rw [String.toList_append, intercalate_chars]
  rfl

def assumingPlan (assumption : String) : Planfile :=
  { samplePlan [] with goalFrame := { (samplePlan []).goalFrame with assumptions := [assumption] } }

def assumingLines (assumption : String) : List String :=
  ["schema_version: open-lagrange.plan.v1", "plan_id: plan", "goal_frame:", "  goal_id: goal",
    "  original_prompt: prompt", "  interpreted_goal: goal", "  acceptance_criteria: []",
    "  non_goals: []", "  assumptions:", "    - " ++ assumption, "  ambiguity:", "    level: low",
    "    questions: []", "    blocking: false", "  suggested_mode: dry_run", "  risk_notes: []",
    "  created_at: 2026-01-01T00:00:00Z", "mode: dry_run", "status: draft", "nodes: []", "edges: []",
    "approval_policy:", "  require_approval_for_risks: []", "verification_policy:",
    "  allowed_command_ids: []", "artifact_refs: []", "created_at: 2026-01-01T00:00:00Z",
    "updated_at: 2026-01-01T00:00:00Z", ""]

/-- The YAML library, as far as it is used on such a plan. -/
def assumingYaml (assumption : String) : PlanfileYaml where
  stringify _ := "\n".intercalate (assumingLines assumption)
  parse _ := .ok (assumingPlan assumption)
  refusal _ := "Invalid input"

theorem stringify_chars (assumption : String) (plan : Planfile) :
    ((assumingYaml assumption).stringify plan).toList = lineChars (assumingLines assumption) :=
  intercalate_chars (assumingLines assumption)

def noOptions : RenderPlanfileMarkdownOptions := ⟨none, none, none⟩

theorem assumingPlan_undone (assumption : String) (h : assumption = "It runs." ∨ assumption = "Run ```") :
    Undone (assumingYaml assumption) (assumingPlan assumption) := by
  refine ⟨?_, rfl⟩
  rw [stringify_chars]
  rcases h with rfl | rfl <;> decide +kernel

theorem assumingPlan_intact : Intact (assumingYaml "It runs.") (assumingPlan "It runs.") := by
  constructor
  · rw [proseBefore_chars]
    decide +kernel
  · rw [stringify_chars]
    decide +kernel

theorem assumingPlan_alone : Alone (assumingPlan "It runs.") noOptions := by
  constructor
  · rw [proseBefore_chars]
    decide +kernel
  · rw [proseAfter_chars]
    decide +kernel

/-- A plan in whose page only the executable block is fenced is read back, and so is its page with
other prose. -/
theorem assumingPlan_roundTrip :
    (parsePlanfileMarkdown (fun _ => true) (assumingYaml "It runs.")
      (renderPlanfileMarkdown (assumingYaml "It runs.") (assumingPlan "It runs.") noOptions) =
        .ok (assumingPlan "It runs.") ↔ Alone (assumingPlan "It runs.") noOptions) ∧
    (∀ before after : List Char, Harmless before → Found after = [] →
      parsePlanfileMarkdown (fun _ => true) (assumingYaml "It runs.") (String.ofList
        (before ++ (blockText (planBlock (assumingYaml "It runs.") (assumingPlan "It runs.")) ++ after))) =
      parsePlanfileMarkdown (fun _ => true) (assumingYaml "It runs.")
        (renderPlanfileMarkdown (assumingYaml "It runs.") (assumingPlan "It runs.") noOptions)) ∧
    parsePlanfileMarkdown (fun _ => true) (assumingYaml "It runs.") (String.ofList ([] ++
        (blockText (planBlock (assumingYaml "It runs.") (assumingPlan "It runs.")) ++ []))) =
      parsePlanfileMarkdown (fun _ => true) (assumingYaml "It runs.")
        (renderPlanfileMarkdown (assumingYaml "It runs.") (assumingPlan "It runs.") noOptions) := by
  have hundone := assumingPlan_undone "It runs." (Or.inl rfl)
  have hblock := candidates_render hundone assumingPlan_intact noOptions
  rw [assumingPlan_alone.1, assumingPlan_alone.2, List.nil_append, List.append_nil] at hblock
  have hrefined : (assumingPlan "It runs.").refined (fun _ => true) = true := by decide +kernel
  have hnomark : ¬ Fences.mark <:+: ([] : List Char) := by decide
  obtain ⟨hread, hprose, hplain⟩ :=
    planfileMarkdown_roundTrip (fun _ => true) (assumingYaml "It runs.")
  exact ⟨hread (assumingPlan "It runs.") noOptions hrefined hundone assumingPlan_intact,
    hprose _ _ hblock, hplain _ _ hblock [] [] hnomark hnomark⟩

/-- A plan with three backticks in an assumption is not read back: they open a block that the
drawing of the plan closes, and the executable block is taken for prose. -/
theorem fencedPlan_not_roundTrip :
    ¬ ∀ (isDatetime : String → Bool) (yaml : PlanfileYaml) (plan : Planfile)
      (options : RenderPlanfileMarkdownOptions), plan.refined isDatetime = true → Undone yaml plan →
        parsePlanfileMarkdown isDatetime yaml (renderPlanfileMarkdown yaml plan options) = .ok plan := by
  intro hall
  have hread := hall (fun _ => true) (assumingYaml "Run ```") (assumingPlan "Run ```") noOptions
    (by decide +kernel) (assumingPlan_undone "Run ```" (Or.inr rfl))
  have hnone : candidates (renderPlanfileMarkdown (assumingYaml "Run ```") (assumingPlan "Run ```")
      noOptions) = [] := by
    unfold candidates
    rw [renderPlanfileMarkdown_chars, proseBefore_chars, proseAfter_chars]
    have htrim : trimEndChars (lineChars (assumingLines "Run ```")) =
        lineChars ((assumingLines "Run ```").dropLast) := by decide +kernel
    unfold planBlock
    rw [stringify_chars, htrim]
    decide +kernel
  have herror := parse_of_none (fun _ => true) (assumingYaml "Run ```") hnone
  have hne : ∀ (p : Planfile) (message : String), (Except.ok p : Except String Planfile) ≠ .error message := by
    intro p message h
    cases h
  exact hne _ _ (hread.symm.trans herror)

end PlanfileMarkdown

end OpenLagrange
