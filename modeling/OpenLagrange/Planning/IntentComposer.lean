/-
From an intent to a Planfile.

A template lists nodes, and for each node an input in which `$parameters.<key>` and
`{{parameters.<key>}}` stand for what was taken from the prompt and the context.  The composer
replaces them and leaves everything else in the input as it is, references to the outputs of other
nodes included; those are for the runner.

The regular expressions of the source are written out on characters.  What the schema library says
about a Planfile it refuses belongs to the platform; it refuses the goal frame, which is checked
first, exactly where it refuses the Planfile for that frame.
-/
import OpenLagrange.Lib.Occurrence
import OpenLagrange.Planning.PlanRunner

namespace OpenLagrange

/-! ### Intents and templates -/

inductive IntentDomain where
  | repository | research | skill | pack | notes | files | generic
  deriving DecidableEq, Repr

def IntentDomain.text : IntentDomain → String
  | .repository => "repository"
  | .research => "research"
  | .skill => "skill"
  | .pack => "pack"
  | .notes => "notes"
  | .files => "files"
  | .generic => "generic"

inductive IntentAction where
  | createPlan | runWorkflow | createBrief | patchRepository | buildPack | summarize | schedule
  | unknown
  deriving DecidableEq, Repr

def IntentAction.text : IntentAction → String
  | .createPlan => "create_plan"
  | .runWorkflow => "run_workflow"
  | .createBrief => "create_brief"
  | .patchRepository => "patch_repository"
  | .buildPack => "build_pack"
  | .summarize => "summarize"
  | .schedule => "schedule"
  | .unknown => "unknown"

inductive IntentOutputKind where
  | markdownBrief | gitPatch | reviewReport | planfile | artifact | unknown
  deriving DecidableEq, Repr

def IntentOutputKind.text : IntentOutputKind → String
  | .markdownBrief => "markdown_brief"
  | .gitPatch => "git_patch"
  | .reviewReport => "review_report"
  | .planfile => "planfile"
  | .artifact => "artifact"
  | .unknown => "unknown"

inductive IntentOutputFormat where
  | markdown | json | patch | text
  deriving DecidableEq, Repr

def IntentOutputFormat.name : IntentOutputFormat → String
  | .markdown => "markdown"
  | .json => "json"
  | .patch => "patch"
  | .text => "text"

inductive IntentCadence where
  | manual | daily | weekly | cron
  deriving DecidableEq, Repr

def IntentCadence.text : IntentCadence → String
  | .manual => "manual"
  | .daily => "daily"
  | .weekly => "weekly"
  | .cron => "cron"

inductive SideEffectExpectation where
  | none | artifactWrite | workspaceWrite | externalWrite | unknown
  deriving DecidableEq, Repr

def SideEffectExpectation.text : SideEffectExpectation → String
  | .none => "none"
  | .artifactWrite => "artifact_write"
  | .workspaceWrite => "workspace_write"
  | .externalWrite => "external_write"
  | .unknown => "unknown"

structure OutputExpectation where
  kind : IntentOutputKind
  format : Option IntentOutputFormat

structure ScheduleIntent where
  requested : Bool
  cadence : Option IntentCadence
  timeOfDay : Option String
  timezone : Option String

structure IntentFrame where
  intentId : String
  originalPrompt : String
  interpretedGoal : String
  domain : IntentDomain
  action : IntentAction
  outputExpectation : Option OutputExpectation
  scheduleIntent : Option ScheduleIntent
  constraints : List String
  nonGoals : List String
  assumptions : List String
  ambiguityLevel : AmbiguityLevel
  ambiguityQuestions : List String
  ambiguityBlocking : Bool
  requiredCapabilityKinds : List String
  sideEffectExpectation : SideEffectExpectation
  riskLevel : RiskLevel

def OutputExpectation.toValue (e : OutputExpectation) : Value :=
  stripUndefined [("kind", some (.str e.kind.text)), ("format", e.format.map (.str ·.name))]

def ScheduleIntent.toValue (s : ScheduleIntent) : Value :=
  stripUndefined [("requested", some (.bool s.requested)), ("cadence", s.cadence.map (.str ·.text)),
    ("time_of_day", s.timeOfDay.map .str), ("timezone", s.timezone.map .str)]

def IntentFrame.toValue (i : IntentFrame) : Value :=
  stripUndefined
    [("intent_id", some (.str i.intentId)), ("original_prompt", some (.str i.originalPrompt)),
      ("interpreted_goal", some (.str i.interpretedGoal)), ("domain", some (.str i.domain.text)),
      ("action", some (.str i.action.text)),
      ("output_expectation", i.outputExpectation.map (·.toValue)),
      ("schedule_intent", i.scheduleIntent.map (·.toValue)),
      ("constraints", some (strings i.constraints)), ("non_goals", some (strings i.nonGoals)),
      ("assumptions", some (strings i.assumptions)),
      ("ambiguity", some (.obj [("level", .str i.ambiguityLevel.text),
        ("questions", strings i.ambiguityQuestions), ("blocking", .bool i.ambiguityBlocking)])),
      ("required_capability_kinds", some (strings i.requiredCapabilityKinds)),
      ("side_effect_expectation", some (.str i.sideEffectExpectation.text)),
      ("risk_level", some (.str i.riskLevel.text))]

structure TemplateNode where
  nodeId : String
  kind : PlanNodeKind
  title : String
  objective : String
  description : String
  dependsOn : List String
  capabilityRef : Option String
  expectedOutputs : List String
  input : Option Value
  optional : Option Bool

/-- A template, as far as a Planfile is made of it. -/
structure PlanTemplate where
  templateId : String
  packId : String
  nodesTemplate : List TemplateNode
  outputKind : String

structure CompositionContext where
  repoPath : Option String
  providerPreference : Option String

inductive CompositionMode where
  | dryRun | live
  deriving DecidableEq, Repr

structure ComposePlanfileInput where
  context : Option CompositionContext
  mode : CompositionMode

/-! ### The prompt -/

/-- The URL that `text` begins with, as `/https?:\/\/\S+/` matches it. -/
def urlAt (text : List Char) : Option (List Char) :=
  ["https://", "http://"].findSome? fun scheme =>
    (after scheme.toList text).bind fun rest =>
      match rest.takeWhile (!jsSpace ·) with
      | [] => none
      | tail => some (scheme.toList ++ tail)

def firstUrl : List Char → Option (List Char)
  | [] => none
  | c :: rest =>
      match urlAt (c :: rest) with
      | some url => some url
      | none => firstUrl rest

/-- The first URL, without the `)`, `,` and `.` it ends in. -/
def extractUrl (value : List Char) : Option (List Char) :=
  (firstUrl value).map fun url => (url.reverse.dropWhile fun c => c = ')' ∨ c = ',' ∨ c = '.').reverse

/-- What follows `word` in `text`, whatever the case of its letters. -/
def afterWord : List Char → List Char → Option (List Char)
  | [], text => some text
  | _ :: _, [] => none
  | c :: word, d :: text => if c = d.toLower then afterWord word text else none

/-- What follows these words, each with spaces after it. -/
def afterWords : List String → List Char → Option (List Char)
  | [], text => some text
  | word :: words, text =>
      match afterWord word.toList text with
      | some (c :: rest) => if jsSpace c then afterWords words (rest.dropWhile jsSpace) else none
      | _ => none

/-- `\w`. -/
def regexWord (c : Char) : Bool := c.isAlphanum || c = '_'

/-- The text without the phrase, wherever it stands between word boundaries.  `inWord` tells
whether the character before is one of a word; `skip` characters still belong to the phrase. -/
def removePhrase (phrase : List Char) : Bool → Nat → List Char → List Char
  | _, _, [] => []
  | _, skip + 1, c :: rest => removePhrase phrase (regexWord c) skip rest
  | inWord, 0, c :: rest =>
      match if inWord then none else afterWord phrase (c :: rest) with
      | some following =>
          if (following.head?.map regexWord).getD false then
            c :: removePhrase phrase (regexWord c) 0 rest
          else removePhrase phrase (regexWord c) (phrase.length - 1) rest
      | none => c :: removePhrase phrase (regexWord c) 0 rest

/-- `text.replace(/\s+/g, " ")`; `spaced` tells whether the character before is a space. -/
def collapseSpaces (spaced : Bool) : List Char → List Char
  | [] => []
  | c :: rest =>
      if jsSpace c then
        if spaced then collapseSpaces true rest else ' ' :: collapseSpaces true rest
      else c :: collapseSpaces false rest

def cleanTopic (prompt : List Char) (url : Option (List Char)) : List Char :=
  let withoutUrl := match url with
    | none => prompt
    | some url => match Occurrence.cutFirst url prompt with
      | some (before, rest) => before ++ rest
      | none => prompt
  let unstarted := [["research"], ["summarize"], ["make", "me", "a"], ["create", "a"]].foldl
    (fun text words => (afterWords words text).getD text) withoutUrl
  let unscheduled := removePhrase "daily".toList false 0
    (removePhrase "every morning".toList false 0 unstarted)
  match trimChars (collapseSpaces false unscheduled) with
  | [] => prompt
  | topic => topic

/-! ### Parameters -/

mutual

/-- The value with the undefined properties of its objects left out. -/
def Value.stripUndefined : Value → Value
  | .arr items => .arr (stripItems items)
  | .obj fields => .obj (stripFields fields)
  | .native name => if name = "__proto__" then .obj [] else .native name
  | .undefined => .undefined
  | .null => .null
  | .bool b => .bool b
  | .num text => .num text
  | .str s => .str s

def stripItems : List Value → List Value
  | [] => []
  | item :: rest => item.stripUndefined :: stripItems rest

def stripFields : List (String × Value) → List (String × Value)
  | [] => []
  | (_, .undefined) :: rest => stripFields rest
  | (key, item) :: rest => (key, item.stripUndefined) :: stripFields rest

end

def templateParameters (intent : IntentFrame) (template : PlanTemplate)
    (input : ComposePlanfileInput) : List (String × Value) :=
  let prompt := intent.originalPrompt.toList
  let url := (extractUrl prompt).map String.ofList
  let topic := String.ofList (cleanTopic prompt (extractUrl prompt))
  let given (text : Option String) : Value := (text.map .str).getD .undefined
  [("topic", .str topic), ("objective", .str intent.interpretedGoal),
    ("title", .str (if intent.outputExpectation.map (·.kind) = some .markdownBrief then
      "Research Brief: " ++ topic else intent.interpretedGoal)),
    ("url", given url), ("urls", .arr (url.toList.map .str)),
    ("provider_id", given (input.context.bind (·.providerPreference))), ("max_sources", .num "5"),
    ("brief_style", .str "standard"), ("repo_path", given (input.context.bind (·.repoPath))),
    ("template_id", .str template.templateId)]

/-- `/^\$parameters\.(.+)$/`. -/
def exactParameter (text : List Char) : Option String :=
  match after "$parameters.".toList text with
  | some (c :: key) => if (c :: key).any lineTerminator then none else some (String.ofList (c :: key))
  | _ => none

/-- The key in `{{parameters.<key>}}` that `text` begins with, and the length of it all. -/
def bracedParameter (text : List Char) : Option (String × Nat) :=
  match (after "\x7b\x7bparameters.".toList text).bind (upTo '\x7d') with
  | some (c :: key, '\x7d' :: rest) => some (String.ofList (c :: key), text.length - rest.length)
  | _ => none

/-- A piece of a text: a character that stays, or a parameter. -/
inductive ParameterPiece where
  | char (c : Char)
  | parameter (key : String)
  deriving DecidableEq, Repr

/-- The pieces from left to right; `skip` characters still belong to the last parameter. -/
def parameterPieces : Nat → List Char → List ParameterPiece
  | _, [] => []
  | skip + 1, _ :: rest => parameterPieces skip rest
  | 0, c :: rest =>
      match bracedParameter (c :: rest) with
      | some (key, length) => .parameter key :: parameterPieces (length - 1) rest
      | none => .char c :: parameterPieces 0 rest

/-- `String(parameters[key] ?? "")`. -/
def parameterText (parameters : List (String × Value)) (key : String) : List Char :=
  let value := Value.property parameters key
  if value.isNullish then [] else (jsText value).toList

def ParameterPiece.text (parameters : List (String × Value)) : ParameterPiece → List Char
  | .char c => [c]
  | .parameter key => parameterText parameters key

def resolveParameterString (parameters : List (String × Value)) (value : String) : Value :=
  match exactParameter value.toList with
  | some key => Value.property parameters key
  | none => .str (String.ofList ((parameterPieces 0 value.toList).flatMap (·.text parameters)))

mutual

def resolveParameters (parameters : List (String × Value)) : Value → Value
  | .str s => resolveParameterString parameters s
  | .arr items => .arr (resolveParameterItems parameters items)
  | .obj fields => .obj (resolveParameterFields parameters fields)
  | .native name => if name = "__proto__" then .obj [] else .native name
  | .undefined => .undefined
  | .null => .null
  | .bool b => .bool b
  | .num text => .num text

def resolveParameterItems (parameters : List (String × Value)) : List Value → List Value
  | [] => []
  | item :: rest => resolveParameters parameters item :: resolveParameterItems parameters rest

def resolveParameterFields (parameters : List (String × Value)) :
    List (String × Value) → List (String × Value)
  | [] => []
  | (key, item) :: rest =>
      (key, resolveParameters parameters item) :: resolveParameterFields parameters rest

end

/-! ### The Planfile -/

def riskForNode (node : TemplateNode) : RiskLevel :=
  match node.kind with
  | .patch => .write
  | .verify => .externalSideEffect
  | _ => .read

def planNodeFromTemplate (node : TemplateNode) (mode : CompositionMode) : PlanNode :=
  let risk := riskForNode node
  { id := node.nodeId
    kind := node.kind
    title := node.title
    objective := node.objective
    description := node.description
    dependsOn := node.dependsOn
    allowedCapabilityRefs := (node.capabilityRef.filter (· ≠ "")).toList
    executionMode := some (if mode = .live then .live else .dryRun)
    expectedOutputs := node.expectedOutputs
    acceptanceRefs := ["acceptance:1"]
    riskLevel := risk
    approvalRequired := risk = .write ∨ risk = .destructive ∨ risk = .externalSideEffect
    status := .pending
    artifacts := []
    errors := []
    optional := if node.optional = some true then some true else none
    verificationCommandIds := if node.kind = .verify then some ["npm_run_typecheck"] else none }

/-- `Object.fromEntries`: of entries with one key the last one stays, at the place of the first. -/
def fromEntries {α : Type} (entries : List (String × α)) : List (String × α) :=
  entries.foldl (fun fields entry =>
    if fields.any (·.1 = entry.1) then
      fields.map fun field => if field.1 = entry.1 then entry else field
    else fields ++ [entry]) []

/-- The template inputs of the nodes that have one. -/
def templateInputs (template : PlanTemplate) : List (String × Value) :=
  template.nodesTemplate.flatMap fun node =>
    match node.input with
    | none => []
    | some input => [(node.nodeId, input)]

/-- The configuration of the nodes, by node id. -/
def configuredNodes (parameters : List (String × Value)) (template : PlanTemplate) : Value :=
  (Value.obj (fromEntries ((templateInputs template).map fun entry =>
    (entry.1, .obj [("input", resolveParameters parameters entry.2)])))).stripUndefined

def planIdFor (sha256 : String → String) (intent : IntentFrame) (template : PlanTemplate) : String :=
  (if startsWith template.templateId "repository." then "repo_plan" else "plan") ++ "_" ++
    firstChars 18 (stableHash sha256 (.obj [("intent_id", .str intent.intentId),
      ("template_id", .str template.templateId)]))

/-- The prompt that the goal frame keeps: trimmed, with single spaces. -/
def normalizedPrompt (prompt : String) : String :=
  String.ofList (collapseSpaces false (trimChars prompt.toList))

/-- The parameters that a Planfile is composed with. -/
def compositionParameters (intent : IntentFrame) (template : PlanTemplate)
    (input : ComposePlanfileInput) : List (String × Value) :=
  stripFields (templateParameters intent template input)

def composedGoalFrame (intent : IntentFrame) (mode : CompositionMode) (now : String) : GoalFrame where
  goalId := intent.intentId
  originalPrompt := normalizedPrompt intent.originalPrompt
  interpretedGoal := intent.interpretedGoal
  acceptanceCriteria := ["The requested work is represented as validated typed plan nodes."]
  nonGoals := intent.nonGoals
  assumptions := intent.assumptions
  ambiguityLevel := intent.ambiguityLevel
  ambiguityQuestions := intent.ambiguityQuestions
  ambiguityBlocking := intent.ambiguityBlocking
  suggestedMode := if mode = .live then .applyWithApproval else .dryRun
  riskNotes := ["Intent risk level: " ++ intent.riskLevel.text ++ "."]
  createdAt := now

def composedContext (intent : IntentFrame) (template : PlanTemplate) (input : ComposePlanfileInput) :
    List (String × Value) :=
  let parameters := compositionParameters intent template input
  [("intent", intent.toValue),
    ("template", .obj [("template_id", .str template.templateId), ("pack_id", .str template.packId),
      ("output_kind", .str template.outputKind)]),
    ("parameters", .obj parameters)] ++
  (match intent.scheduleIntent with
    | some schedule => if schedule.requested then [("schedule_intent", schedule.toValue)] else []
    | none => []) ++
  (match input.context.bind (·.repoPath) with
    | some repoPath => if repoPath = "" then [] else
        [("repository", .obj [("repo_root", .str repoPath)])]
    | none => []) ++
  [("nodes", configuredNodes parameters template)]

/-- The Planfile before the schema library has looked at it. -/
def composedPlanfile (P : Platform) (intent : IntentFrame) (template : PlanTemplate)
    (input : ComposePlanfileInput) (now : String) : Planfile :=
  let nodes := template.nodesTemplate.map (planNodeFromTemplate · input.mode)
  { planId := planIdFor P.sha256 intent template
    goalFrame := composedGoalFrame intent input.mode now
    mode := if input.mode = .live then .apply else .dryRun
    status := .draft
    nodes
    edges := nodes.flatMap fun node => node.dependsOn.map (⟨·, node.id, "depends on"⟩)
    approvalPolicy := ⟨[.write, .destructive, .externalSideEffect], none, none⟩
    verificationPolicy := ⟨if template.templateId = "repository.plan_to_patch" then
      ["npm_run_typecheck"] else []⟩
    requirements := none
    executionContext := some (composedContext intent template input)
    lifecycle := none
    artifactRefs := []
    createdAt := now
    updatedAt := now
    canonicalPlanDigest := none }

def planfileFromTemplate (P : Platform) (intent : IntentFrame) (template : PlanTemplate)
    (input : ComposePlanfileInput) (now : String) : Except String Planfile :=
  let plan := composedPlanfile P intent template input now
  if plan.refined P.isDatetime then .ok plan
  else .error ("; ".intercalate ((P.schemaIssues plan).map (·.1)))

end OpenLagrange
