/-
Running verification commands.

The allowed commands whose ids were asked for are run one after the other.  A command is run by
listening to a child process: what it writes is gathered until it closes or its time is up, and
whichever comes first settles the result.  Texts are lists of UTF-16 code units here, since that
is what they are cut by.

A child that is not started is heard of in two ways, and neither is listened for: `spawn` throws,
or the child emits `error`, which ends the whole program.
-/
import OpenLagrange.Planning.Planfile

namespace OpenLagrange.Verification

/-! ### Commands and reports -/

/-- A command its schema has accepted. -/
structure VerificationCommand where
  commandId : String
  displayName : String
  executable : String
  args : List String
  timeoutMs : Nat
  outputLimitBytes : Nat
  id_nonempty : commandId ≠ ""
  name_nonempty : displayName ≠ ""
  executable_nonempty : executable ≠ ""
  timeout_bound : 1000 ≤ timeoutMs
  limit_bound : 1000 ≤ outputLimitBytes
  deriving DecidableEq, Repr

inductive CommandStatus where
  | passed | failed | timeout | skipped
  deriving DecidableEq, Repr

def CommandStatus.text : CommandStatus → String
  | .passed => "passed"
  | .failed => "failed"
  | .timeout => "timeout"
  | .skipped => "skipped"

structure CommandResult where
  commandId : String
  exitCode : Option Int
  status : CommandStatus
  stdoutPreview : List Nat
  stderrPreview : List Nat
  durationMs : Nat
  truncated : Bool
  rawArtifactId : String
  deriving DecidableEq, Repr

structure CommandFailure where
  commandId : String
  summary : String
  stderrPreview : List Nat
  deriving DecidableEq, Repr

structure VerificationReport where
  verificationReportId : String
  planId : String
  nodeId : String
  commandResults : List CommandResult
  passed : Bool
  failures : List CommandFailure
  artifactId : String
  createdAt : String
  deriving DecidableEq, Repr

/-! ### Children -/

inductive ChildEvent where
  | stdout (chunk : List UInt8)
  | stderr (chunk : List UInt8)
  | close (code : Option Int)
  deriving DecidableEq, Repr

/-- What becomes of `spawn`: it throws, the child cannot be started, or it runs, and some events
come before its time is up and some late. -/
inductive Child where
  | throws (message : String)
  | fails
  | runs (early late : List ChildEvent)
  deriving DecidableEq, Repr

structure VerificationPlatform where
  /-- `chunk.toString("utf8")`. -/
  decode : List UInt8 → List Nat
  /-- What becomes of the command that is run after so many others. -/
  spawn : Nat → VerificationCommand → Child
  /-- `Date.now()`, before and after that command. -/
  started : Nat → Int
  ended : Nat → Int
  isDateTime : String → Bool
  /-- The digests of `{ command, started }`, and of a plan, a node, results and a time. -/
  logHash : String → Int → String
  reportHash : String → String → List CommandResult → String → String

/-- How a call ends: it returns, it throws, or the program ends with it. -/
inductive CallEnd (α : Type) where
  | returned (value : α)
  | thrown (message : String)
  | crashed
  deriving DecidableEq, Repr

def CallEnd.map {α β : Type} (f : α → β) : CallEnd α → CallEnd β
  | .returned value => .returned (f value)
  | .thrown message => .thrown message
  | .crashed => .crashed

/-! ### One command -/

/-- `UNSAFE_TOKENS`. -/
def unsafeToken (token : String) : Bool :=
  token.toList.any fun c => ['|', ';', '&', '<', '>', '\x60', '$', '*', '?', '(', ')', '[', ']',
    '\x7b', '\x7d'].contains c

/-- `assertSafeCommand` does not throw. -/
def safeCommand (command : VerificationCommand) : Bool :=
  !(command.executable :: command.args).any unsafeToken

structure ChildResult where
  stdout : List Nat
  stderr : List Nat
  exitCode : Option Int
  timedOut : Bool
  deriving DecidableEq, Repr

/-- What the listeners share, and what the promise was resolved with. -/
structure Listening where
  stdout : List Nat
  stderr : List Nat
  finished : Bool
  resolved : Option ChildResult
  deriving DecidableEq, Repr

def Listening.start : Listening := ⟨[], [], false, none⟩

section

variable (P : VerificationPlatform)

def Listening.handle (state : Listening) : ChildEvent → Listening
  | .stdout chunk => { state with stdout := state.stdout ++ P.decode chunk }
  | .stderr chunk => { state with stderr := state.stderr ++ P.decode chunk }
  | .close code =>
      if state.finished then state
      else
        { state with
          finished := true
          resolved := some ⟨state.stdout, state.stderr, some (code.getD 1), false⟩ }

/-- The timer. -/
def Listening.expire (state : Listening) : Listening :=
  if state.finished then state
  else
    { state with
      finished := true
      resolved := some ⟨state.stdout, state.stderr, none, true⟩ }

/-- How many bytes of UTF-8 a unit takes by itself; half a surrogate pair takes three. -/
def unitBytes (unit : Nat) : Nat := if unit < 0x80 then 1 else if unit < 0x800 then 2 else 3

/-- `Buffer.byteLength(text, "utf8")`. -/
def byteLength : List Nat → Nat
  | [] => 0
  | [unit] => unitBytes unit
  | unit :: next :: rest =>
      if 0xD800 ≤ unit ∧ unit < 0xDC00 ∧ 0xDC00 ≤ next ∧ next < 0xE000 then 4 + byteLength rest
      else unitBytes unit + byteLength (next :: rest)

def truncate (value : List Nat) (limit : Nat) : List Nat × Bool :=
  if byteLength value ≤ limit then (value, false) else (value.take limit, true)

def statusOf (result : ChildResult) : CommandStatus :=
  if result.timedOut then .timeout else if result.exitCode = some 0 then .passed else .failed

/-- The result of a command, from what its child was settled with. -/
def commandResult (before : Nat) (command : VerificationCommand) (result : ChildResult) :
    CommandResult :=
  let stdout := truncate result.stdout command.outputLimitBytes
  let stderr := truncate result.stderr command.outputLimitBytes
  { commandId := command.commandId
    exitCode := result.exitCode
    status := statusOf result
    stdoutPreview := stdout.1
    stderrPreview := stderr.1
    durationMs := (max 0 (P.ended before - P.started before)).toNat
    truncated := stdout.2 || stderr.2
    rawArtifactId := "verification_log_" ++
      firstChars 18 (P.logHash command.commandId (P.started before)) }

/-- `runCommand(cwd, command)`, after so many commands before it.  The promise is resolved at the
latest when the time is up. -/
def runCommand (before : Nat) (command : VerificationCommand) : CallEnd CommandResult :=
  match P.spawn before command with
  | .throws message => .thrown message
  | .fails => .crashed
  | .runs early late =>
      let expired := (early.foldl (Listening.handle P) Listening.start).expire
      match (late.foldl (Listening.handle P) expired).resolved with
      | some result => .returned (commandResult P before command result)
      | none => .crashed

/-! ### All commands -/

/-- The commands that were run, and how the loop ended. -/
structure CommandLoop where
  ran : List VerificationCommand
  ended : CallEnd (List CommandResult)

def runCommands : Nat → List VerificationCommand → CommandLoop
  | _, [] => ⟨[], .returned []⟩
  | before, command :: rest =>
      if safeCommand command then
        match runCommand P before command with
        | .thrown message => ⟨[command], .thrown message⟩
        | .crashed => ⟨[command], .crashed⟩
        | .returned result =>
            let more := runCommands (before + 1) rest
            ⟨command :: more.ran, more.ended.map (result :: ·)⟩
      else ⟨[], .thrown "Verification command contains unsupported shell syntax."⟩

structure VerificationInput where
  planId : String
  nodeId : String
  commands : List VerificationCommand
  commandIds : List String
  now : String
  plan_nonempty : planId ≠ ""
  node_nonempty : nodeId ≠ ""
  now_datetime : P.isDateTime now = true

variable {P}

def selectedCommands (input : VerificationInput P) : List VerificationCommand :=
  input.commands.filter fun command => input.commandIds.contains command.commandId

def failureOf (result : CommandResult) : CommandFailure where
  commandId := result.commandId
  summary := result.commandId ++ " " ++ result.status.text
  stderrPreview := result.stderrPreview

/-- What is put through the schema of a report. -/
def reportDraft (input : VerificationInput P) (results : List CommandResult) :
    VerificationReport :=
  let artifactId := "verification_" ++
    firstChars 18 (P.reportHash input.planId input.nodeId results input.now)
  { verificationReportId := artifactId
    planId := input.planId
    nodeId := input.nodeId
    commandResults := results
    passed := decide (results.length > 0) && results.all (·.status = .passed)
    failures := (results.filter (·.status ≠ .passed)).map failureOf
    artifactId := artifactId
    createdAt := input.now }

def VerificationReport.accepted (P : VerificationPlatform) (report : VerificationReport) : Bool :=
  nonempty report.verificationReportId && nonempty report.planId && nonempty report.nodeId &&
    report.commandResults.all (fun result =>
      nonempty result.commandId && nonempty result.rawArtifactId) &&
    report.failures.all (fun failure => nonempty failure.commandId && nonempty failure.summary) &&
    nonempty report.artifactId && P.isDateTime report.createdAt

/-- The commands that were run, and how the call ended. -/
structure VerificationRun where
  ran : List VerificationCommand
  ended : CallEnd VerificationReport

def runVerificationPolicy (input : VerificationInput P) : VerificationRun :=
  let loop := runCommands P 0 (selectedCommands input)
  match loop.ended with
  | .thrown message => ⟨loop.ran, .thrown message⟩
  | .crashed => ⟨loop.ran, .crashed⟩
  | .returned results =>
      let report := reportDraft input results
      ⟨loop.ran, if report.accepted P then .returned report
        else .thrown "RepositoryVerificationReport"⟩

end

end OpenLagrange.Verification
