/-
What a verification report can be trusted in.

A report is read against what the children did.  It lists the commands that did not pass, and only
allowed commands that were asked for are run; this holds of every run.  Three things need more.
An id that names no allowed command leaves no trace, so a report may pass without it.  A child
that is not started ends the call, or the program, before there is a report.  And a preview is cut
by code units where the limit is one of bytes.
-/
import OpenLagrange.Repository.VerificationRunner

namespace OpenLagrange.Verification

variable {P : VerificationPlatform}

/-! ### What a child does -/

/-- The code a child closes with. -/
def closing (events : List ChildEvent) : Option (Option Int) :=
  events.findSome? fun
    | .close code => some code
    | _ => none

/-- What comes before a child closes. -/
def untilClose (events : List ChildEvent) : List ChildEvent :=
  events.takeWhile fun
    | .close _ => false
    | _ => true

def stdoutChunks (events : List ChildEvent) : List (List UInt8) :=
  events.filterMap fun
    | .stdout chunk => some chunk
    | _ => none

def stderrChunks (events : List ChildEvent) : List (List UInt8) :=
  events.filterMap fun
    | .stderr chunk => some chunk
    | _ => none

/-- The text that is gathered from chunks. -/
def gathered (P : VerificationPlatform) (chunks : List (List UInt8)) : List Nat :=
  chunks.flatMap P.decode

/-- What a command does in its time, when it is started. -/
def early (P : VerificationPlatform) (before : Nat) (command : VerificationCommand) :
    Option (List ChildEvent) :=
  match P.spawn before command with
  | .runs early _ => some early
  | _ => none

def starts (P : VerificationPlatform) (before : Nat) (command : VerificationCommand) : Bool :=
  (early P before command).isSome

/-- The command exits with code 0 within its time. -/
def passes (P : VerificationPlatform) (before : Nat) (command : VerificationCommand) : Bool :=
  (early P before command).any fun events => closing events = some (some 0)

/-- What a command has written when it is settled. -/
def written (P : VerificationPlatform) (before : Nat) (command : VerificationCommand) :
    List ChildEvent :=
  untilClose ((early P before command).getD [])

/-- What the promise of a child is resolved with. -/
def childResult (P : VerificationPlatform) (events : List ChildEvent) : ChildResult where
  stdout := gathered P (stdoutChunks (untilClose events))
  stderr := gathered P (stderrChunks (untilClose events))
  exitCode := (closing events).map (·.getD 1)
  timedOut := (closing events).isNone

theorem handle_finished {state : Listening} (h : state.finished = true)
    (events : List ChildEvent) :
    (events.foldl (Listening.handle P) state).finished = true ∧
      (events.foldl (Listening.handle P) state).resolved = state.resolved := by
  induction events generalizing state with
  | nil => exact ⟨h, rfl⟩
  | cons event events ih =>
      rw [List.foldl_cons]
      have hstep : (state.handle P event).finished = true ∧
          (state.handle P event).resolved = state.resolved := by
        cases event with
        | stdout chunk => exact ⟨h, rfl⟩
        | stderr chunk => exact ⟨h, rfl⟩
        | close code =>
            have hclosed : state.handle P (.close code) = state := if_pos h
            rw [hclosed]
            exact ⟨h, rfl⟩
      obtain ⟨hfinished, hresolved⟩ := ih hstep.1
      exact ⟨hfinished, hresolved.trans hstep.2⟩

/-- The first of the closing and the timer settles a child; what comes later changes nothing. -/
theorem listening_resolved {state : Listening} (hstate : state.finished = false)
    (events : List ChildEvent) :
    (events.foldl (Listening.handle P) state).expire.finished = true ∧
    (events.foldl (Listening.handle P) state).expire.resolved =
      some ⟨state.stdout ++ gathered P (stdoutChunks (untilClose events)),
        state.stderr ++ gathered P (stderrChunks (untilClose events)),
        (closing events).map (·.getD 1), (closing events).isNone⟩ := by
  induction events generalizing state with
  | nil =>
      unfold Listening.expire
      simp [hstate, gathered, stdoutChunks, stderrChunks, untilClose, closing]
  | cons event events ih =>
      rw [List.foldl_cons]
      cases event with
      | stdout chunk =>
          obtain ⟨hfinished, hresolved⟩ := @ih (state.handle P (.stdout chunk)) hstate
          refine ⟨hfinished, hresolved.trans ?_⟩
          simp [Listening.handle, gathered, stdoutChunks, stderrChunks, untilClose, closing]
      | stderr chunk =>
          obtain ⟨hfinished, hresolved⟩ := @ih (state.handle P (.stderr chunk)) hstate
          refine ⟨hfinished, hresolved.trans ?_⟩
          simp [Listening.handle, gathered, stdoutChunks, stderrChunks, untilClose, closing]
      | close code =>
          have hclosed : (state.handle P (.close code)).finished = true := by
            unfold Listening.handle
            simp [hstate]
          obtain ⟨hfinished, hresolved⟩ := handle_finished hclosed events
          unfold Listening.expire
          rw [if_pos hfinished]
          refine ⟨hfinished, hresolved.trans ?_⟩
          unfold Listening.handle
          simp [hstate, gathered, stdoutChunks, stderrChunks, untilClose, closing]

/-- The result of a command that is started. -/
def resultAt (P : VerificationPlatform) (before : Nat) (command : VerificationCommand) :
    CommandResult :=
  commandResult P before command (childResult P ((early P before command).getD []))

theorem runCommand_starts {before : Nat} {command : VerificationCommand}
    (h : starts P before command = true) :
    runCommand P before command = .returned (resultAt P before command) := by
  unfold starts early at h
  unfold runCommand resultAt early
  cases hspawn : P.spawn before command with
  | throws message =>
      rw [hspawn] at h
      cases h
  | fails =>
      rw [hspawn] at h
      cases h
  | runs early late =>
      obtain ⟨hfinished, hresolved⟩ := @listening_resolved P .start rfl early
      have hlate := (handle_finished (P := P) hfinished late).2
      simp only
      rw [hlate, hresolved]
      rfl

theorem runCommand_fails {before : Nat} {command : VerificationCommand}
    (h : starts P before command = false) :
    (∃ message, runCommand P before command = .thrown message) ∨
      runCommand P before command = .crashed := by
  unfold starts early at h
  unfold runCommand
  cases hspawn : P.spawn before command with
  | throws message => exact Or.inl ⟨message, rfl⟩
  | fails => exact Or.inr rfl
  | runs early late =>
      rw [hspawn] at h
      cases h

theorem resultAt_passed_iff {before : Nat} {command : VerificationCommand} :
    (resultAt P before command).status = .passed ↔ passes P before command = true := by
  unfold resultAt commandResult passes childResult statusOf
  simp only
  cases early P before command with
  | none => simp [closing]
  | some events =>
      rw [Option.getD_some, Option.any_some, decide_eq_true_iff]
      cases closing events with
      | none => simp
      | some code =>
          cases code with
          | none => simp
          | some n => simp

/-! ### The loop -/

/-- The commands before the first that is refused. -/
def reached (commands : List VerificationCommand) : List VerificationCommand :=
  commands.takeWhile safeCommand

theorem ran_reached (before : Nat) (commands : List VerificationCommand) :
    (runCommands P before commands).ran <+: reached commands := by
  induction commands generalizing before with
  | nil => exact List.prefix_refl _
  | cons command rest ih =>
      unfold runCommands reached
      cases hsafe : safeCommand command with
      | false =>
          rw [List.takeWhile_cons_of_neg (by simp [hsafe])]
          exact List.prefix_refl _
      | true =>
          rw [List.takeWhile_cons_of_pos hsafe]
          simp only [if_true]
          cases runCommand P before command with
          | thrown message => exact List.prefix_cons_inj command |>.mpr (List.nil_prefix)
          | crashed => exact List.prefix_cons_inj command |>.mpr (List.nil_prefix)
          | returned result => exact List.prefix_cons_inj command |>.mpr (ih (before + 1))

/-- A command that is reached is started. -/
def AllStart (P : VerificationPlatform) (before : Nat) (commands : List VerificationCommand) :
    Prop :=
  ∀ k command, (reached commands)[k]? = some command → starts P (before + k) command = true

theorem allStart_cons {before : Nat} {command : VerificationCommand}
    {rest : List VerificationCommand} (hsafe : safeCommand command = true) :
    AllStart P before (command :: rest) ↔
      starts P before command = true ∧ AllStart P (before + 1) rest := by
  have hreached : reached (command :: rest) = command :: reached rest :=
    List.takeWhile_cons_of_pos hsafe
  unfold AllStart
  rw [hreached]
  constructor
  · intro h
    refine ⟨h 0 command rfl, fun k other hk => ?_⟩
    have hnext := h (k + 1) other hk
    rwa [← Nat.add_assoc, Nat.add_right_comm] at hnext
  · rintro ⟨hfirst, hrest⟩ k other hk
    cases k with
    | zero =>
        cases hk
        exact hfirst
    | succ k =>
        rw [← Nat.add_assoc, Nat.add_right_comm]
        exact hrest k other hk

/-- The results of commands that are started. -/
def resultsFrom (P : VerificationPlatform) (before : Nat) (commands : List VerificationCommand) :
    List CommandResult :=
  (commands.zipIdx before).map fun entry => resultAt P entry.2 entry.1

/-- Where every command that is reached is started, all of these are run, and the loop returns
unless one is refused. -/
theorem runCommands_start {before : Nat} {commands : List VerificationCommand}
    (h : AllStart P before commands) :
    (runCommands P before commands).ran = reached commands ∧
    (commands.all safeCommand = true → (runCommands P before commands).ended =
      .returned (resultsFrom P before commands)) ∧
    (commands.all safeCommand = false → (runCommands P before commands).ended =
      .thrown "Verification command contains unsupported shell syntax.") := by
  induction commands generalizing before with
  | nil => exact ⟨rfl, fun _ => rfl, fun h => by cases h⟩
  | cons command rest ih =>
      cases hsafe : safeCommand command with
      | false =>
          unfold runCommands reached
          rw [List.takeWhile_cons_of_neg (by simp [hsafe])]
          simp [hsafe]
      | true =>
          obtain ⟨hfirst, hrest⟩ := (allStart_cons hsafe).mp h
          obtain ⟨hran, hreturned, hthrown⟩ := ih hrest
          have hreached : reached (command :: rest) = command :: reached rest :=
            List.takeWhile_cons_of_pos hsafe
          unfold runCommands
          simp only [if_pos hsafe, runCommand_starts hfirst]
          refine ⟨?_, ?_, ?_⟩
          · rw [hreached, hran]
          · intro hall
            rw [List.all_cons, hsafe, Bool.true_and] at hall
            rw [hreturned hall]
            rfl
          · intro hall
            rw [List.all_cons, hsafe, Bool.true_and] at hall
            rw [hthrown hall]
            rfl

/-- Where a command that is reached is not started, the loop ends with it and returns nothing. -/
theorem runCommands_stuck {before : Nat} {commands : List VerificationCommand}
    (h : ¬ AllStart P before commands) :
    (∃ k command, (runCommands P before commands).ran[k]? = some command ∧
      starts P (before + k) command = false) ∧
    ∀ results, (runCommands P before commands).ended ≠ .returned results := by
  induction commands generalizing before with
  | nil => exact (h fun k command hk => by cases hk).elim
  | cons command rest ih =>
      cases hsafe : safeCommand command with
      | false =>
          refine (h fun k other hk => ?_).elim
          unfold reached at hk
          rw [List.takeWhile_cons_of_neg (by simp [hsafe])] at hk
          cases hk
      | true =>
          rw [allStart_cons hsafe] at h
          unfold runCommands
          simp only [if_pos hsafe]
          cases hfirst : starts P before command with
          | false =>
              rcases runCommand_fails hfirst with ⟨message, hrun⟩ | hrun
              · rw [hrun]
                exact ⟨⟨0, command, rfl, hfirst⟩, fun _ heq => by cases heq⟩
              · rw [hrun]
                exact ⟨⟨0, command, rfl, hfirst⟩, fun _ heq => by cases heq⟩
          | true =>
              obtain ⟨⟨k, other, hk, hstarts⟩, hended⟩ := ih fun hrest => h ⟨hfirst, hrest⟩
              rw [runCommand_starts hfirst]
              refine ⟨⟨k + 1, other, hk, ?_⟩, ?_⟩
              · rwa [← Nat.add_assoc, Nat.add_right_comm]
              · intro results heq
                cases hrest : (runCommands P (before + 1) rest).ended with
                | returned values => exact hended values hrest
                | thrown message =>
                    simp only [hrest] at heq
                    cases heq
                | crashed =>
                    simp only [hrest] at heq
                    cases heq

/-! ### Previews -/

theorem unitBytes_pos (unit : Nat) : 1 ≤ unitBytes unit := by
  unfold unitBytes
  split
  · exact Nat.le_refl 1
  · split <;> omega

theorem unitBytes_eq_one_iff {unit : Nat} : unitBytes unit = 1 ↔ unit < 0x80 := by
  unfold unitBytes
  split
  · rename_i hascii
    exact iff_of_true rfl hascii
  · rename_i hascii
    refine iff_of_false ?_ hascii
    split <;> omega

theorem length_le_byteLength (text : List Nat) : text.length ≤ byteLength text := by
  induction text using byteLength.induct with
  | case1 => exact Nat.le_refl 0
  | case2 unit => exact unitBytes_pos unit
  | case3 unit next rest hpair ih =>
      unfold byteLength
      rw [if_pos hpair, List.length_cons, List.length_cons]
      omega
  | case4 unit next rest hpair ih =>
      have hunit := unitBytes_pos unit
      unfold byteLength
      rw [if_neg hpair, List.length_cons]
      omega

/-- A text takes as many bytes as units exactly if it is all ASCII. -/
theorem byteLength_eq_iff (text : List Nat) :
    byteLength text = text.length ↔ ∀ unit ∈ text, unit < 0x80 := by
  induction text using byteLength.induct with
  | case1 => simp [byteLength]
  | case2 unit =>
      rw [List.forall_mem_singleton]
      exact unitBytes_eq_one_iff
  | case3 unit next rest hpair ih =>
      have hrest := length_le_byteLength rest
      unfold byteLength
      rw [if_pos hpair, List.length_cons, List.length_cons, List.forall_mem_cons]
      exact iff_of_false (by omega) fun h => by omega
  | case4 unit next rest hpair ih =>
      have hunit := unitBytes_pos unit
      have hrest := length_le_byteLength (next :: rest)
      unfold byteLength
      rw [if_neg hpair, List.length_cons, List.forall_mem_cons, ← ih, ← unitBytes_eq_one_iff]
      constructor
      · intro h
        exact ⟨by omega, by omega⟩
      · rintro ⟨hone, hall⟩
        omega

/-- A text within the limit, or one whose units before the limit are all ASCII. -/
def Fits (limit : Nat) (text : List Nat) : Prop :=
  byteLength text ≤ limit ∨ (limit ≤ text.length ∧ ∀ unit ∈ text.take limit, unit < 0x80)

/-- A preview is always what comes before the limit in units. -/
theorem truncate_text (text : List Nat) (limit : Nat) : (truncate text limit).1 = text.take limit := by
  unfold truncate
  split
  · rename_i hle
    exact (List.take_of_length_le (le_trans (length_le_byteLength text) hle)).symm
  · rfl

theorem truncate_flag (text : List Nat) (limit : Nat) :
    (truncate text limit).2 = true ↔ limit < byteLength text := by
  unfold truncate
  split
  · rename_i hle
    exact iff_of_false Bool.false_ne_true (not_lt.mpr hle)
  · rename_i hlt
    exact iff_of_true rfl (not_le.mp hlt)

theorem take_within_iff {text : List Nat} {limit : Nat} :
    byteLength (text.take limit) ≤ limit ↔ Fits limit text := by
  constructor
  · intro h
    by_cases hfits : byteLength text ≤ limit
    · exact Or.inl hfits
    · right
      have hlength : limit ≤ text.length := by
        by_contra hshort
        rw [List.take_of_length_le (by omega)] at h
        exact hfits h
      have htake : (text.take limit).length = limit := by
        rw [List.length_take]
        omega
      have hle := length_le_byteLength (text.take limit)
      exact ⟨hlength, (byteLength_eq_iff _).mp (by omega)⟩
  · rintro (h | ⟨hlength, hascii⟩)
    · rwa [List.take_of_length_le (le_trans (length_le_byteLength text) h)]
    · rw [(byteLength_eq_iff _).mpr hascii, List.length_take]
      exact Nat.min_le_left _ _

/-- Of a text that fits, something is cut exactly if it is flagged. -/
theorem Fits.flag_iff {text : List Nat} {limit : Nat} (h : Fits limit text) :
    (truncate text limit).2 = true ↔ text.take limit ≠ text := by
  rw [truncate_flag]
  have hle := length_le_byteLength text
  rw [Ne, List.take_eq_self_iff, not_le]
  constructor
  · intro hlong
    rcases h with h | ⟨hlength, hascii⟩
    · omega
    · by_contra hshort
      rw [List.take_of_length_le (by omega)] at hascii
      have heq := (byteLength_eq_iff text).mpr hascii
      omega
  · intro hlong
    omega

/-- A stream whose preview is right: the text gathered from it fits, and what is shown of it
begins the text of all its bytes, so that no character of it comes in two chunks. -/
structure Showable (P : VerificationPlatform) (limit : Nat) (chunks : List (List UInt8)) : Prop where
  fits : Fits limit (gathered P chunks)
  unsplit : (gathered P chunks).take limit <+: P.decode chunks.flatten

/-- What the previews of a result should say of what was written. -/
structure Previewed (P : VerificationPlatform) (limit : Nat) (events : List ChildEvent)
    (result : CommandResult) : Prop where
  stdout : result.stdoutPreview <+: P.decode (stdoutChunks events).flatten
  stdout_within : byteLength result.stdoutPreview ≤ limit
  stderr : result.stderrPreview <+: P.decode (stderrChunks events).flatten
  stderr_within : byteLength result.stderrPreview ≤ limit
  flagged : result.truncated = true ↔
    result.stdoutPreview ≠ gathered P (stdoutChunks events) ∨
      result.stderrPreview ≠ gathered P (stderrChunks events)

theorem resultAt_previewed_iff (before : Nat) (command : VerificationCommand) :
    Previewed P command.outputLimitBytes (written P before command) (resultAt P before command) ↔
      Showable P command.outputLimitBytes (stdoutChunks (written P before command)) ∧
      Showable P command.outputLimitBytes (stderrChunks (written P before command)) := by
  set out := gathered P (stdoutChunks (written P before command)) with hout
  set err := gathered P (stderrChunks (written P before command)) with herr
  set limit := command.outputLimitBytes with hlimit
  have hstdout : (resultAt P before command).stdoutPreview = out.take limit :=
    truncate_text out limit
  have hstderr : (resultAt P before command).stderrPreview = err.take limit :=
    truncate_text err limit
  have hflag : (resultAt P before command).truncated = true ↔
      (truncate out limit).2 = true ∨ (truncate err limit).2 = true := Bool.or_eq_true_iff
  constructor
  · rintro ⟨h1, h2, h3, h4, -⟩
    rw [hstdout] at h1 h2
    rw [hstderr] at h3 h4
    exact ⟨⟨take_within_iff.mp h2, h1⟩, ⟨take_within_iff.mp h4, h3⟩⟩
  · rintro ⟨⟨hfits1, hsplit1⟩, ⟨hfits2, hsplit2⟩⟩
    refine ⟨?_, ?_, ?_, ?_, ?_⟩
    · rw [hstdout]
      exact hsplit1
    · rw [hstdout]
      exact take_within_iff.mpr hfits1
    · rw [hstderr]
      exact hsplit2
    · rw [hstderr]
      exact take_within_iff.mpr hfits2
    · rw [hflag, hstdout, hstderr, hfits1.flag_iff, hfits2.flag_iff]

/-! ### Reports -/

/-- What a report should say of the commands that were run. -/
structure ReportSound (input : VerificationInput P) (ran : List VerificationCommand)
    (report : VerificationReport) : Prop where
  passed : report.passed = true → ∀ id ∈ input.commandIds,
    (∃ command ∈ input.commands, command.commandId = id) ∧
    ∀ command ∈ input.commands, command.commandId = id →
      ∃ k, ran[k]? = some command ∧ passes P k command = true
  failures : report.failures.map (·.commandId) =
    (ran.zipIdx.filter fun entry => !passes P entry.2 entry.1).map fun entry => entry.1.commandId
  complete : report.commandResults.length = ran.length
  previewed : ∀ k command result, ran[k]? = some command → report.commandResults[k]? = some result →
    Previewed P command.outputLimitBytes (written P k command) result

/-- What a run of the policy should come to. -/
structure VerificationSound (input : VerificationInput P) (run : VerificationRun) : Prop where
  ran : ∀ command ∈ run.ran, command ∈ input.commands ∧ command.commandId ∈ input.commandIds
  started : ∀ k command, run.ran[k]? = some command → starts P k command = false →
    ∃ report result, run.ended = .returned report ∧ report.commandResults[k]? = some result ∧
      result.status = .failed
  reported : ∀ report, run.ended = .returned report → ReportSound input run.ran report

/-- Every command that is reached is started.  Where none is refused, every id asked for names an
allowed command, unless no command was selected or one does not pass, and what the commands write
can be shown. -/
structure Verifiable (input : VerificationInput P) : Prop where
  start : AllStart P 0 (selectedCommands input)
  known : (selectedCommands input).all safeCommand = true → selectedCommands input ≠ [] →
    (∀ k command, (selectedCommands input)[k]? = some command → passes P k command = true) →
    ∀ id ∈ input.commandIds, ∃ command ∈ input.commands, command.commandId = id
  showable : (selectedCommands input).all safeCommand = true →
    ∀ k command, (selectedCommands input)[k]? = some command →
      Showable P command.outputLimitBytes (stdoutChunks (written P k command)) ∧
      Showable P command.outputLimitBytes (stderrChunks (written P k command))

theorem mem_selectedCommands {input : VerificationInput P} {command : VerificationCommand} :
    command ∈ selectedCommands input ↔
      command ∈ input.commands ∧ command.commandId ∈ input.commandIds := by
  unfold selectedCommands
  rw [List.mem_filter, List.contains_eq_mem, decide_eq_true_iff]

theorem getElem?_resultsFrom (commands : List VerificationCommand) (k : Nat) :
    (resultsFrom P 0 commands)[k]? = commands[k]?.map (resultAt P k) := by
  unfold resultsFrom
  rw [List.getElem?_map, List.getElem?_zipIdx]
  cases commands[k]? with
  | none => rfl
  | some command => simp

theorem resultsFrom_passed_iff {commands : List VerificationCommand} :
    (resultsFrom P 0 commands).all (·.status = .passed) = true ↔
      ∀ k command, commands[k]? = some command → passes P k command = true := by
  rw [List.all_eq_true]
  constructor
  · intro h k command hk
    have hresult : (resultsFrom P 0 commands)[k]? = some (resultAt P k command) := by
      rw [getElem?_resultsFrom, hk]
      rfl
    exact resultAt_passed_iff.mp (of_decide_eq_true (h _ (List.mem_of_getElem? hresult)))
  · intro h result hmem
    obtain ⟨k, hk⟩ := List.getElem?_of_mem hmem
    rw [getElem?_resultsFrom] at hk
    obtain ⟨command, hcommand, rfl⟩ := Option.map_eq_some_iff.mp hk
    exact decide_eq_true (resultAt_passed_iff.mpr (h k command hcommand))

/-- The failures are those of the commands that do not pass, in order. -/
theorem draft_failures (input : VerificationInput P) (commands : List VerificationCommand) :
    (reportDraft input (resultsFrom P 0 commands)).failures.map (·.commandId) =
      (commands.zipIdx.filter fun entry => !passes P entry.2 entry.1).map
        fun entry => entry.1.commandId := by
  have hverdict : ∀ entry : VerificationCommand × Nat,
      decide ((resultAt P entry.2 entry.1).status ≠ .passed) = !passes P entry.2 entry.1 := by
    intro entry
    have hiff := @resultAt_passed_iff P entry.2 entry.1
    cases hpasses : passes P entry.2 entry.1 with
    | true => simp [hiff.mpr hpasses]
    | false =>
        have hstatus : (resultAt P entry.2 entry.1).status ≠ .passed := by
          intro heq
          have htrue := hiff.mp heq
          rw [hpasses] at htrue
          cases htrue
        simp [hstatus]
  show ((((resultsFrom P 0 commands).filter (·.status ≠ .passed)).map failureOf).map
    (·.commandId)) = _
  unfold resultsFrom
  rw [List.filter_map, List.map_map, List.map_map]
  have hfilter : commands.zipIdx.filter ((fun result : CommandResult =>
      decide (result.status ≠ .passed)) ∘ fun entry => resultAt P entry.2 entry.1) =
        commands.zipIdx.filter fun entry => !passes P entry.2 entry.1 :=
    List.filter_congr fun entry _ => hverdict entry
  rw [hfilter]
  rfl

theorem append_nonempty {a : String} (b : String) (h : a ≠ "") : nonempty (a ++ b) = true := by
  unfold nonempty
  rw [decide_eq_true_iff]
  intro hempty
  refine h ?_
  have hlist := congrArg String.toList hempty
  rw [String.toList_append] at hlist
  exact String.toList_inj.mp (List.append_eq_nil_iff.mp hlist).1

theorem nonempty_of_ne {a : String} (h : a ≠ "") : nonempty a = true := decide_eq_true h

/-- The schema passes every report. -/
theorem draft_accepted (input : VerificationInput P) (commands : List VerificationCommand) :
    (reportDraft input (resultsFrom P 0 commands)).accepted P = true := by
  have hresult : ∀ result ∈ resultsFrom P 0 commands,
      result.commandId ≠ "" ∧ nonempty result.rawArtifactId = true := by
    intro result hmem
    unfold resultsFrom at hmem
    obtain ⟨entry, -, rfl⟩ := List.mem_map.mp hmem
    exact ⟨entry.1.id_nonempty, append_nonempty _ (by decide)⟩
  unfold VerificationReport.accepted
  simp only [Bool.and_eq_true]
  refine ⟨⟨⟨⟨⟨⟨?_, ?_⟩, ?_⟩, ?_⟩, ?_⟩, ?_⟩, ?_⟩
  · exact append_nonempty _ (by decide)
  · exact nonempty_of_ne input.plan_nonempty
  · exact nonempty_of_ne input.node_nonempty
  · refine List.all_eq_true.mpr fun result hmem => ?_
    rw [Bool.and_eq_true]
    exact ⟨nonempty_of_ne (hresult result hmem).1, (hresult result hmem).2⟩
  · refine List.all_eq_true.mpr fun failure hmem => ?_
    obtain ⟨result, hfailed, rfl⟩ := List.mem_map.mp hmem
    have hid := (hresult result (List.mem_filter.mp hfailed).1).1
    rw [Bool.and_eq_true]
    exact ⟨nonempty_of_ne hid, by
      unfold failureOf
      rw [String.append_assoc]
      exact append_nonempty _ hid⟩
  · exact append_nonempty _ (by decide)
  · exact input.now_datetime

theorem policy_ran (input : VerificationInput P) :
    (runVerificationPolicy input).ran = (runCommands P 0 (selectedCommands input)).ran := by
  unfold runVerificationPolicy
  simp only
  cases (runCommands P 0 (selectedCommands input)).ended <;> rfl

/-- Only allowed commands that were asked for are run. -/
theorem policy_selected (input : VerificationInput P) {command : VerificationCommand}
    (h : command ∈ (runVerificationPolicy input).ran) :
    command ∈ input.commands ∧ command.commandId ∈ input.commandIds := by
  rw [policy_ran] at h
  have hreached := (ran_reached (P := P) 0 (selectedCommands input)).subset h
  exact mem_selectedCommands.mp ((List.takeWhile_prefix _).subset hreached)

/-- The run where every selected command is started and none is refused. -/
theorem policy_returned {input : VerificationInput P}
    (hstart : AllStart P 0 (selectedCommands input))
    (hsafe : (selectedCommands input).all safeCommand = true) :
    (runVerificationPolicy input).ran = selectedCommands input ∧
      (runVerificationPolicy input).ended =
        .returned (reportDraft input (resultsFrom P 0 (selectedCommands input))) := by
  obtain ⟨hran, hreturned, -⟩ := runCommands_start hstart
  have hreached : reached (selectedCommands input) = selectedCommands input :=
    List.takeWhile_eq_self_iff.mpr (List.all_eq_true.mp hsafe)
  refine ⟨by rw [policy_ran, hran, hreached], ?_⟩
  unfold runVerificationPolicy
  simp only [hreturned hsafe, draft_accepted, if_true]

/-- The report of commands that are all started. -/
theorem draft_sound_iff (input : VerificationInput P) :
    ReportSound input (selectedCommands input)
        (reportDraft input (resultsFrom P 0 (selectedCommands input))) ↔
      (selectedCommands input ≠ [] →
        (∀ k command, (selectedCommands input)[k]? = some command →
          passes P k command = true) →
        ∀ id ∈ input.commandIds, ∃ command ∈ input.commands, command.commandId = id) ∧
      ∀ k command, (selectedCommands input)[k]? = some command →
        Showable P command.outputLimitBytes (stdoutChunks (written P k command)) ∧
        Showable P command.outputLimitBytes (stderrChunks (written P k command)) := by
  set selected := selectedCommands input with hselected
  have hlength : (resultsFrom P 0 selected).length = selected.length := by
    unfold resultsFrom
    rw [List.length_map, List.length_zipIdx]
  have hpassed : (reportDraft input (resultsFrom P 0 selected)).passed = true ↔
      selected ≠ [] ∧ ∀ k command, selected[k]? = some command → passes P k command = true := by
    show (decide ((resultsFrom P 0 selected).length > 0) &&
      (resultsFrom P 0 selected).all (·.status = .passed)) = true ↔ _
    rw [Bool.and_eq_true, decide_eq_true_iff, resultsFrom_passed_iff, hlength, gt_iff_lt,
      List.length_pos_iff]
  have hpreview : ∀ k command, selected[k]? = some command →
      (reportDraft input (resultsFrom P 0 selected)).commandResults[k]? =
        some (resultAt P k command) := by
    intro k command hk
    show (resultsFrom P 0 selected)[k]? = _
    rw [getElem?_resultsFrom, hk]
    rfl
  constructor
  · intro h
    refine ⟨fun hne hall id hid => (h.passed (hpassed.mpr ⟨hne, hall⟩) id hid).1, ?_⟩
    intro k command hk
    exact (resultAt_previewed_iff k command).mp
      (h.previewed k command _ hk (hpreview k command hk))
  · rintro ⟨hknown, hshowable⟩
    refine ⟨?_, draft_failures input selected, hlength, ?_⟩
    · intro htrue id hid
      obtain ⟨hne, hall⟩ := hpassed.mp htrue
      refine ⟨hknown hne hall id hid, fun command hcommand heq => ?_⟩
      have hmem : command ∈ selected :=
        mem_selectedCommands.mpr ⟨hcommand, by rw [heq]; exact hid⟩
      obtain ⟨k, hk⟩ := List.getElem?_of_mem hmem
      exact ⟨k, hk, hall k command hk⟩
    · intro k command result hk hresult
      rw [hpreview k command hk] at hresult
      cases hresult
      exact (resultAt_previewed_iff k command).mpr (hshowable k command hk)

/-- **What a verification says can be trusted exactly where it is verifiable.** -/
theorem runVerificationPolicy_sound_iff (input : VerificationInput P) :
    VerificationSound input (runVerificationPolicy input) ↔ Verifiable input := by
  by_cases hstart : AllStart P 0 (selectedCommands input)
  · cases hsafe : (selectedCommands input).all safeCommand with
    | true =>
        obtain ⟨hran, hended⟩ := policy_returned hstart hsafe
        have hreached : reached (selectedCommands input) = selectedCommands input :=
          List.takeWhile_eq_self_iff.mpr (List.all_eq_true.mp hsafe)
        constructor
        · intro h
          have hreport := h.reported _ hended
          rw [hran] at hreport
          obtain ⟨hknown, hshowable⟩ := (draft_sound_iff input).mp hreport
          exact ⟨hstart, fun _ => hknown, fun _ => hshowable⟩
        · intro h
          refine ⟨fun command hmem => policy_selected input hmem, ?_, ?_⟩
          · intro k command hk hfails
            rw [hran] at hk
            have hstarts := hstart k command (by rw [hreached]; exact hk)
            rw [Nat.zero_add, hfails] at hstarts
            cases hstarts
          · intro report hreport
            rw [hended] at hreport
            cases hreport
            rw [hran]
            exact (draft_sound_iff input).mpr ⟨h.known hsafe, h.showable hsafe⟩
    | false =>
        obtain ⟨hran, -, hthrown⟩ := runCommands_start hstart
        have hended : (runVerificationPolicy input).ended =
            .thrown "Verification command contains unsupported shell syntax." := by
          unfold runVerificationPolicy
          simp only [hthrown hsafe]
        refine iff_of_true ⟨fun command hmem => policy_selected input hmem, ?_, ?_⟩
          ⟨hstart, fun htrue => ?_, fun htrue => ?_⟩
        · intro k command hk hfails
          rw [policy_ran, hran] at hk
          have hstarts := hstart k command hk
          rw [Nat.zero_add, hfails] at hstarts
          cases hstarts
        · intro report hreport
          rw [hended] at hreport
          cases hreport
        · rw [hsafe] at htrue
          cases htrue
        · rw [hsafe] at htrue
          cases htrue
  · refine iff_of_false ?_ fun h => hstart h.start
    obtain ⟨⟨k, command, hk, hfails⟩, hended⟩ := runCommands_stuck hstart
    intro h
    obtain ⟨report, result, hreturned, -⟩ := h.started k command
      (by rw [policy_ran]; exact hk) (by rwa [Nat.zero_add] at hfails)
    unfold runVerificationPolicy at hreturned
    simp only at hreturned
    cases hloop : (runCommands P 0 (selectedCommands input)).ended with
    | returned results => exact hended results hloop
    | thrown message =>
        rw [hloop] at hreturned
        cases hreturned
    | crashed =>
        rw [hloop] at hreturned
        cases hreturned

/-! ### A command that is not installed

The program is asked to run a command that is not there; the child emits `error`, and the program
ends. -/

def missingPlatform : VerificationPlatform where
  decode chunk := chunk.map (·.toNat)
  spawn _ _ := .fails
  started _ := 0
  ended _ := 0
  isDateTime _ := true
  logHash _ _ := "0123456789abcdef01"
  reportHash _ _ _ _ := "0123456789abcdef01"

def missingCommand : VerificationCommand where
  commandId := "npm_run_test"
  displayName := "npm run test"
  executable := "npm"
  args := ["run", "test"]
  timeoutMs := 120000
  outputLimitBytes := 40000
  id_nonempty := by decide
  name_nonempty := by decide
  executable_nonempty := by decide
  timeout_bound := by decide
  limit_bound := by decide

def missingInput : VerificationInput missingPlatform where
  planId := "plan"
  nodeId := "verify"
  commands := [missingCommand]
  commandIds := ["npm_run_test"]
  now := "2026-01-01T00:00:00.000Z"
  plan_nonempty := by decide
  node_nonempty := by decide
  now_datetime := rfl

theorem missingCommand_crashes :
    ¬ VerificationSound missingInput (runVerificationPolicy missingInput) := by
  intro h
  obtain ⟨report, result, hended, -⟩ := h.started 0 missingCommand rfl rfl
  cases hended

end OpenLagrange.Verification
