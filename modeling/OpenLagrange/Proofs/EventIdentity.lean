/-
What tells the events of different runs apart.

The table of run events is keyed by the event id alone, and an id that is not given is a
32-bit hash of texts joined by colons.  Appending an event leaves another run alone exactly
if no row of that run has the event's id; and two ids differ exactly if the hashes do, which
a colon inside one of the texts is enough to prevent.
-/
import OpenLagrange.Proofs.EventLog

namespace OpenLagrange

/-! ### The hash and its text -/

/-- 32-bit FNV-1a. -/
def fnv1a (units : List Nat) : Nat :=
  units.foldl (fun hash unit => ((hash ^^^ unit) * 0x01000193) % 2 ^ 32) 0x811c9dc5

theorem fnv1a_lt (units : List Nat) : fnv1a units < 16 ^ 8 := by
  have hpow : (16 : Nat) ^ 8 = 2 ^ 32 := by norm_num
  rw [hpow]
  unfold fnv1a
  induction units using List.reverseRecOn with
  | nil => norm_num
  | append_singleton units unit ih =>
      rw [List.foldl_append, List.foldl_cons, List.foldl_nil]
      exact Nat.mod_lt _ (by norm_num)

/-- The digit a character stands for. -/
def hexDigit (c : Char) : Nat := if c.toNat < 97 then c.toNat - 48 else c.toNat - 87

/-- The number some hexadecimal digits stand for. -/
def hexValue (digits : List Char) : Nat := digits.foldl (fun n c => 16 * n + hexDigit c) 0

theorem hexValue_append (digits : List Char) (c : Char) :
    hexValue (digits ++ [c]) = 16 * hexValue digits + hexDigit c := by
  simp [hexValue, List.foldl_append]

theorem hexDigit_digitChar {d : Nat} (hd : d < 16) : hexDigit d.digitChar = d := by
  interval_cases d <;> rfl

theorem hexValue_toDigits (n : Nat) : hexValue (Nat.toDigits 16 n) = n := by
  induction n using Nat.strong_induction_on with
  | _ n ih =>
      rcases Nat.lt_or_ge n 16 with hlt | hge
      · rw [Nat.toDigits_of_lt_base hlt]
        simp [hexValue, hexDigit_digitChar hlt]
      · rw [Nat.toDigits_of_base_le (by decide) hge, hexValue_append, ih _ (by omega),
          hexDigit_digitChar (Nat.mod_lt _ (by decide))]
        omega

/-- Leading zeros say nothing. -/
theorem hexValue_replicate (k : Nat) (digits : List Char) :
    hexValue (List.replicate k '0' ++ digits) = hexValue digits := by
  induction k with
  | zero => rfl
  | succ k ih =>
      rw [List.replicate_succ, List.cons_append]
      simpa [hexValue, hexDigit] using ih

theorem hashString_toList (value : String) :
    (hashString value).toList
      = List.replicate (8 - (Nat.toDigits 16 (fnv1a (utf16 value))).length) '0'
        ++ Nat.toDigits 16 (fnv1a (utf16 value)) := by
  unfold hashString
  exact String.toList_ofList

/-- The text of a hash is never cut. -/
theorem firstChars_hashString (value : String) : firstChars 24 (hashString value) = hashString value := by
  have hdigits : (Nat.toDigits 16 (fnv1a (utf16 value))).length ≤ 8 :=
    (Nat.length_toDigits_le_iff (by decide) (by decide)).mpr (fnv1a_lt _)
  have hlength : (hashString value).toList.length ≤ 24 := by
    rw [hashString_toList, List.length_append, List.length_replicate]
    omega
  unfold firstChars
  rw [List.take_of_length_le hlength, String.ofList_toList]

/-- **The texts of two hashes are the same exactly if the hashes are.** -/
theorem hashString_inj {a b : String} :
    hashString a = hashString b ↔ fnv1a (utf16 a) = fnv1a (utf16 b) := by
  refine ⟨?_, ?_⟩
  · intro h
    have hvalue := congrArg (fun text : String => hexValue text.toList) h
    simpa only [hashString_toList, hexValue_replicate, hexValue_toDigits] using hvalue
  · intro h
    refine String.toList_inj.mp ?_
    rw [hashString_toList, hashString_toList, h]

/-! ### Ids -/

namespace RunEventInput

/-- The text the id of an event is hashed from. -/
def key (input : RunEventInput) : String :=
  ":".intercalate [input.runId, input.planId, input.body.type, input.body.nodeId.getD "",
    input.body.capabilityRef.getD "", input.body.artifactId.getD "", input.body.approvalId.getD "",
    input.timestamp]

/-- Where both ids are made, the hashes differ; a given one differs from the other. -/
def Distinguished (a b : RunEventInput) : Prop :=
  match a.eventId, b.eventId with
  | none, none => fnv1a (utf16 a.key) ≠ fnv1a (utf16 b.key)
  | some given, none => given ≠ "run_event_" ++ hashString b.key
  | none, some given => given ≠ "run_event_" ++ hashString a.key
  | some given, some given' => given ≠ given'

theorem event_eventId (input : RunEventInput) :
    input.event.eventId = input.eventId.getD ("run_event_" ++ hashString input.key) := by
  have hmade : (createRunEvent input.runId input.planId input.timestamp input.body).eventId
      = "run_event_" ++ firstChars 24 (hashString input.key) := rfl
  simp only [event, hmade, firstChars_hashString]

theorem eventId_ne_iff {a b : RunEventInput} :
    a.event.eventId ≠ b.event.eventId ↔ a.Distinguished b := by
  rw [event_eventId, event_eventId]
  unfold Distinguished
  cases ha : a.eventId with
  | none =>
      cases hb : b.eventId with
      | none =>
          simp only [Option.getD_none, ne_eq]
          rw [← hashString_inj]
          refine not_congr ⟨?_, fun h => by rw [h]⟩
          intro h
          have hlist := congrArg String.toList h
          rw [String.toList_append, String.toList_append, List.append_cancel_left_eq] at hlist
          exact String.toList_inj.mp hlist
      | some given => simp only [Option.getD_none, Option.getD_some, ne_comm]
  | some given =>
      cases hb : b.eventId with
      | none => simp only [Option.getD_none, Option.getD_some]
      | some given' => simp only [Option.getD_some]

end RunEventInput

/-! ### Other runs -/

namespace RunEventTable

variable {table : RunEventTable} {event : RunEvent} {runId : String}

/-- An append leaves the rows of another run alone if none of them has the event's id. -/
theorem append_filter (hother : event.runId ≠ runId)
    (hfree : ∀ row ∈ table.rows, row.runId = runId → row.eventId ≠ event.eventId) :
    (table.append event).rows.filter (·.runId = runId) = table.rows.filter (·.runId = runId) := by
  have hrow : decide ((table.rowFor event).runId = runId) = false := decide_eq_false hother
  simp only [append, upsert]
  split
  · -- the row that is overwritten is of neither run, or of the event's
    have hmap : ∀ rows : List RunEventRow,
        (∀ row ∈ rows, row.runId = runId → row.eventId ≠ event.eventId) →
        (rows.map fun row => if row.eventId = event.eventId then table.rowFor event else row).filter
            (·.runId = runId) = rows.filter (·.runId = runId) := by
      intro rows hrows
      induction rows with
      | nil => rfl
      | cons row rest ih =>
          have hrest := ih fun row' hrow' => hrows row' (List.mem_cons_of_mem _ hrow')
          rw [List.map_cons, List.filter_cons, List.filter_cons, hrest]
          by_cases hid : row.eventId = event.eventId
          · have hnot : row.runId ≠ runId := fun hrun => hrows row List.mem_cons_self hrun hid
            rw [if_pos hid, hrow, decide_eq_false hnot, if_neg Bool.false_ne_true,
              if_neg Bool.false_ne_true]
          · rw [if_neg hid]
    exact hmap table.rows hfree
  · rw [List.filter_append]
    simp [hrow]

/-- An append to another run takes a row of that id away. -/
theorem append_length (hother : event.runId ≠ runId) {row : RunEventRow} (hmem : row ∈ table.rows)
    (hrun : row.runId = runId) (hid : row.eventId = event.eventId) :
    ((table.append event).rows.filter (·.runId = runId)).length
      < (table.rows.filter (·.runId = runId)).length := by
  have hrow : decide ((table.rowFor event).runId = runId) = false := decide_eq_false hother
  have hany : table.rows.any (fun row => decide (row.eventId = event.eventId)) = true :=
    List.any_eq_true.mpr ⟨row, hmem, decide_eq_true hid⟩
  simp only [append, upsert, hany, if_true]
  have hmap : ∀ rows : List RunEventRow,
      ((rows.map fun row => if row.eventId = event.eventId then table.rowFor event else row).filter
          (·.runId = runId)).length ≤ (rows.filter (·.runId = runId)).length ∧
        (row ∈ rows → ((rows.map fun row => if row.eventId = event.eventId then table.rowFor event
          else row).filter (·.runId = runId)).length < (rows.filter (·.runId = runId)).length) := by
    intro rows
    induction rows with
    | nil => exact ⟨le_refl _, fun hnil => absurd hnil List.not_mem_nil⟩
    | cons first rest ih =>
        rw [List.map_cons, List.filter_cons, List.filter_cons]
        by_cases hfirst : first.eventId = event.eventId
        · rw [if_pos hfirst, hrow, if_neg Bool.false_ne_true]
          by_cases hmine : first.runId = runId
          · rw [decide_eq_true hmine, if_pos rfl, List.length_cons]
            exact ⟨by omega, fun _ => by omega⟩
          · rw [decide_eq_false hmine, if_neg Bool.false_ne_true]
            refine ⟨ih.1, ?_⟩
            intro hin
            rcases List.mem_cons.mp hin with rfl | hin
            · exact absurd hrun hmine
            · exact ih.2 hin
        · rw [if_neg hfirst]
          have hin : row ∈ first :: rest → row ∈ rest := by
            intro hin
            rcases List.mem_cons.mp hin with rfl | hin
            · exact absurd hid hfirst
            · exact hin
          by_cases hmine : first.runId = runId
          · rw [decide_eq_true hmine, if_pos rfl, List.length_cons, if_pos rfl, List.length_cons]
            exact ⟨by omega, fun h => by have := ih.2 (hin h); omega⟩
          · rw [decide_eq_false hmine, if_neg Bool.false_ne_true, if_neg Bool.false_ne_true]
            exact ⟨ih.1, fun h => ih.2 (hin h)⟩
  exact (hmap table.rows).2 hmem

end RunEventTable

/-- Everything a reader of a run is answered is the same. -/
structure SameToReader {isDatetime : String → Bool} {σ : Type} (store : RunEventStore isDatetime σ)
    (runId : String) (before after : σ) : Prop where
  listed : ∀ cursor limit,
    store.listRunEvents after runId cursor limit = store.listRunEvents before runId cursor limit
  latest : store.getLatestEventId after runId = store.getLatestEventId before runId

/-- A listing of a run is as long as the run has rows. -/
theorem listRunEvents_length (isDatetime : String → Bool) (table : RunEventTable) (runId : String) :
    ((sqliteRunEventStore isDatetime).listRunEvents table runId none none).length
      = (table.rows.filter (·.runId = runId)).length := by
  have hlisted : (sqliteRunEventStore isDatetime).listRunEvents table runId none none
      = ((table.rows.filter (·.runId = runId)).insertionSort fun a b =>
          RunEventTable.rowLe a b).map (table.rowToEnvelope runId) := rfl
  rw [hlisted, List.length_map, List.length_insertionSort]

/-- **What keeps runs apart.**  Appending an event to the SQLite store leaves every other run
alone if and only if no row of that run has the event's id.  The ids of two inputs differ if and
only if the given ones do or, where both are made, the hashes of the joined texts do. -/
theorem appendRunEvent_isolated (isDatetime : String → Bool) :
    (∀ (table : RunEventTable) (parsed : ParsedRunEvent isDatetime) (runId : String),
        parsed.val.runId ≠ runId →
        (SameToReader (sqliteRunEventStore isDatetime) runId table
            ((sqliteRunEventStore isDatetime).appendRunEvent table parsed).1 ↔
          ∀ row ∈ table.rows, row.runId = runId → row.eventId ≠ parsed.val.eventId)) ∧
      ∀ a b : RunEventInput, a.event.eventId ≠ b.event.eventId ↔ a.Distinguished b := by
  refine ⟨?_, fun a b => RunEventInput.eventId_ne_iff⟩
  intro table parsed runId hother
  have henvelopes : ∀ table' : RunEventTable, (sqliteRunEventStore isDatetime).envelopes table' runId
      = ((table'.rows.filter (·.runId = runId)).insertionSort fun a b =>
          RunEventTable.rowLe a b).map (table'.rowToEnvelope runId) := fun _ => rfl
  refine ⟨?_, ?_⟩
  · intro hsame row hmem hrun hid
    have hfewer := RunEventTable.append_length hother hmem hrun hid
    have hall := congrArg List.length (hsame.listed none none)
    rw [listRunEvents_length, listRunEvents_length] at hall
    have happend : ((sqliteRunEventStore isDatetime).appendRunEvent table parsed).1
        = table.append parsed.val := rfl
    rw [happend] at hall
    omega
  · intro hfree
    have hsame : (sqliteRunEventStore isDatetime).envelopes
        ((sqliteRunEventStore isDatetime).appendRunEvent table parsed).1 runId
          = (sqliteRunEventStore isDatetime).envelopes table runId := by
      rw [henvelopes, henvelopes]
      have hrows : ((sqliteRunEventStore isDatetime).appendRunEvent table parsed).1.rows.filter
          (·.runId = runId) = table.rows.filter (·.runId = runId) :=
        RunEventTable.append_filter hother hfree
      rw [hrows]
      rfl
    refine ⟨?_, ?_⟩
    · intro cursor limit
      simp only [RunEventStore.listRunEvents, hsame]
    · simp only [RunEventStore.getLatestEventId, hsame]

/-! ### Two runs that are not kept apart -/

/-- The run and the plan, joined by a colon, are the same text for both. -/
def colonInput (runId planId : String) : RunEventInput :=
  ⟨none, runId, planId, "2026-01-01T00:00:00.000Z", .runStarted⟩

theorem colonInput_refined {runId planId : String} (hrun : runId ≠ "") (hplan : planId ≠ "") :
    (colonInput runId planId).event.refined (fun _ => true) = true :=
  createRunEvent_refined hrun hplan rfl rfl

theorem colonInput_key : (colonInput "a:b" "c").key = (colonInput "a" "b:c").key := by decide

/-- The event of run `a` is taken over by run `a:b`. -/
theorem colonInput_not_isolated :
    ¬ ((∀ (isDatetime : String → Bool) (table : RunEventTable) (input : RunEventInput)
          (hparsed : input.event.refined isDatetime = true) (runId : String),
          input.runId ≠ runId →
          SameToReader (sqliteRunEventStore isDatetime) runId table
            ((sqliteRunEventStore isDatetime).appendRunEvent table ⟨input.event, hparsed⟩).1) ∧
        ∀ a b : RunEventInput, a.runId ≠ b.runId → a.event.eventId ≠ b.event.eventId) := by
  rintro ⟨hisolated, -⟩
  have hparsed : (colonInput "a:b" "c").event.refined (fun _ => true) = true :=
    colonInput_refined (by decide) (by decide)
  let table : RunEventTable := ⟨[], List.nodup_nil, fun _ => .localDev⟩
  let table' := table.append (colonInput "a" "b:c").event
  have hid : (colonInput "a" "b:c").event.eventId = (colonInput "a:b" "c").event.eventId := by
    rw [RunEventInput.event_eventId, RunEventInput.event_eventId, colonInput_key]
    rfl
  have hrow : table.rowFor (colonInput "a" "b:c").event ∈ table'.rows := List.mem_singleton_self _
  have hother : (colonInput "a:b" "c").event.runId ≠ "a" := by decide
  have hfewer := RunEventTable.append_length hother hrow rfl hid
  have hreader := hisolated (fun _ => true) table' (colonInput "a:b" "c") hparsed "a" (by decide)
  have hall := congrArg List.length (hreader.listed none none)
  rw [listRunEvents_length, listRunEvents_length] at hall
  have happend : ((sqliteRunEventStore fun _ => true).appendRunEvent table'
      ⟨(colonInput "a:b" "c").event, hparsed⟩).1 = table'.append (colonInput "a:b" "c").event := rfl
  rw [happend] at hall
  omega

end OpenLagrange
