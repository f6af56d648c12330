/-
What a client of the event stream is sent.

The stream is right as long as what it is about to send is the next event of the run.  Two
things take it off: an event this process publishes while an earlier one, appended by
another process or between the replay and the subscription, has not been sent, and a replay
that is delivered after the cursor it was read from has moved.  Every step on which neither
happens keeps what was sent a beginning of what is due, and the next poll brings the rest.

An event is told by its id and its number, which is all that appending it again leaves as it
was.
-/
import OpenLagrange.Proofs.EventIdentity
import OpenLagrange.Runs.RunEventStream

namespace OpenLagrange

/-! ### The keys of a run -/

def RunEventEnvelope.key (envelope : RunEventEnvelope) : String × Nat :=
  (envelope.eventId, envelope.sequence)

namespace RunEventTable

variable {table : RunEventTable} {runId : String} {event : RunEvent}

/-- The ids of a run and their numbers, as the rows stand. -/
def keys (table : RunEventTable) (runId : String) : List (String × Nat) :=
  (table.rows.filter (·.runId = runId)).map fun row => (row.eventId, row.sequence)

theorem mem_keys {key : String × Nat} :
    key ∈ table.keys runId ↔
      ∃ row ∈ table.rows, row.runId = runId ∧ (row.eventId, row.sequence) = key := by
  simp [keys, and_assoc]

theorem keys_nodup (table : RunEventTable) (runId : String) : ((table.keys runId).map Prod.fst).Nodup := by
  have hsub : ((table.keys runId).map Prod.fst).Sublist (table.rows.map (·.eventId)) := by
    rw [keys, List.map_map]
    exact (List.filter_sublist).map _
  exact hsub.nodup table.primaryKey

/-- Rows are in order if and only if their keys are. -/
theorem numbered_iff : table.Numbered runId ↔
    (table.keys runId).Pairwise (fun a b => a.2 < b.2) ∧
      ∀ key ∈ table.keys runId, 0 < key.2 ∧ key.1 ≠ "" := by
  refine ⟨?_, ?_⟩
  · intro hnumbered
    refine ⟨List.pairwise_map.mpr hnumbered.ordered, ?_⟩
    intro key hkey
    obtain ⟨row, hrow, hrun, rfl⟩ := mem_keys.mp hkey
    exact hnumbered.positive row hrow hrun
  · rintro ⟨hordered, hpositive⟩
    rw [keys, List.pairwise_map] at hordered
    refine ⟨hordered, ?_⟩
    intro row hrow hrun
    exact hpositive _ (mem_keys.mpr ⟨row, hrow, hrun, rfl⟩)

/-- The envelopes of a run have the keys of its rows, in that order. -/
theorem Numbered.envelopes_keys (hnumbered : table.Numbered runId) (isDatetime : String → Bool) :
    ((sqliteRunEventStore isDatetime).envelopes table runId).map RunEventEnvelope.key
      = table.keys runId := by
  have hrows : (sqliteRunEventStore isDatetime).envelopes table runId
      = (table.runRows runId).map (table.rowToEnvelope runId) := rfl
  rw [hrows, hnumbered.runRows_eq, List.map_map, keys]
  refine List.map_congr_left ?_
  intro row hrow
  obtain ⟨hmem, hrun⟩ := List.mem_filter.mp hrow
  have hpositive := (hnumbered.positive row hmem (of_decide_eq_true hrun)).1
  simp only [Function.comp_apply, RunEventEnvelope.key, rowToEnvelope]
  rw [if_neg (by omega)]

/-- A listing from a cursor, by its keys. -/
theorem Numbered.listRunEvents_keys (hnumbered : table.Numbered runId)
    (isDatetime : String → Bool) (cursor : Option String) :
    ((sqliteRunEventStore isDatetime).listRunEvents table runId cursor none).map
      RunEventEnvelope.key = CursorLog.after Prod.fst (table.keys runId) cursor := by
  have hids : ∀ e ∈ (sqliteRunEventStore isDatetime).envelopes table runId, e.eventId ≠ "" := by
    intro envelope hmem
    have hkey := List.mem_map_of_mem (f := RunEventEnvelope.key) hmem
    rw [hnumbered.envelopes_keys] at hkey
    exact ((numbered_iff.mp hnumbered).2 _ hkey).2
  have hlisted : (sqliteRunEventStore isDatetime).listRunEvents table runId cursor none
      = eventsAfter ((sqliteRunEventStore isDatetime).envelopes table runId) cursor := rfl
  have hkey : ∀ e : RunEventEnvelope, e.key.1 = e.eventId := fun _ => rfl
  rw [hlisted, eventsAfter_eq hids, CursorLog.after_map hkey, hnumbered.envelopes_keys]

/-! ### What an append does to them -/

/-- An event that is there keeps its number. -/
theorem sequenceFor_eq {row : RunEventRow} (hmem : row ∈ table.rows)
    (hid : row.eventId = event.eventId) : table.sequenceFor event = row.sequence := by
  cases hfind : table.rows.find? fun row => decide (row.eventId = event.eventId) with
  | none =>
      rw [List.find?_eq_none] at hfind
      exact absurd (decide_eq_true hid) (hfind row hmem)
  | some found =>
      have hfound : found.eventId = event.eventId := by
        have hmatch := List.find?_some hfind
        exact of_decide_eq_true hmatch
      have hsame : found = row := List.inj_on_of_nodup_map table.primaryKey
        (List.mem_of_find?_eq_some hfind) hmem (hfound.trans hid.symm)
      simp only [sequenceFor, hfind, hsame]

/-- The event takes the place of no event of another run than its own. -/
def Fits (table : RunEventTable) (runId : String) (event : RunEvent) : Prop :=
  ∀ row ∈ table.rows, row.eventId = event.eventId → (row.runId = runId ↔ event.runId = runId)

/-- Appending an event of another run leaves the keys alone. -/
theorem append_keys_other (hfits : table.Fits runId event) (hother : event.runId ≠ runId) :
    (table.append event).keys runId = table.keys runId := by
  have hfree : ∀ row ∈ table.rows, row.runId = runId → row.eventId ≠ event.eventId := by
    intro row hrow hrun hid
    exact hother ((hfits row hrow hid).mp hrun)
  rw [keys, append_filter hother hfree, keys]

/-- So does appending an event of the run again. -/
theorem append_keys_again (hfits : table.Fits runId event) (hrun : event.runId = runId)
    {row : RunEventRow} (hmem : row ∈ table.rows) (hid : row.eventId = event.eventId) :
    (table.append event).keys runId = table.keys runId := by
  have hany : table.rows.any (fun row => decide (row.eventId = event.eventId)) = true :=
    List.any_eq_true.mpr ⟨row, hmem, decide_eq_true hid⟩
  have hover : ∀ rows : List RunEventRow, (∀ row ∈ rows, row ∈ table.rows) →
      ((rows.map fun row => if row.eventId = event.eventId then table.rowFor event else row).filter
          (·.runId = runId)).map (fun row => (row.eventId, row.sequence))
        = (rows.filter (·.runId = runId)).map fun row => (row.eventId, row.sequence) := by
    intro rows hrows
    induction rows with
    | nil => rfl
    | cons first rest ih =>
        have hrest := ih fun row hrow => hrows row (List.mem_cons_of_mem _ hrow)
        have hfirst := hrows first List.mem_cons_self
        rw [List.map_cons, List.filter_cons, List.filter_cons]
        by_cases hsame : first.eventId = event.eventId
        · have hmine : decide (first.runId = runId) = true :=
            decide_eq_true ((hfits first hfirst hsame).mpr hrun)
          have hnew : decide ((table.rowFor event).runId = runId) = true := decide_eq_true hrun
          have hkey : ((table.rowFor event).eventId, (table.rowFor event).sequence)
              = (first.eventId, first.sequence) := by
            rw [Prod.mk.injEq]
            exact ⟨hsame.symm, sequenceFor_eq hfirst hsame⟩
          rw [if_pos hsame, hnew, if_pos rfl, hmine, if_pos rfl, List.map_cons, List.map_cons, hrest,
            hkey]
        · rw [if_neg hsame]
          by_cases hmine : first.runId = runId
          · rw [decide_eq_true hmine, if_pos rfl, if_pos rfl, List.map_cons, List.map_cons, hrest]
          · rw [decide_eq_false hmine, if_neg Bool.false_ne_true, if_neg Bool.false_ne_true, hrest]
  have hrows : (table.append event).rows
      = table.rows.map fun row => if row.eventId = event.eventId then table.rowFor event else row := by
    simp only [append, upsert, hany, if_true]
  rw [keys, hrows, hover table.rows fun row hrow => hrow, keys]

/-- A new event of the run comes last. -/
theorem append_keys_new (hrun : event.runId = runId)
    (hfresh : ∀ row ∈ table.rows, row.eventId ≠ event.eventId) :
    (table.append event).keys runId
      = table.keys runId ++ [(event.eventId, table.sequenceFor event)] := by
  have hmine : decide ((table.rowFor event).runId = runId) = true := decide_eq_true hrun
  rw [keys, (append_fresh hfresh).1, List.filter_append, List.map_append, keys, List.filter_cons,
    hmine, if_pos rfl]
  rfl

/-- The table stays in order. -/
theorem Numbered.append_fits (hnumbered : table.Numbered runId) (hfits : table.Fits runId event)
    (hid : event.eventId ≠ "") : (table.append event).Numbered runId := by
  by_cases hrun : event.runId = runId
  · by_cases hthere : ∃ row ∈ table.rows, row.eventId = event.eventId
    · obtain ⟨row, hmem, hsame⟩ := hthere
      rw [numbered_iff, append_keys_again hfits hrun hmem hsame, ← numbered_iff]
      exact hnumbered
    · have hfresh : ∀ row ∈ table.rows, row.eventId ≠ event.eventId := by
        intro row hrow hsame
        exact hthere ⟨row, hrow, hsame⟩
      exact (hnumbered.append hrun hid hfresh).1
  · rw [numbered_iff, append_keys_other hfits hrun, ← numbered_iff]
    exact hnumbered

end RunEventTable

namespace RunEventStream

variable (isDatetime : String → Bool) (runId : String)

/-! ### What is asked of a step -/

/-- What the client is to be sent, now. -/
def due (s : RunEventStream) : List (String × Nat) :=
  ((sqliteRunEventStore isDatetime).listRunEvents s.table runId s.cursor none).map
    RunEventEnvelope.key

/-- Replays are not too long to be sent. -/
def WithinLimit (s : RunEventStream) : StreamAction isDatetime → Prop
  | .deliver => ∀ replay ∈ s.pending.head?, replay.events.length ≤ replayLimit
  | _ => True

/-- An append takes no other run's event, and no new event has the id the client came with. -/
def Appendable (s : RunEventStream) (event : RunEvent) : Prop :=
  s.table.Fits runId event ∧
    (event.runId = runId → s.cursor = some event.eventId →
      ∃ row ∈ s.table.rows, row.eventId = event.eventId)

/-- A published event is the last one sent; or it is next, since all that is due before it has
been sent. -/
def Next (s : RunEventStream) (event : RunEvent) : Prop :=
  s.cursorEventId = some event.eventId ∨
    ((s.due isDatetime runId).takeWhile (·.1 ≠ event.eventId) = s.sent.map RunEventEnvelope.key ∧
      ((∀ row ∈ s.table.rows, row.eventId ≠ event.eventId) ∨
        event.eventId ∈ (s.due isDatetime runId).map Prod.fst))

/-- The step meets the stream where it is: what is published is next, and what is delivered
was read from the cursor as it still is. -/
def Meets (s : RunEventStream) : StreamAction isDatetime → Prop
  | .append parsed =>
      s.Appendable runId parsed.val ∧
        (s.phase = .live → parsed.val.runId = runId → s.Next isDatetime runId parsed.val)
  | .appendElsewhere parsed => s.Appendable runId parsed.val
  | .deliver => ∀ replay ∈ s.pending.head?,
      replay.events.length ≤ replayLimit ∧ (replay.events = [] ∨ replay.cursor = s.cursorEventId)
  | _ => True

/-- Every action of a run is met where it is taken. -/
def Along (met : RunEventStream → StreamAction isDatetime → Prop) :
    List (StreamAction isDatetime) → RunEventStream → Prop
  | [], _ => True
  | action :: rest, s => met s action ∧ Along met rest (step isDatetime runId s action)

/-- The client was sent a beginning of what is due to it, each event once and in the order of
the numbers; and a poll with nothing under way brings the rest. -/
structure Delivered (s : RunEventStream) : Prop where
  inOrder : s.sent.map RunEventEnvelope.key <+: s.due isDatetime runId
  once : (s.sent.map (·.eventId)).Nodup
  ascending : (s.sent.map (·.sequence)).Pairwise (· < ·)
  complete : s.phase = .live → s.pending = [] →
    (s.readReplay isDatetime runId).events.length ≤ replayLimit →
    (run isDatetime runId [.poll, .deliver] s).sent.map RunEventEnvelope.key
      = s.due isDatetime runId

/-! ### What every step keeps -/

/-- What is sent is a beginning of what is due, the cursor stands behind it, and every replay
under way is a beginning of what came after its cursor. -/
structure Steady (s : RunEventStream) : Prop where
  numbered : s.table.Numbered runId
  idle : s.phase = .closed → s.sent = [] ∧ s.pending = []
  sent : s.sent.map RunEventEnvelope.key <+: CursorLog.after Prod.fst (s.table.keys runId) s.cursor
  position : s.cursorEventId
    = CursorLog.position Prod.fst s.cursor (s.sent.map RunEventEnvelope.key)
  pending : ∀ replay ∈ s.pending,
    replay.events.map RunEventEnvelope.key
        <+: CursorLog.after Prod.fst (s.table.keys runId) replay.cursor ∧
      (replay.cursor = s.cursor ∨ ∃ key ∈ s.table.keys runId, replay.cursor = some key.1)

variable {isDatetime runId}

theorem Steady.due_eq {s : RunEventStream} (hs : s.Steady runId) :
    s.due isDatetime runId = CursorLog.after Prod.fst (s.table.keys runId) s.cursor :=
  hs.numbered.listRunEvents_keys isDatetime s.cursor

/-- Sending the next event. -/
theorem Steady.send {s : RunEventStream} (hs : s.Steady runId) (hopen : s.phase ≠ .closed)
    {envelope : RunEventEnvelope}
    (hnext : s.sent.map RunEventEnvelope.key ++ [envelope.key]
      <+: CursorLog.after Prod.fst (s.table.keys runId) s.cursor) :
    (s.sendEnvelope envelope).Steady runId := by
  refine ⟨hs.numbered, fun hclosed => absurd hclosed hopen, ?_, ?_, hs.pending⟩
  · simp only [sendEnvelope, List.map_append, List.map_cons, List.map_nil]
    exact hnext
  · simp only [sendEnvelope, List.map_append, List.map_cons, List.map_nil,
      CursorLog.position_append]
    rfl

/-- Sending several, which are next. -/
theorem Steady.sendAll {events : List RunEventEnvelope} {s : RunEventStream} (hs : s.Steady runId)
    (hopen : s.phase ≠ .closed)
    (hnext : s.sent.map RunEventEnvelope.key ++ events.map RunEventEnvelope.key
      <+: CursorLog.after Prod.fst (s.table.keys runId) s.cursor) :
    (events.foldl sendEnvelope s).Steady runId := by
  induction events generalizing s with
  | nil => exact hs
  | cons envelope rest ih =>
      have hassoc : s.sent.map RunEventEnvelope.key ++ (envelope :: rest).map RunEventEnvelope.key
          = (s.sent.map RunEventEnvelope.key ++ [envelope.key]) ++ rest.map RunEventEnvelope.key := by
        simp
      rw [hassoc] at hnext
      have hone := (List.prefix_append _ (rest.map RunEventEnvelope.key)).trans hnext
      refine ih (hs.send hopen hone) hopen ?_
      simp only [sendEnvelope, List.map_append, List.map_cons, List.map_nil]
      exact hnext

theorem sendAll_sent (events : List RunEventEnvelope) (s : RunEventStream) :
    (events.foldl sendEnvelope s).sent = s.sent ++ events := by
  induction events generalizing s with
  | nil => simp
  | cons envelope rest ih =>
      rw [List.foldl_cons, ih]
      simp [sendEnvelope]

/-- What is read at the cursor is what comes after what was sent, or a beginning of it. -/
theorem Steady.readReplay_keys {s : RunEventStream} (hs : s.Steady runId)
    (isDatetime : String → Bool) :
    (s.readReplay isDatetime runId).events.map RunEventEnvelope.key
      = (CursorLog.after Prod.fst (s.table.keys runId) s.cursorEventId).take (replayLimit + 1) := by
  rw [← hs.numbered.listRunEvents_keys isDatetime, ← List.map_take]
  rfl

/-- The cursor is the one the client came with, or an event of the run. -/
theorem Steady.cursorEventId_mem {s : RunEventStream} (hs : s.Steady runId) :
    s.cursorEventId = s.cursor ∨ ∃ key ∈ s.table.keys runId, s.cursorEventId = some key.1 := by
  rcases List.eq_nil_or_concat (s.sent.map RunEventEnvelope.key) with hnil | ⟨before, last, hlast⟩
  · refine Or.inl ?_
    rw [hs.position, hnil, CursorLog.position_nil]
  · refine Or.inr ⟨last, ?_, ?_⟩
    · have hmem : last ∈ s.sent.map RunEventEnvelope.key := by
        rw [hlast, List.concat_eq_append]
        exact List.mem_append_right _ (List.mem_singleton_self _)
      exact (CursorLog.after_suffix _ _).subset (hs.sent.subset hmem)
    · rw [hs.position, hlast, List.concat_eq_append, CursorLog.position_append]

/-- Nothing is sent while another table takes the place of the table. -/
theorem Steady.table {s : RunEventStream} (hs : s.Steady runId) {table : RunEventTable}
    (hnumbered : table.Numbered runId)
    (hkeys : table.keys runId = s.table.keys runId ∨
      ∃ key, table.keys runId = s.table.keys runId ++ [key] ∧ s.cursor ≠ some key.1) :
    ({ s with table } : RunEventStream).Steady runId := by
  rcases hkeys with hsame | ⟨key, hmore, hcursor⟩
  · refine ⟨hnumbered, hs.idle, ?_, hs.position, ?_⟩
    · rw [hsame]
      exact hs.sent
    · rw [hsame]
      exact hs.pending
  · have hnodup := table.keys_nodup runId
    rw [hmore, List.map_append, List.nodup_append] at hnodup
    have hgrows : ∀ cursor : Option String,
        (cursor = s.cursor ∨ ∃ k ∈ s.table.keys runId, cursor = some k.1) →
        CursorLog.after Prod.fst (s.table.keys runId ++ [key]) cursor
          = CursorLog.after Prod.fst (s.table.keys runId) cursor ++ [key] := by
      intro cursor hknown
      refine CursorLog.after_append_right ?_
      intro c hc
      rcases hknown with hstart | ⟨k, hk, hlast⟩
      · refine Or.inr ?_
        intro e he hid
        rw [List.mem_singleton.mp he] at hid
        rw [hstart, ← hid] at hc
        exact hcursor hc
      · refine Or.inl ⟨k, hk, ?_⟩
        rw [hlast, Option.some.injEq] at hc
        exact hc
    refine ⟨hnumbered, hs.idle, ?_, hs.position, ?_⟩
    · rw [hmore, hgrows s.cursor (Or.inl rfl)]
      exact hs.sent.trans (List.prefix_append _ _)
    · intro replay hreplay
      obtain ⟨hevents, hcursor⟩ := hs.pending replay hreplay
      rw [hmore, hgrows replay.cursor hcursor]
      refine ⟨hevents.trans (List.prefix_append _ _), ?_⟩
      refine hcursor.imp_right ?_
      rintro ⟨k, hk, hlast⟩
      exact ⟨k, List.mem_append_left _ hk, hlast⟩

/-! ### Appending -/

section Append

variable {s : RunEventStream} {event : RunEvent}

/-- An append that fits leaves the stream right. -/
theorem Steady.append (hs : s.Steady runId) (hid : event.eventId ≠ "")
    (hfits : s.Appendable runId event) :
    ({ s with table := s.table.append event } : RunEventStream).Steady runId := by
  refine hs.table (hs.numbered.append_fits hfits.1 hid) ?_
  by_cases hrun : event.runId = runId
  · by_cases hthere : ∃ row ∈ s.table.rows, row.eventId = event.eventId
    · obtain ⟨row, hmem, hsame⟩ := hthere
      exact Or.inl (RunEventTable.append_keys_again hfits.1 hrun hmem hsame)
    · have hfresh : ∀ row ∈ s.table.rows, row.eventId ≠ event.eventId := by
        intro row hrow hsame
        exact hthere ⟨row, hrow, hsame⟩
      refine Or.inr ⟨_, RunEventTable.append_keys_new hrun hfresh, ?_⟩
      intro hcursor
      exact hthere (hfits.2 hrun hcursor)
  · exact Or.inl (RunEventTable.append_keys_other hfits.1 hrun)

/-- The event is among the keys of its run then. -/
theorem mem_append_keys (hfits : s.table.Fits runId event) (hrun : event.runId = runId) :
    (event.eventId, s.table.sequenceFor event) ∈ (s.table.append event).keys runId := by
  by_cases hthere : ∃ row ∈ s.table.rows, row.eventId = event.eventId
  · obtain ⟨row, hmem, hsame⟩ := hthere
    rw [RunEventTable.append_keys_again hfits hrun hmem hsame,
      RunEventTable.sequenceFor_eq hmem hsame, ← hsame]
    exact RunEventTable.mem_keys.mpr ⟨row, hmem, (hfits row hmem hsame).mpr hrun, rfl⟩
  · have hfresh : ∀ row ∈ s.table.rows, row.eventId ≠ event.eventId := by
      intro row hrow hsame
      exact hthere ⟨row, hrow, hsame⟩
    rw [RunEventTable.append_keys_new hrun hfresh]
    exact List.mem_append_right _ (List.mem_singleton_self _)

/-- What is published has the key that is stored. -/
theorem published_key (hs : s.Steady runId) (hid : event.eventId ≠ "")
    (hfits : s.table.Fits runId event) (hrun : event.runId = runId) :
    ((s.table.append event).rowToEnvelope event.runId (s.table.rowFor event)).key
      = (event.eventId, s.table.sequenceFor event) := by
  have hnumbered := hs.numbered.append_fits hfits hid
  have hpositive := ((RunEventTable.numbered_iff.mp hnumbered).2 _ (mem_append_keys hfits hrun)).1
  have hsequence : (s.table.rowFor event).sequence = s.table.sequenceFor event := rfl
  simp only [RunEventEnvelope.key, RunEventTable.rowToEnvelope, hsequence]
  rw [if_neg (by omega)]
  rfl

/-- An event before which all was sent is the next one after it is appended. -/
theorem Steady.next (hs : s.Steady runId) (hfits : s.Appendable runId event)
    (hrun : event.runId = runId)
    (hbefore : (s.due isDatetime runId).takeWhile (·.1 ≠ event.eventId)
      = s.sent.map RunEventEnvelope.key)
    (hthere : (∀ row ∈ s.table.rows, row.eventId ≠ event.eventId) ∨
      event.eventId ∈ (s.due isDatetime runId).map Prod.fst) :
    s.sent.map RunEventEnvelope.key ++ [(event.eventId, s.table.sequenceFor event)]
      <+: CursorLog.after Prod.fst ((s.table.append event).keys runId) s.cursor := by
  rw [hs.due_eq] at hbefore hthere
  have hsub : CursorLog.after Prod.fst (s.table.keys runId) s.cursor ⊆ s.table.keys runId :=
    (CursorLog.after_suffix _ _).subset
  rcases hthere with hfresh | hdue
  · -- nothing that is due has the id, so all of it was sent
    have hkeys : ∀ key ∈ s.table.keys runId, key.1 ≠ event.eventId := by
      intro key hkey
      obtain ⟨row, hrow, -, rfl⟩ := RunEventTable.mem_keys.mp hkey
      exact hfresh row hrow
    have hall : (CursorLog.after Prod.fst (s.table.keys runId) s.cursor).takeWhile
        (·.1 ≠ event.eventId) = CursorLog.after Prod.fst (s.table.keys runId) s.cursor := by
      rw [List.takeWhile_eq_self_iff]
      intro key hkey
      exact decide_eq_true (hkeys key (hsub hkey))
    rw [hall] at hbefore
    rw [RunEventTable.append_keys_new hrun hfresh, CursorLog.after_append_right, hbefore]
    intro cursor hc
    refine Or.inr ?_
    intro e he hid
    rw [List.mem_singleton.mp he] at hid
    rw [← hid] at hc
    obtain ⟨row, hrow, hsame⟩ := hfits.2 hrun hc
    exact hfresh row hrow hsame
  · -- the first of what was not sent has the id
    have hsplit := List.takeWhile_append_dropWhile (p := fun key : String × Nat =>
      decide (key.1 ≠ event.eventId)) (l := CursorLog.after Prod.fst (s.table.keys runId) s.cursor)
    rw [hbefore] at hsplit
    obtain ⟨key, hkey, hid⟩ := List.mem_map.mp hdue
    cases hrest : (CursorLog.after Prod.fst (s.table.keys runId) s.cursor).dropWhile
        fun key : String × Nat => decide (key.1 ≠ event.eventId) with
    | nil =>
        rw [List.dropWhile_eq_nil_iff] at hrest
        exact absurd hid (of_decide_eq_true (hrest key hkey))
    | cons first rest =>
        have hfirst : first.1 = event.eventId := by
          have hhead := List.head?_dropWhile_not (fun key : String × Nat =>
            decide (key.1 ≠ event.eventId)) (CursorLog.after Prod.fst (s.table.keys runId) s.cursor)
          rw [hrest, List.head?_cons] at hhead
          simpa using hhead
        have hmem : first ∈ s.table.keys runId := by
          refine hsub ?_
          rw [← hsplit, hrest]
          exact List.mem_append_right _ List.mem_cons_self
        obtain ⟨row, hrow, -, hrowkey⟩ := RunEventTable.mem_keys.mp hmem
        have hrowid : row.eventId = event.eventId := by
          rw [← hfirst, ← hrowkey]
        have hsame : (event.eventId, s.table.sequenceFor event) = first := by
          rw [← hrowkey, RunEventTable.sequenceFor_eq hrow hrowid, hrowid]
        rw [RunEventTable.append_keys_again hfits.1 hrun hrow hrowid, hsame, ← hsplit, hrest]
        refine List.prefix_append_right_inj _ |>.mpr ?_
        exact ⟨rest, rfl⟩

end Append

/-! ### Steps and runs -/

/-- **One step that is met leaves the stream right.** -/
theorem Steady.step {s : RunEventStream} (hs : s.Steady runId) {action : StreamAction isDatetime}
    (hmeets : s.Meets isDatetime runId action) :
    (RunEventStream.step isDatetime runId s action).Steady runId := by
  cases action with
  | append parsed =>
      obtain ⟨hfits, hnext⟩ := hmeets
      have happended := hs.append parsed.eventId_ne hfits
      have hstep : RunEventStream.step isDatetime runId s (.append parsed)
          = if s.phase = .live ∧ parsed.val.runId = runId then
              ({ s with table := s.table.append parsed.val } : RunEventStream).onEvent
                ((s.table.append parsed.val).rowToEnvelope parsed.val.runId
                  (s.table.rowFor parsed.val))
            else { s with table := s.table.append parsed.val } := rfl
      rw [hstep]
      by_cases hlive : s.phase = .live ∧ parsed.val.runId = runId
      · rw [if_pos hlive]
        unfold onEvent
        by_cases hseen : some parsed.val.eventId = s.cursorEventId
        · exact (if_pos hseen).symm ▸ happended
        · have hopen : s.phase ≠ .closed := by
            rw [hlive.1]
            exact StreamPhase.noConfusion
          have hsend : (({ s with table := s.table.append parsed.val } : RunEventStream).sendEnvelope
              ((s.table.append parsed.val).rowToEnvelope parsed.val.runId
                (s.table.rowFor parsed.val))).Steady runId := by
            refine happended.send hopen ?_
            rw [published_key hs parsed.eventId_ne hfits.1 hlive.2]
            rcases hnext hlive.1 hlive.2 with hlast | ⟨hbefore, hthere⟩
            · exact absurd hlast.symm hseen
            · exact hs.next hfits hlive.2 hbefore hthere
          exact (if_neg hseen).symm ▸ hsend
      · rw [if_neg hlive]
        exact happended
  | appendElsewhere parsed => exact hs.append parsed.eventId_ne hmeets
  | start cursor =>
      unfold RunEventStream.step
      by_cases hclosed : s.phase = .closed
      · simp only [if_pos hclosed]
        have hsent := (hs.idle hclosed).1
        have hstarted : ({ s with cursor, cursorEventId := cursor, phase := .replaying, pending := [] }
            : RunEventStream).Steady runId := by
          refine ⟨hs.numbered, fun hphase => (by cases hphase), ?_, ?_,
            fun replay hmem => (by cases hmem)⟩
          · simp only [hsent, List.map_nil]
            exact List.nil_prefix
          · simp only [hsent, List.map_nil, CursorLog.position_nil]
        refine ⟨hs.numbered, fun hphase => (by cases hphase), hstarted.sent, hstarted.position, ?_⟩
        intro replay hmem
        rw [List.mem_singleton.mp hmem]
        refine ⟨?_, Or.inl rfl⟩
        have hread := hstarted.readReplay_keys isDatetime
        exact hread ▸ List.take_prefix _ _
      · simp only [if_neg hclosed]
        exact hs
  | deliver =>
      unfold RunEventStream.step
      cases hpending : s.pending with
      | nil => exact hs
      | cons replay rest =>
          obtain ⟨hlimit, hcursor⟩ := hmeets replay (by rw [hpending]; rfl)
          have hopen : s.phase ≠ .closed := by
            intro hclosed
            have hnone := (hs.idle hclosed).2
            rw [hpending] at hnone
            exact List.cons_ne_nil _ _ hnone
          have hphase : (if s.phase = .replaying then .replayed else s.phase) ≠ StreamPhase.closed := by
            split
            · exact StreamPhase.noConfusion
            · exact hopen
          have htaken : ({ s with pending := rest, phase := if s.phase = .replaying then .replayed
              else s.phase } : RunEventStream).Steady runId := by
            refine ⟨hs.numbered, fun hclosed => absurd hclosed hphase, hs.sent, hs.position, ?_⟩
            intro replay' hmem
            exact hs.pending replay' (by rw [hpending]; exact List.mem_cons_of_mem _ hmem)
          simp only [sendReplay]
          rw [if_neg (by omega)]
          refine htaken.sendAll hphase ?_
          rcases hcursor with hnone | hsame
          · rw [hnone, List.map_nil, List.append_nil]
            exact hs.sent
          · have hevents := (hs.pending replay (by rw [hpending]; exact List.mem_cons_self)).1
            rw [hsame, hs.position] at hevents
            have hwhole := CursorLog.after_position (s.table.keys_nodup runId) hs.sent
            rw [← hwhole]
            exact (List.prefix_append_right_inj _).mpr hevents
  | subscribe =>
      unfold RunEventStream.step
      by_cases hreplayed : s.phase = .replayed
      · simp only [if_pos hreplayed]
        exact ⟨hs.numbered, fun hphase => (by cases hphase), hs.sent, hs.position, hs.pending⟩
      · simp only [if_neg hreplayed]
        exact hs
  | poll =>
      unfold RunEventStream.step
      by_cases hlive : s.phase = .live
      · simp only [if_pos hlive]
        refine ⟨hs.numbered, ?_, hs.sent, hs.position, ?_⟩
        · intro hclosed
          have hphase : s.phase = .closed := hclosed
          rw [hlive] at hphase
          exact StreamPhase.noConfusion hphase
        · intro replay hmem
          rcases List.mem_append.mp hmem with hmem | hmem
          · exact hs.pending replay hmem
          · rw [List.mem_singleton.mp hmem]
            have hread := hs.readReplay_keys isDatetime
            refine ⟨?_, hs.cursorEventId_mem⟩
            rw [hread]
            exact List.take_prefix _ _
      · simp only [if_neg hlive]
        exact hs

theorem initial_steady (runtime : String → RunRuntime) : (initial runtime).Steady runId := by
  refine ⟨⟨List.Pairwise.nil, fun row hrow => (by cases hrow)⟩, fun _ => ⟨rfl, rfl⟩, ?_, rfl,
    fun replay hreplay => (by cases hreplay)⟩
  exact List.nil_prefix

/-- Every state of a run that is met is right. -/
theorem Steady.run {actions : List (StreamAction isDatetime)} {s : RunEventStream}
    (hs : s.Steady runId) (hmet : Along isDatetime runId (Meets isDatetime runId) actions s)
    {done : List (StreamAction isDatetime)} (hdone : done <+: actions) :
    (run isDatetime runId done s).Steady runId := by
  induction actions generalizing s done with
  | nil =>
      rw [List.prefix_nil.mp hdone]
      exact hs
  | cons action rest ih =>
      rcases List.prefix_cons_iff.mp hdone with rfl | ⟨done', rfl, hdone'⟩
      · exact hs
      · exact ih (hs.step hmet.1) hmet.2 hdone'

/-- A stream that is right has delivered. -/
theorem Steady.delivered {s : RunEventStream} (hs : s.Steady runId) :
    s.Delivered isDatetime runId := by
  have hsub := hs.sent.sublist.trans (CursorLog.after_suffix _ _).sublist
  refine ⟨?_, ?_, ?_, ?_⟩
  · rw [hs.due_eq]
    exact hs.sent
  · have hnodup := (hsub.map Prod.fst).nodup (s.table.keys_nodup runId)
    rw [List.map_map] at hnodup
    exact hnodup
  · have hordered := (RunEventTable.numbered_iff.mp hs.numbered).1.sublist hsub
    rw [List.pairwise_map] at hordered ⊢
    exact hordered
  · intro hlive hpending hlimit
    have hread := hs.readReplay_keys isDatetime
    have hrun : RunEventStream.run isDatetime runId [.poll, .deliver] s
        = ({ s with pending := [] } : RunEventStream).sendReplay (s.readReplay isDatetime runId) := by
      have hlive' : ¬ s.phase = .replaying := by
        rw [hlive]
        exact StreamPhase.noConfusion
      simp only [RunEventStream.run, List.foldl_cons, List.foldl_nil, RunEventStream.step,
        if_pos hlive, hpending, List.nil_append, if_neg hlive']
    have hall : (s.readReplay isDatetime runId).events.map RunEventEnvelope.key
        = CursorLog.after Prod.fst (s.table.keys runId) s.cursorEventId := by
      have hlength := congrArg List.length hread
      rw [List.length_map, List.length_take] at hlength
      rw [hread, List.take_of_length_le (by omega)]
    rw [hrun, sendReplay, if_neg (by omega), sendAll_sent, List.map_append, hall, hs.position,
      hs.due_eq]
    exact CursorLog.after_position (s.table.keys_nodup runId) hs.sent

/-- **What the stream delivers.**  In every run whose steps meet the stream where it is, the
client has been sent, in every state reached, a beginning of the run's events after the cursor it
came with, each of them once and in order, and the next poll that is not too long brings the
rest. -/
theorem run_delivered {runtime : String → RunRuntime} {actions : List (StreamAction isDatetime)}
    (hmet : Along isDatetime runId (Meets isDatetime runId) actions (initial runtime))
    {done : List (StreamAction isDatetime)} (hdone : done <+: actions) :
    (run isDatetime runId done (initial runtime)).Delivered isDatetime runId :=
  ((initial_steady runtime).run hmet hdone).delivered

/-! ### One event in turn, and one that overtakes another -/

theorem firstId_ne : "a" ≠ "" := by decide

theorem secondId_ne : "b" ≠ "" := by decide

/-- The event is published as it is appended, and the poll finds nothing more. -/
def inTurn : List (StreamAction plainPlatform.isDatetime) :=
  [.start none, .deliver, .subscribe,
    .append (plainEvent "a" "2026-01-01T00:00:00.000Z" firstId_ne), .poll, .deliver]

theorem inTurn_delivered :
    (run plainPlatform.isDatetime "run" inTurn (initial fun _ => .localDev)).Delivered
      plainPlatform.isDatetime "run" := by
  refine run_delivered ?_ List.prefix_rfl
  refine ⟨trivial, ?_, trivial, ⟨⟨fun row hrow => (by cases hrow), ?_⟩, ?_⟩, trivial, ?_, trivial⟩
  · intro replay hreplay
    obtain rfl := Option.mem_some_iff.mp hreplay
    exact ⟨Nat.zero_le _, Or.inl rfl⟩
  · intro _ hcursor
    cases hcursor
  · intro _ _
    exact Or.inr ⟨rfl, Or.inl fun row hrow => (by cases hrow)⟩
  · intro replay hreplay
    obtain rfl := Option.mem_some_iff.mp hreplay
    exact ⟨Nat.zero_le _, Or.inl rfl⟩

/-- The second event is published while the first, of another process, is waiting for a poll. -/
def overtaken : List (StreamAction plainPlatform.isDatetime) :=
  [.start none, .deliver, .subscribe,
    .appendElsewhere (plainEvent "a" "2026-01-01T00:00:00.000Z" firstId_ne),
    .append (plainEvent "b" "2026-01-01T00:00:01.000Z" secondId_ne)]

theorem overtaken_not_delivered : ¬ ∀ (isDatetime : String → Bool) (runId : String)
    (runtime : String → RunRuntime) (actions : List (StreamAction isDatetime)),
    Along isDatetime runId (WithinLimit isDatetime) actions (initial runtime) →
    ∀ done, done <+: actions →
      (run isDatetime runId done (initial runtime)).Delivered isDatetime runId := by
  intro hall
  have hwithin : Along plainPlatform.isDatetime "run" (WithinLimit plainPlatform.isDatetime) overtaken
      (initial fun _ => .localDev) := by
    refine ⟨trivial, ?_, trivial, trivial, trivial, trivial⟩
    intro replay hreplay
    obtain rfl := Option.mem_some_iff.mp hreplay
    exact Nat.zero_le _
  have hfront := (hall _ "run" (fun _ => .localDev) overtaken hwithin overtaken List.prefix_rfl).inOrder
  revert hfront
  decide +kernel

end RunEventStream

end OpenLagrange
