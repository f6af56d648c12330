/-
What a reader with a cursor gets out of the two event stores.

The SQLite store numbers an event when it is inserted and never again, so its log grows and
every schedule of appends and polls is exact.  The memory store numbers the events by the
place they sort to.  Its log grows only while every event sorts behind the one appended
before it; the first event that does not moves the others, and is passed over by a cursor
that is already behind it.
-/
import OpenLagrange.Storage.RunEventLog

namespace OpenLagrange

/-! ### Sorting what is in order -/

section Sorting

variable {α : Type} {r : α → α → Prop} [DecidableRel r]

/-- A list whose neighbours are in order is sorted as it is. -/
theorem insertionSort_eq_of_isChain {l : List α} (hl : l.IsChain r) : l.insertionSort r = l := by
  induction l with
  | nil => rfl
  | cons a rest ih =>
      rw [List.insertionSort_cons, ih hl.tail]
      cases rest with
      | nil => rfl
      | cons b rest =>
          have hab : r a b := hl.rel
          rw [List.orderedInsert_cons, if_pos hab]

/-- Where the last two are out of order, sorting turns them around. -/
theorem sublist_insertionSort_append {l : List α} {k e : α} (hke : ¬ r k e) :
    [e, k].Sublist ((l ++ [k, e]).insertionSort r) := by
  induction l with
  | nil =>
      simp only [List.nil_append, List.insertionSort_cons, List.insertionSort_nil,
        List.orderedInsert_nil, List.orderedInsert_cons, if_neg hke]
      exact List.Sublist.refl _
  | cons a rest ih =>
      rw [List.cons_append, List.insertionSort_cons]
      exact ih.trans (List.sublist_orderedInsert a _)

end Sorting

/-! ### Schedules of appends and polls -/

variable {isDatetime : String → Bool} {σ : Type}

/-- A store as the log of one run. -/
def RunEventStore.cursorLog (store : RunEventStore isDatetime σ) (runId : String) :
    CursorLog.Log σ (ParsedRunEvent isDatetime) RunEventEnvelope String where
  append := store.appendRunEvent
  listing s := store.envelopes s runId
  read s cursor := store.listRunEvents s runId cursor none

/-- A schedule run from a store nothing was read from. -/
def RunEventStore.session (store : RunEventStore isDatetime σ) (runId : String) (s : σ)
    (ops : List (CursorLog.Op (ParsedRunEvent isDatetime))) : CursorLog.Session σ RunEventEnvelope :=
  CursorLog.run RunEventEnvelope.eventId (store.cursorLog runId) ops ⟨s, [], []⟩

/-- The events a schedule appends. -/
def appendedEvents (ops : List (CursorLog.Op (ParsedRunEvent isDatetime))) : List RunEvent :=
  (CursorLog.appended ops).map (·.val)

/-- At every moment of the schedule: a reader who polls then has been given every event
appended so far, once and in order; and no event has another sequence number than any it
was given out with. -/
structure Exact (store : RunEventStore isDatetime σ) (runId : String) (s : σ)
    (ops : List (CursorLog.Op (ParsedRunEvent isDatetime))) : Prop where
  delivered : ∀ done, done <+: ops →
    (store.session runId s (done ++ [.poll])).received.map (·.event) = appendedEvents done
  stable : ∀ done, done <+: ops → ∀ envelope ∈ (store.session runId s done).returned,
    ∀ now ∈ store.envelopes (store.session runId s done).store runId,
      now.eventId = envelope.eventId → now.sequence = envelope.sequence

/-- The empty cursor is no cursor, and no event has it for an id. -/
theorem eventsAfter_eq {events : List RunEventEnvelope} (hids : ∀ e ∈ events, e.eventId ≠ "")
    (cursor : Option String) :
    eventsAfter events cursor = CursorLog.after RunEventEnvelope.eventId events cursor := by
  cases cursor with
  | none => rfl
  | some cursor =>
      unfold eventsAfter
      by_cases hcursor : cursor = ""
      · subst hcursor
        rw [CursorLog.after_of_not_mem hids]
        rfl
      · have hkept : (some cursor).filter (fun c => decide (c ≠ "")) = some cursor := by
          rw [Option.filter_some, if_pos (decide_eq_true hcursor)]
        rw [hkept]

theorem ParsedRunEvent.eventId_ne (parsed : ParsedRunEvent isDatetime) : parsed.val.eventId ≠ "" := by
  have hrefined := parsed.property
  simp only [RunEvent.refined, Bool.and_eq_true, nonempty_iff] at hrefined
  exact hrefined.1.1.1.1

/-- **A growing log of a run is exact.** -/
theorem exact_of_grows {store : RunEventStore isDatetime σ} {runId : String} {s : σ}
    {ops : List (CursorLog.Op (ParsedRunEvent isDatetime))}
    (hempty : store.envelopes s runId = [])
    (hevent : ∀ s parsed, (store.appendRunEvent s parsed).2.event = parsed.val)
    (heventId : ∀ s parsed, (store.appendRunEvent s parsed).2.eventId = parsed.val.eventId)
    (hdistinct : ((appendedEvents ops).map (·.eventId)).Nodup)
    (hgrows : ∀ done, done <+: ops →
      CursorLog.Grows RunEventEnvelope.eventId (store.cursorLog runId) (done ++ [.poll]) s) :
    Exact store runId s ops := by
  have hstart : CursorLog.Faithful (store.cursorLog runId)
      (⟨s, [], []⟩ : CursorLog.Session σ RunEventEnvelope) :=
    ⟨List.nil_prefix, fun entry hentry => nomatch hentry⟩
  have hmoment : ∀ done, done <+: ops →
      CursorLog.Faithful (store.cursorLog runId) (store.session runId s done) ∧
        (store.envelopes (store.session runId s done).store runId).map RunEventEnvelope.event
          = appendedEvents done ∧
        ((store.envelopes (store.session runId s done).store runId).map
          RunEventEnvelope.eventId).Nodup ∧
        ∀ cursor, store.listRunEvents (store.session runId s done).store runId cursor none
          = CursorLog.after RunEventEnvelope.eventId
              (store.envelopes (store.session runId s done).store runId) cursor := by
    intro done hdone
    obtain ⟨hgrown, hpoll⟩ := (CursorLog.grows_append
      (s := (⟨s, [], []⟩ : CursorLog.Session σ RunEventEnvelope))).mp (hgrows done hdone)
    have hevents : (store.envelopes (store.session runId s done).store runId).map
        RunEventEnvelope.event = (store.envelopes s runId).map RunEventEnvelope.event
          ++ (CursorLog.appended done).map Subtype.val :=
      CursorLog.Grows.listing_run hevent hgrown
    have hids : (store.envelopes (store.session runId s done).store runId).map
        RunEventEnvelope.eventId = (store.envelopes s runId).map RunEventEnvelope.eventId
          ++ (CursorLog.appended done).map fun parsed => parsed.val.eventId :=
      CursorLog.Grows.listing_run heventId hgrown
    rw [hempty, List.map_nil, List.nil_append] at hevents hids
    have hnodup : ((store.envelopes (store.session runId s done).store runId).map
        RunEventEnvelope.eventId).Nodup := by
      rw [hids]
      have hfront : CursorLog.appended done <+: CursorLog.appended ops := hdone.filterMap _
      rw [appendedEvents, List.map_map] at hdistinct
      exact (hfront.map _).sublist.nodup hdistinct
    exact ⟨CursorLog.run_faithful hstart hgrown hnodup, hevents, hnodup, hpoll.1⟩
  refine ⟨?_, ?_⟩
  · intro done hdone
    obtain ⟨hfaithful, hevents, hnodup, hread⟩ := hmoment done hdone
    have hreceived := (hfaithful.poll hread hnodup).1
    rw [RunEventStore.session, CursorLog.run_append]
    have hpolled : (CursorLog.step RunEventEnvelope.eventId (store.cursorLog runId)
        (store.session runId s done) .poll).received = _ := hreceived
    exact (congrArg (List.map RunEventEnvelope.event) hpolled).trans hevents
  · intro done hdone envelope henvelope now hnow hid
    obtain ⟨hfaithful, -, hnodup, -⟩ := hmoment done hdone
    have hmem := hfaithful.returned envelope henvelope
    have hsame : now = envelope := List.inj_on_of_nodup_map hnodup hnow hmem hid
    rw [hsame]

/-! ### The SQLite store -/

namespace RunEventTable

variable {table : RunEventTable} {runId : String} {event : RunEvent}

/-- The rows of a run stand in the order of their numbers, which are positive. -/
structure Numbered (table : RunEventTable) (runId : String) : Prop where
  ordered : (table.rows.filter (·.runId = runId)).Pairwise (·.sequence < ·.sequence)
  positive : ∀ row ∈ table.rows, row.runId = runId → 0 < row.sequence ∧ row.eventId ≠ ""

theorem le_foldl_max {l : List Nat} {a x : Nat} (hx : x ≤ a ∨ x ∈ l) : x ≤ l.foldl max a := by
  induction l generalizing a with
  | nil =>
      rcases hx with hx | hx
      · exact hx
      · cases hx
  | cons b rest ih =>
      refine ih ?_
      rcases hx with hx | hx
      · exact Or.inl (hx.trans (le_max_left a b))
      · rcases List.mem_cons.mp hx with rfl | hx
        · exact Or.inl (le_max_right a x)
        · exact Or.inr hx

/-- A new event gets a row of its own, numbered higher than every row of its run. -/
theorem append_fresh (hfresh : ∀ row ∈ table.rows, row.eventId ≠ event.eventId) :
    (table.append event).rows = table.rows ++ [table.rowFor event] ∧
      ∀ row ∈ table.rows, row.runId = event.runId → row.sequence < table.sequenceFor event := by
  refine ⟨?_, ?_⟩
  · have hnone : table.rows.any (fun row => decide (row.eventId = event.eventId)) = false := by
      rw [List.any_eq_false]
      intro row hrow
      simpa using hfresh row hrow
    simp only [append, upsert, hnone, Bool.false_eq_true, if_false]
  · intro row hrow hrun
    have hnone : table.rows.find? (fun row => decide (row.eventId = event.eventId)) = none := by
      rw [List.find?_eq_none]
      intro row hrow
      simpa using hfresh row hrow
    simp only [sequenceFor, hnone]
    have hmem : row.sequence ∈ (table.rows.filter fun row => decide (row.runId = event.runId)).map
        (·.sequence) :=
      List.mem_map_of_mem (List.mem_filter.mpr ⟨hrow, decide_eq_true hrun⟩)
    exact Nat.lt_succ_of_le (le_foldl_max (Or.inr hmem))

/-- The numbers give the order the rows stand in. -/
theorem Numbered.runRows_eq (hnumbered : table.Numbered runId) :
    table.runRows runId = table.rows.filter (·.runId = runId) := by
  refine List.Pairwise.insertionSort_eq ?_
  refine hnumbered.ordered.imp ?_
  intro a b hab
  exact decide_eq_true (Or.inl hab)

theorem Numbered.append (hnumbered : table.Numbered runId) (hrun : event.runId = runId)
    (hid : event.eventId ≠ "") (hfresh : ∀ row ∈ table.rows, row.eventId ≠ event.eventId) :
    (table.append event).Numbered runId ∧
      (table.append event).runRows runId = table.runRows runId ++ [table.rowFor event] := by
  obtain ⟨hrows, hhigher⟩ := append_fresh hfresh
  have hmine : (table.rowFor event).runId = runId := hrun
  have hfilter : (table.append event).rows.filter (·.runId = runId)
      = table.rows.filter (·.runId = runId) ++ [table.rowFor event] := by
    rw [hrows, List.filter_append]
    simp [hmine]
  have hnumbered' : (table.append event).Numbered runId := by
    refine ⟨?_, ?_⟩
    · rw [hfilter, List.pairwise_append]
      refine ⟨hnumbered.ordered, List.pairwise_singleton _ _, ?_⟩
      intro row hrow row' hrow'
      obtain ⟨hmem, hsame⟩ := List.mem_filter.mp hrow
      rw [List.mem_singleton.mp hrow']
      exact hhigher row hmem ((of_decide_eq_true hsame).trans hrun.symm)
    · intro row hrow hsame
      rw [hrows] at hrow
      rcases List.mem_append.mp hrow with hrow | hrow
      · exact hnumbered.positive row hrow hsame
      · rw [List.mem_singleton.mp hrow]
        refine ⟨?_, hid⟩
        by_contra hzero
        have hnone : table.rows.find? (fun row => decide (row.eventId = event.eventId)) = none := by
          rw [List.find?_eq_none]
          intro row hrow
          simpa using hfresh row hrow
        simp [rowFor, sequenceFor, hnone] at hzero
  refine ⟨hnumbered', ?_⟩
  rw [hnumbered'.runRows_eq, hnumbered.runRows_eq, hfilter]

end RunEventTable

/-- **The log of the SQLite store grows** whenever the events appended to a run are new. -/
theorem sqlite_grows {runId : String} {table : RunEventTable} (hnumbered : table.Numbered runId)
    {ops : List (CursorLog.Op (ParsedRunEvent isDatetime))}
    (hrun : ∀ event ∈ appendedEvents ops, event.runId = runId)
    (hdistinct : ((appendedEvents ops).map (·.eventId)).Nodup)
    (hfresh : ∀ event ∈ appendedEvents ops, ∀ row ∈ table.rows, row.eventId ≠ event.eventId) :
    CursorLog.Grows RunEventEnvelope.eventId ((sqliteRunEventStore isDatetime).cursorLog runId) ops
      table := by
  induction ops generalizing table with
  | nil => trivial
  | cons op ops ih =>
      cases op with
      | poll =>
          refine ⟨?_, ih hnumbered hrun hdistinct hfresh⟩
          intro cursor
          refine eventsAfter_eq ?_ cursor
          intro envelope henvelope
          obtain ⟨row, hrow, rfl⟩ := List.mem_map.mp henvelope
          rw [hnumbered.runRows_eq] at hrow
          obtain ⟨hmem, hsame⟩ := List.mem_filter.mp hrow
          exact (hnumbered.positive row hmem (of_decide_eq_true hsame)).2
      | append parsed =>
          have hcons : appendedEvents (.append parsed :: ops) = parsed.val :: appendedEvents ops := rfl
          rw [hcons] at hrun hdistinct hfresh
          rw [List.map_cons, List.nodup_cons] at hdistinct
          have hmine := hrun parsed.val List.mem_cons_self
          have hnew := hfresh parsed.val List.mem_cons_self
          obtain ⟨hnumbered', hrows⟩ := hnumbered.append hmine parsed.eventId_ne hnew
          refine ⟨?_, ?_⟩
          · have hlisting : ((table.append parsed.val).runRows runId).map (table.rowToEnvelope runId)
                = (table.runRows runId).map (table.rowToEnvelope runId)
                  ++ [table.rowToEnvelope runId (table.rowFor parsed.val)] := by
              rw [hrows, List.map_append]
              rfl
            rw [← hmine] at hlisting ⊢
            exact hlisting
          · refine ih hnumbered' (fun event he => hrun event (List.mem_cons_of_mem _ he))
              hdistinct.2 ?_
            intro event he row hrow
            have hmem : row ∈ (table.append parsed.val).rows := hrow
            rw [(RunEventTable.append_fresh hnew).1] at hmem
            rcases List.mem_append.mp hmem with hrow | hrow
            · exact hfresh event (List.mem_cons_of_mem _ he) row hrow
            · rw [List.mem_singleton.mp hrow]
              intro hid
              refine hdistinct.1 ?_
              have hparsed : parsed.val.eventId = event.eventId := hid
              rw [hparsed]
              exact List.mem_map_of_mem he

/-! ### The memory store -/

section Memory

variable {P : Platform} {runId : String}

/-- Sorting leaves events in order as they are. -/
theorem sortEvents_eq {events : List RunEvent} (hordered : events.IsChain fun a b => eventLe P a b) :
    sortEvents P events = events := insertionSort_eq_of_isChain hordered

/-- The place of the last of some events with different ids. -/
theorem sequenceIn_append {events : List RunEvent} {event : RunEvent}
    (hnew : ∀ item ∈ events, item.eventId ≠ event.eventId) :
    sequenceIn (events ++ [event]) event = events.length + 1 := by
  have hnone : events.findIdx? (fun item => decide (item.eventId = event.eventId)) = none := by
    rw [List.findIdx?_eq_none_iff]
    intro item hitem
    exact decide_eq_false (hnew item hitem)
  simp [sequenceIn, List.findIdx?_append, hnone]

/-- An event that is new is added to the others before they are sorted. -/
theorem appendEvent_new {events : List RunEvent} {event : RunEvent}
    (hnew : ∀ item ∈ events, item.eventId ≠ event.eventId) :
    appendEvent P events event = sortEvents P (events ++ [event]) := by
  have hnone : events.any (fun item => decide (item.eventId = event.eventId)) = false := by
    rw [List.any_eq_false]
    intro item hitem
    simpa using hnew item hitem
  simp only [appendEvent, hnone, Bool.false_eq_true, if_false]

/-- The envelopes of events in order are numbered as the events stand. -/
theorem envelopes_append (events : List RunEvent) (event : RunEvent) :
    ((events ++ [event]).zipIdx.map fun (event, index) => envelopeFor event (index + 1))
      = (events.zipIdx.map fun (event, index) => envelopeFor event (index + 1))
        ++ [envelopeFor event (events.length + 1)] := by
  simp [List.zipIdx_append]

/-- **The log of the memory store grows** while every event sorts behind the one before. -/
theorem memory_grows {log : String → List RunEvent} {events : List RunEvent}
    (hlog : log runId = events) {ops : List (CursorLog.Op (ParsedRunEvent P.isDatetime))}
    (hrun : ∀ event ∈ appendedEvents ops, event.runId = runId)
    (hids : ∀ event ∈ events, event.eventId ≠ "")
    (hdistinct : ((events ++ appendedEvents ops).map (·.eventId)).Nodup)
    (hordered : (events ++ appendedEvents ops).IsChain fun a b => eventLe P a b) :
    CursorLog.Grows RunEventEnvelope.eventId ((inMemoryRunEventStore P).cursorLog runId) ops log := by
  induction ops generalizing log events with
  | nil => trivial
  | cons op ops ih =>
      cases op with
      | poll =>
          refine ⟨?_, ih hlog hrun hids hdistinct hordered⟩
          intro cursor
          refine eventsAfter_eq ?_ cursor
          intro envelope henvelope
          obtain ⟨⟨event, index⟩, hmem, rfl⟩ := List.mem_map.mp henvelope
          have hevent : event ∈ sortEvents P (log runId) := List.fst_mem_of_mem_zipIdx hmem
          rw [hlog] at hevent
          exact hids event ((List.mem_insertionSort _).mp hevent)
      | append parsed =>
          have hcons : appendedEvents (.append parsed :: ops) = parsed.val :: appendedEvents ops := rfl
          rw [hcons] at hrun hdistinct hordered
          have hmine := hrun parsed.val List.mem_cons_self
          have hsplit : events ++ parsed.val :: appendedEvents ops
              = (events ++ [parsed.val]) ++ appendedEvents ops := by
            rw [List.append_assoc, List.singleton_append]
          rw [hsplit] at hdistinct hordered
          have hnew : ∀ item ∈ events, item.eventId ≠ parsed.val.eventId := by
            intro item hitem hid
            rw [List.map_append, List.nodup_append] at hdistinct
            have hnodup := hdistinct.1
            rw [List.map_append, List.nodup_append] at hnodup
            exact hnodup.2.2 _ (List.mem_map_of_mem hitem) _ (by simp) hid
          have hbefore : events.IsChain fun a b => eventLe P a b :=
            hordered.left_of_append.left_of_append
          have hsorted : appendEvent P (log parsed.val.runId) parsed.val = events ++ [parsed.val] := by
            rw [hmine, hlog, appendEvent_new hnew, sortEvents_eq hordered.left_of_append]
          have hafter : ((inMemoryRunEventStore P).appendRunEvent log parsed).1 runId
              = events ++ [parsed.val] := by
            simp only [inMemoryRunEventStore]
            rw [hsorted, hmine, Function.update_self]
          refine ⟨?_, ?_⟩
          · simp only [RunEventStore.cursorLog]
            have hreturned : ((inMemoryRunEventStore P).appendRunEvent log parsed).2
                = envelopeFor parsed.val (events.length + 1) := by
              simp only [inMemoryRunEventStore]
              rw [hsorted, sequenceIn_append hnew]
            have hlisting : ∀ log' : String → List RunEvent,
                (inMemoryRunEventStore P).envelopes log' runId
                  = (sortEvents P (log' runId)).zipIdx.map
                      fun (event, index) => envelopeFor event (index + 1) := fun _ => rfl
            rw [hreturned, hlisting, hlisting, hafter, hlog, sortEvents_eq hbefore,
              sortEvents_eq hordered.left_of_append, envelopes_append]
          · refine ih hafter (fun event he => hrun event (List.mem_cons_of_mem _ he)) ?_ hdistinct
              hordered
            intro event he
            rcases List.mem_append.mp he with he | he
            · exact hids event he
            · rw [List.mem_singleton.mp he]
              exact parsed.eventId_ne

/-- An event that is in the first part has its place there. -/
theorem sequenceIn_le {first second : List RunEvent} {event : RunEvent} (hmem : event ∈ first) :
    sequenceIn (first ++ second) event ≤ first.length := by
  unfold sequenceIn
  rw [List.findIdx?_append]
  cases hfound : first.findIdx? fun item => decide (item.eventId = event.eventId) with
  | none =>
      rw [List.findIdx?_eq_none_iff] at hfound
      exact absurd rfl (of_decide_eq_false (hfound event hmem))
  | some index =>
      obtain ⟨hindex, -⟩ := List.findIdx?_eq_some_iff_getElem.mp hfound
      exact hindex

/-- Where no event changes its place when one is added, that one sorts to the end. -/
theorem isChain_of_stable {events : List RunEvent} {event : RunEvent}
    (hordered : events.IsChain fun a b => eventLe P a b)
    (hdistinct : ((events ++ [event]).map (·.eventId)).Nodup)
    (hstay : ∀ (index place : Nat) (item : RunEvent), events[index]? = some item →
      (sortEvents P (sortEvents P (events ++ [event])))[place]? = some item → place = index)
    (hnumber : ∀ place : Nat, (sortEvents P (sortEvents P (events ++ [event])))[place]? = some event →
      sequenceIn (sortEvents P (events ++ [event])) event = place + 1) :
    (events ++ [event]).IsChain fun a b => eventLe P a b := by
  have hperm : (sortEvents P (events ++ [event])).Perm (events ++ [event]) :=
    List.perm_insertionSort _ _
  have hperm' : (sortEvents P (sortEvents P (events ++ [event]))).Perm (events ++ [event]) :=
    (List.perm_insertionSort _ _).trans hperm
  have hlength := hperm.length_eq
  have hlength' := hperm'.length_eq
  rw [List.length_append, List.length_singleton] at hlength hlength'
  -- the place behind the others is free for the new event only
  have hlast : (sortEvents P (sortEvents P (events ++ [event])))[events.length]? = some event := by
    have hlt : events.length < (sortEvents P (sortEvents P (events ++ [event]))).length := by omega
    rw [List.getElem?_eq_getElem hlt]
    have hmem := hperm'.subset (List.getElem_mem hlt)
    rcases List.mem_append.mp hmem with hold | hnew
    · obtain ⟨index, hindex, hitem⟩ := List.getElem_of_mem hold
      have hplace := hstay index events.length _ (by rw [List.getElem?_eq_getElem hindex, hitem])
        (List.getElem?_eq_getElem hlt)
      omega
    · rw [List.mem_singleton.mp hnew]
  have hsequence := hnumber _ hlast
  rcases List.eq_nil_or_concat events with rfl | ⟨before, item, rfl⟩
  · exact List.IsChain.singleton _
  rw [List.concat_eq_append] at *
  rw [List.isChain_append]
  refine ⟨hordered, List.IsChain.singleton _, ?_⟩
  intro x hx y hy
  rw [List.getLast?_concat, Option.mem_some_iff] at hx
  rw [List.head?_cons, Option.mem_some_iff] at hy
  subst hx hy
  by_contra hout
  -- otherwise sorting put the new event before the last one
  have hsub : [event, item].Sublist (sortEvents P (before ++ [item] ++ [event])) := by
    rw [List.append_assoc, List.singleton_append]
    exact sublist_insertionSort_append hout
  obtain ⟨first, second, hsplit, hfirst, hsecond⟩ := List.cons_sublist_iff.mp hsub
  have hplace := @sequenceIn_le first second event hfirst
  rw [← hsplit, hsequence] at hplace
  have hnonempty := hsecond.length_le
  rw [hsplit, List.length_append] at hlength
  simp only [List.length_singleton] at hnonempty
  omega

/-- **An exact schedule of the memory store is in order.**  What is stored, how it is ordered,
and what numbers were given out are carried along. -/
theorem exact_memory_ordered {log : String → List RunEvent} (hlog : log runId = [])
    {ops : List (CursorLog.Op (ParsedRunEvent P.isDatetime))}
    (hrun : ∀ event ∈ appendedEvents ops, event.runId = runId)
    (hdistinct : ((appendedEvents ops).map (·.eventId)).Nodup)
    (hexact : Exact (inMemoryRunEventStore P) runId log ops)
    {done : List (CursorLog.Op (ParsedRunEvent P.isDatetime))} (hdone : done <+: ops) :
    ((inMemoryRunEventStore P).session runId log done).store runId = appendedEvents done ∧
      ((appendedEvents done).IsChain fun a b => eventLe P a b) ∧
      ∀ (index : Nat) (event : RunEvent), (appendedEvents done)[index]? = some event →
        ∃ envelope ∈ ((inMemoryRunEventStore P).session runId log done).returned,
          envelope.eventId = event.eventId ∧ envelope.sequence = index + 1 := by
  induction done using List.reverseRecOn with
  | nil =>
      refine ⟨hlog, List.IsChain.nil, ?_⟩
      intro index event hevent
      cases hevent
  | append_singleton done op ih =>
      obtain ⟨hstored, hordered, hreturned⟩ := ih ((List.prefix_append _ _).trans hdone)
      have hstep : (inMemoryRunEventStore P).session runId log (done ++ [op])
          = CursorLog.step RunEventEnvelope.eventId ((inMemoryRunEventStore P).cursorLog runId)
              ((inMemoryRunEventStore P).session runId log done) op :=
        CursorLog.run_append _ _ _ _ _
      cases op with
      | poll =>
          have hsame : appendedEvents (done ++ [.poll]) = appendedEvents done := by
            simp [appendedEvents, CursorLog.appended]
          rw [hstep, hsame]
          refine ⟨hstored, hordered, ?_⟩
          intro index event hevent
          obtain ⟨envelope, hmem, hfacts⟩ := hreturned index event hevent
          exact ⟨envelope, List.mem_append_left _ hmem, hfacts⟩
      | append parsed =>
          have hmore : appendedEvents (done ++ [.append parsed])
              = appendedEvents done ++ [parsed.val] := by
            simp [appendedEvents, CursorLog.appended]
          have hfront : appendedEvents (done ++ [.append parsed]) <+: appendedEvents ops :=
            (hdone.filterMap _).map _
          have hnodup : ((appendedEvents done ++ [parsed.val]).map (·.eventId)).Nodup := by
            rw [← hmore]
            exact (hfront.map _).sublist.nodup hdistinct
          have hmine : parsed.val.runId = runId := by
            refine hrun _ (hfront.subset ?_)
            rw [hmore]
            exact List.mem_append_right _ (List.mem_singleton_self _)
          have hnew : ∀ item ∈ appendedEvents done, item.eventId ≠ parsed.val.eventId := by
            intro item hitem hid
            rw [List.map_append, List.nodup_append] at hnodup
            exact hnodup.2.2 _ (List.mem_map_of_mem hitem) _ (by simp) hid
          have hafter : ((inMemoryRunEventStore P).session runId log
              (done ++ [.append parsed])).store runId
                = sortEvents P (appendedEvents done ++ [parsed.val]) := by
            rw [hstep]
            simp only [CursorLog.step, RunEventStore.cursorLog, inMemoryRunEventStore] at hstored ⊢
            rw [hmine, Function.update_self, hstored, appendEvent_new hnew]
          have hout : ((inMemoryRunEventStore P).session runId log
              (done ++ [.append parsed])).returned
                = ((inMemoryRunEventStore P).session runId log done).returned
                  ++ [envelopeFor parsed.val (sequenceIn
                      (sortEvents P (appendedEvents done ++ [parsed.val])) parsed.val)] := by
            rw [hstep]
            simp only [CursorLog.step, RunEventStore.cursorLog, inMemoryRunEventStore] at hstored ⊢
            rw [hmine, hstored, appendEvent_new hnew]
          have hlisted : ∀ (place : Nat) (item : RunEvent),
              (sortEvents P (sortEvents P (appendedEvents done ++ [parsed.val])))[place]? = some item →
              envelopeFor item (place + 1) ∈ (inMemoryRunEventStore P).envelopes
                ((inMemoryRunEventStore P).session runId log (done ++ [.append parsed])).store
                runId := by
            intro place item hitem
            have hmem : (item, place) ∈
                (sortEvents P (sortEvents P (appendedEvents done ++ [parsed.val]))).zipIdx := by
              rw [List.mem_zipIdx_iff_getElem?]
              exact hitem
            have henvelope := List.mem_map_of_mem (f := fun (event, index) =>
              envelopeFor event (index + 1)) hmem
            rw [← hafter] at henvelope
            exact henvelope
          have hstable := hexact.stable _ hdone
          have hchain : (appendedEvents done ++ [parsed.val]).IsChain fun a b => eventLe P a b := by
            refine isChain_of_stable hordered hnodup ?_ ?_
            · intro index place item hitem hplace
              obtain ⟨envelope, hmem, hid, hsequence⟩ := hreturned index item hitem
              have hgiven := hstable envelope (by rw [hout]; exact List.mem_append_left _ hmem) _
                (hlisted place item hplace) hid.symm
              rw [hsequence] at hgiven
              simp only [envelopeFor] at hgiven
              omega
            · intro place hplace
              have hgiven := hstable (envelopeFor parsed.val (sequenceIn
                  (sortEvents P (appendedEvents done ++ [parsed.val])) parsed.val))
                (by rw [hout]; exact List.mem_append_right _ (List.mem_singleton_self _)) _
                (hlisted place parsed.val hplace) rfl
              have hpositive : 0 < sequenceIn (sortEvents P (appendedEvents done ++ [parsed.val]))
                  parsed.val := by
                have hmem : parsed.val ∈ sortEvents P (appendedEvents done ++ [parsed.val]) :=
                  (List.mem_insertionSort _).mpr (List.mem_append_right _ (List.mem_singleton_self _))
                unfold sequenceIn
                split
                · exact Nat.succ_pos _
                · rename_i hnone
                  rw [List.findIdx?_eq_none_iff] at hnone
                  exact absurd rfl (of_decide_eq_false (hnone _ hmem))
              simp only [envelopeFor] at hgiven
              omega
          refine ⟨?_, ?_, ?_⟩
          · rw [hafter, hmore, sortEvents_eq hchain]
          · rw [hmore]
            exact hchain
          · intro index event hevent
            rw [hmore] at hevent
            rw [hout, sortEvents_eq hchain, sequenceIn_append hnew]
            rcases Nat.lt_or_ge index (appendedEvents done).length with hlt | hge
            · rw [List.getElem?_append_left hlt] at hevent
              obtain ⟨envelope, hmem, hfacts⟩ := hreturned index event hevent
              exact ⟨envelope, List.mem_append_left _ hmem, hfacts⟩
            · rw [List.getElem?_append_right hge] at hevent
              have hindex : index = (appendedEvents done).length := by
                have hsome := List.getElem?_eq_some_iff.mp hevent
                obtain ⟨hlt, -⟩ := hsome
                simp only [List.length_singleton] at hlt
                omega
              subst hindex
              rw [Nat.sub_self, List.getElem?_cons_zero, Option.some.injEq] at hevent
              subst hevent
              refine ⟨_, List.mem_append_right _ (List.mem_singleton_self _), rfl, ?_⟩
              simp only [envelopeFor]
              omega

end Memory

/-! ### Both stores -/

/-- A poll at the end appends nothing. -/
theorem appendedEvents_poll (ops : List (CursorLog.Op (ParsedRunEvent isDatetime))) :
    appendedEvents (ops ++ [.poll]) = appendedEvents ops := by
  simp [appendedEvents, CursorLog.appended]

theorem appendedEvents_prefix {done ops : List (CursorLog.Op (ParsedRunEvent isDatetime))}
    (hdone : done <+: ops) : appendedEvents done <+: appendedEvents ops :=
  (hdone.filterMap _).map _

/-- **Reading with a cursor.**  Over every schedule of appends to one run, of events with
different ids, and polls: the SQLite store is exact, whatever else is in its table; the memory
store is exact if and only if no event sorts before the one appended just before it. -/
theorem runEventStores_exact {P : Platform} {runId : String}
    {ops : List (CursorLog.Op (ParsedRunEvent P.isDatetime))}
    (hrun : ∀ event ∈ appendedEvents ops, event.runId = runId)
    (hdistinct : ((appendedEvents ops).map (·.eventId)).Nodup) :
    (∀ table : RunEventTable, (∀ row ∈ table.rows, row.runId ≠ runId) →
        (∀ event ∈ appendedEvents ops, ∀ row ∈ table.rows, row.eventId ≠ event.eventId) →
        Exact (sqliteRunEventStore P.isDatetime) runId table ops) ∧
      ∀ log : String → List RunEvent, log runId = [] →
        (Exact (inMemoryRunEventStore P) runId log ops ↔
          (appendedEvents ops).IsChain fun a b => eventLe P a b) := by
  refine ⟨?_, ?_⟩
  · intro table hnone hfresh
    have hnorows : table.rows.filter (fun row => decide (row.runId = runId)) = [] := by
      rw [List.filter_eq_nil_iff]
      intro row hrow
      simpa using hnone row hrow
    have hnumbered : table.Numbered runId := by
      refine ⟨by rw [hnorows]; exact List.Pairwise.nil, ?_⟩
      intro row hrow hsame
      exact absurd hsame (hnone row hrow)
    refine exact_of_grows ?_ (fun _ _ => rfl) (fun _ _ => rfl) hdistinct ?_
    · simp [sqliteRunEventStore, RunEventTable.runRows, hnorows]
    · intro done hdone
      have hsub := ( appendedEvents_prefix hdone).subset
      refine sqlite_grows hnumbered ?_ ?_ ?_
      · rw [appendedEvents_poll]
        exact fun event he => hrun event (hsub he)
      · rw [appendedEvents_poll]
        exact (( appendedEvents_prefix hdone).map _).sublist.nodup hdistinct
      · rw [appendedEvents_poll]
        exact fun event he => hfresh event (hsub he)
  · intro log hlog
    refine ⟨?_, ?_⟩
    · intro hexact
      exact (exact_memory_ordered hlog hrun hdistinct hexact List.prefix_rfl).2.1
    · intro hordered
      refine exact_of_grows ?_ (fun _ _ => rfl) (fun _ _ => rfl) hdistinct ?_
      · simp [inMemoryRunEventStore, hlog, sortEvents]
      · intro done hdone
        have hsub := ( appendedEvents_prefix hdone).subset
        refine memory_grows hlog ?_ (fun event he => nomatch he) ?_ ?_
        · rw [appendedEvents_poll]
          exact fun event he => hrun event (hsub he)
        · rw [List.nil_append, appendedEvents_poll]
          exact (( appendedEvents_prefix hdone).map _).sublist.nodup hdistinct
        · rw [List.nil_append, appendedEvents_poll]
          exact hordered.prefix ( appendedEvents_prefix hdone)

/-! ### A schedule the memory store fails -/

/-- A platform that compares texts by their characters. -/
def plainPlatform : Platform where
  sha256 := id
  localeCompare := compare
  isDatetime := fun _ => true
  schemaIssues := fun _ => []
  renderPlanfileMarkdown := fun _ => ""
  registry := ⟨[]⟩

def plainEvent (eventId timestamp : String) (hid : eventId ≠ "") :
    ParsedRunEvent plainPlatform.isDatetime :=
  ⟨⟨eventId, "run", "plan", timestamp, .runStarted⟩, by
    simp [RunEvent.refined, RunEventBody.refined, plainPlatform, hid]⟩

/-- One event and a poll: the empty SQLite store is exact, and the memory store as well if one
event is in order. -/
theorem plainEvent_exact :
    Exact (sqliteRunEventStore plainPlatform.isDatetime) "run" ⟨[], List.nodup_nil, fun _ => .localDev⟩
        [.append (plainEvent "a" "2026-01-01T00:00:00.000Z" (by decide)), .poll] ∧
      (Exact (inMemoryRunEventStore plainPlatform) "run" (fun _ => [])
          [.append (plainEvent "a" "2026-01-01T00:00:00.000Z" (by decide)), .poll] ↔
        (appendedEvents [.append (plainEvent "a" "2026-01-01T00:00:00.000Z" (by decide)),
          .poll]).IsChain fun a b => eventLe plainPlatform a b) := by
  obtain ⟨hsqlite, hmemory⟩ := @runEventStores_exact plainPlatform "run"
    [.append (plainEvent "a" "2026-01-01T00:00:00.000Z" (by decide)), .poll] (by decide) (by decide)
  exact ⟨hsqlite _ (fun row hrow => nomatch hrow) (fun event _ row hrow => nomatch hrow),
    hmemory _ rfl⟩

/-- The second event is a second older than the first, which was read already. -/
def lateSchedule : List (CursorLog.Op (ParsedRunEvent plainPlatform.isDatetime)) :=
  [.append (plainEvent "a" "2026-01-01T00:00:01.000Z" (by decide)), .poll,
    .append (plainEvent "b" "2026-01-01T00:00:00.000Z" (by decide))]

theorem lateSchedule_not_exact : ¬ ∀ (P : Platform) (runId : String)
    (ops : List (CursorLog.Op (ParsedRunEvent P.isDatetime))) (log : String → List RunEvent),
    (∀ event ∈ appendedEvents ops, event.runId = runId) →
    ((appendedEvents ops).map (·.eventId)).Nodup → log runId = [] →
    Exact (inMemoryRunEventStore P) runId log ops := by
  intro hall
  have hexact := hall plainPlatform "run" lateSchedule (fun _ => []) (by decide) (by decide) rfl
  have hdelivered := hexact.delivered lateSchedule List.prefix_rfl
  revert hdelivered
  decide +kernel

end OpenLagrange
