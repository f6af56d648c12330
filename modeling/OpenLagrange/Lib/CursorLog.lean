/-
Logs that are read from a cursor.

A reader keeps the id of the last entry it was given and asks for what comes after it.
The id is looked up in the log as it is then, so what the reader gets depends on how the
log has changed in between.

A log grows when an append adds one entry at its end.  As long as it grows, and no id
occurs twice, the reader is given every entry once and in order, and every entry that was
ever given out is still there as it was.
-/
import Mathlib.Data.List.Infix
import Mathlib.Data.List.Nodup

namespace CursorLog

variable {σ α ε ι : Type} (id : ε → ι)

/-! ### Reading from a cursor -/

section After

variable [DecidableEq ι]

/-- What comes after the cursor; all of it, if the log does not have the cursor's entry. -/
def after (entries : List ε) : Option ι → List ε
  | none => entries
  | some cursor =>
      match entries.findIdx? fun entry => id entry = cursor with
      | none => entries
      | some index => entries.drop (index + 1)

@[simp] theorem after_none (entries : List ε) : after id entries none = entries := rfl

variable {id} in
/-- A cursor that the log does not have is no cursor. -/
theorem after_of_not_mem {entries : List ε} {cursor : ι}
    (hcursor : ∀ entry ∈ entries, id entry ≠ cursor) : after id entries (some cursor) = entries := by
  have hnone : entries.findIdx? (fun entry => decide (id entry = cursor)) = none := by
    rw [List.findIdx?_eq_none_iff]
    intro entry hentry
    exact decide_eq_false (hcursor entry hentry)
  simp only [after, hnone]

variable {id} in
/-- After an entry whose id comes first there comes what follows it. -/
theorem after_append {before rest : List ε} {entry : ε}
    (hbefore : ∀ e ∈ before, id e ≠ id entry) :
    after id (before ++ entry :: rest) (some (id entry)) = rest := by
  have hindex : (before ++ entry :: rest).findIdx? (fun e => decide (id e = id entry))
      = some before.length := by
    rw [List.findIdx?_append]
    have hnone : before.findIdx? (fun e => decide (id e = id entry)) = none := by
      rw [List.findIdx?_eq_none_iff]
      intro e he
      exact decide_eq_false (hbefore e he)
    have hhead : (entry :: rest).findIdx? (fun e => decide (id e = id entry)) = some 0 := by
      rw [List.findIdx?_cons]
      simp
    simp [hnone, hhead]
  simp [after, hindex]

variable {id} in
/-- **A reader that was given a beginning of the log is given the rest.** -/
theorem after_getLast? {given rest : List ε} (hnodup : ((given ++ rest).map id).Nodup) :
    after id (given ++ rest) (given.getLast?.map id) = rest := by
  rcases List.eq_nil_or_concat given with rfl | ⟨before, entry, rfl⟩
  · rfl
  · rw [List.concat_eq_append, List.getLast?_concat, Option.map_some, List.append_assoc,
      List.singleton_append]
    refine after_append ?_
    intro e he hid
    rw [List.concat_eq_append, List.map_append, List.map_append, List.nodup_append] at hnodup
    have hdisjoint := (List.nodup_append.mp hnodup.1).2.2
    exact hdisjoint (id e) (List.mem_map_of_mem he) (id entry) (by simp) hid

variable {id} in
/-- Reading what a log's entries are mapped to. -/
theorem after_map {β : Type} {f : ε → β} {id' : β → ι} (hid : ∀ e, id' (f e) = id e)
    (entries : List ε) (cursor : Option ι) :
    (after id entries cursor).map f = after id' (entries.map f) cursor := by
  cases cursor with
  | none => rfl
  | some cursor =>
      have hindex : (entries.map f).findIdx? (fun e => decide (id' e = cursor))
          = entries.findIdx? fun e => decide (id e = cursor) := by
        rw [List.findIdx?_map]
        simp only [Function.comp_def, hid]
      simp only [after, hindex]
      split
      · rfl
      · rw [List.map_drop]

variable {id} in
/-- What comes after a cursor is an end of the log. -/
theorem after_suffix (entries : List ε) (cursor : Option ι) :
    after id entries cursor <:+ entries := by
  cases cursor with
  | none => exact List.suffix_rfl
  | some cursor =>
      simp only [after]
      split
      · exact List.suffix_rfl
      · exact List.drop_suffix _ _

variable {id} in
/-- What is added to a log comes after every cursor that it does not bring. -/
theorem after_append_right {entries more : List ε} {cursor : Option ι}
    (hcursor : ∀ c, cursor = some c → (∃ e ∈ entries, id e = c) ∨ ∀ e ∈ more, id e ≠ c) :
    after id (entries ++ more) cursor = after id entries cursor ++ more := by
  cases cursor with
  | none => rfl
  | some cursor =>
      cases hfound : entries.findIdx? fun e => decide (id e = cursor) with
      | none =>
          rw [List.findIdx?_eq_none_iff] at hfound
          have hentries : ∀ e ∈ entries, id e ≠ cursor := fun e he => of_decide_eq_false (hfound e he)
          have hmore : ∀ e ∈ more, id e ≠ cursor := by
            rcases hcursor cursor rfl with ⟨e, he, hid⟩ | hmore
            · exact absurd hid (hentries e he)
            · exact hmore
          rw [after_of_not_mem hentries, after_of_not_mem]
          intro e he
          rcases List.mem_append.mp he with he | he
          · exact hentries e he
          · exact hmore e he
      | some index =>
          obtain ⟨hlt, -⟩ := List.findIdx?_eq_some_iff_getElem.mp hfound
          have hboth : (entries ++ more).findIdx? (fun e => decide (id e = cursor)) = some index := by
            rw [List.findIdx?_append, hfound]
            rfl
          simp only [after, hfound, hboth]
          exact List.drop_append_of_le_length hlt

variable {id} in
/-- A reader who was given what came after a cursor goes on from the last of it. -/
theorem after_given {entries given rest : List ε} {cursor : Option ι}
    (hnodup : (entries.map id).Nodup) (hgiven : after id entries cursor = given ++ rest)
    {last : ε} (hlast : given.getLast? = some last) :
    after id entries (some (id last)) = rest := by
  obtain ⟨before, hbefore⟩ := @after_suffix ε ι id _ entries cursor
  rw [hgiven, ← List.append_assoc] at hbefore
  have hsame : (before ++ given).getLast?.map id = some (id last) := by
    rw [List.getLast?_append, hlast]
    rfl
  rw [← hbefore, ← hsame]
  rw [← hbefore] at hnodup
  exact after_getLast? hnodup

/-- Where a reader goes on who began at a cursor and was given some entries since. -/
def position (start : Option ι) (given : List ε) : Option ι := (given.getLast?.map id).or start

omit [DecidableEq ι] in
@[simp] theorem position_nil (start : Option ι) : position id start ([] : List ε) = start := rfl

omit [DecidableEq ι] in
@[simp] theorem position_append (start : Option ι) (given : List ε) (last : ε) :
    position id start (given ++ [last]) = some (id last) := by
  simp [position]

variable {id} in
/-- **Going on from there leaves nothing out and repeats nothing.** -/
theorem after_position {entries given : List ε} {start : Option ι}
    (hnodup : (entries.map id).Nodup) (hgiven : given <+: after id entries start) :
    given ++ after id entries (position id start given) = after id entries start := by
  obtain ⟨rest, hrest⟩ := hgiven
  cases hlast : given.getLast? with
  | none =>
      rw [List.getLast?_eq_none_iff] at hlast
      subst hlast
      rw [position_nil, List.nil_append]
  | some last =>
      have hposition : position id start given = some (id last) := by
        simp [position, hlast]
      rw [hposition, after_given hnodup hrest.symm hlast, hrest]

end After

/-! ### A log and its reader -/

/-- A log as its users see it: an append gives the new entry out, and a reader is given
what comes after its cursor. -/
structure Log (σ α ε ι : Type) where
  append : σ → α → σ × ε
  listing : σ → List ε
  read : σ → Option ι → List ε

inductive Op (α : Type) where
  | append (a : α)
  | poll

/-- What is appended by a schedule, in order. -/
def appended (ops : List (Op α)) : List α :=
  ops.filterMap fun
    | .append a => some a
    | .poll => none

/-- The log, what the reader was given, and all that was ever given out. -/
structure Session (σ ε : Type) where
  store : σ
  received : List ε
  returned : List ε

variable (log : Log σ α ε ι)

def step (s : Session σ ε) : Op α → Session σ ε
  | .append a =>
      let (store, entry) := log.append s.store a
      { s with store, returned := s.returned ++ [entry] }
  | .poll =>
      let entries := log.read s.store (s.received.getLast?.map id)
      { s with received := s.received ++ entries, returned := s.returned ++ entries }

def run (ops : List (Op α)) (s : Session σ ε) : Session σ ε := ops.foldl (step id log) s

@[simp] theorem run_cons (op : Op α) (ops : List (Op α)) (s : Session σ ε) :
    run id log (op :: ops) s = run id log ops (step id log s op) := rfl

theorem run_append (ops ops' : List (Op α)) (s : Session σ ε) :
    run id log (ops ++ ops') s = run id log ops' (run id log ops s) := List.foldl_append

/-! ### Growing logs -/

section Growing

variable [DecidableEq ι]

/-- Every append of the schedule adds its entry at the end, and every poll reads what comes
after the cursor. -/
def Grows : List (Op α) → σ → Prop
  | [], _ => True
  | .append a :: rest, s =>
      log.listing (log.append s a).1 = log.listing s ++ [(log.append s a).2] ∧
        Grows rest (log.append s a).1
  | .poll :: rest, s =>
      (∀ cursor, log.read s cursor = after id (log.listing s) cursor) ∧ Grows rest s

/-- What holds while the log grows: the reader has a beginning of it, and what was given out
is in it. -/
structure Faithful (s : Session σ ε) : Prop where
  received : s.received <+: log.listing s.store
  returned : ∀ entry ∈ s.returned, entry ∈ log.listing s.store

variable {id log}

omit [DecidableEq ι] in
/-- An append that adds an entry at the end. -/
theorem Faithful.append {s : Session σ ε} {a : α} (hs : Faithful log s)
    (hgrows : log.listing (log.append s.store a).1
      = log.listing s.store ++ [(log.append s.store a).2]) :
    Faithful log (step id log s (.append a)) := by
  refine ⟨?_, ?_⟩
  · simp only [step, hgrows]
    exact hs.received.trans (List.prefix_append _ _)
  · intro entry hentry
    simp only [step, hgrows, List.mem_append] at hentry ⊢
    exact hentry.imp_left (hs.returned entry)

/-- A poll gives the reader all that the log has. -/
theorem Faithful.poll {s : Session σ ε} (hs : Faithful log s)
    (hread : ∀ cursor, log.read s.store cursor = after id (log.listing s.store) cursor)
    (hnodup : ((log.listing s.store).map id).Nodup) :
    (step id log s .poll).received = log.listing s.store ∧
      Faithful log (step id log s (.poll : Op α)) := by
  obtain ⟨rest, hrest⟩ := hs.received
  have hafter : log.read s.store (s.received.getLast?.map id) = rest := by
    rw [hread]
    rw [← hrest] at hnodup ⊢
    exact after_getLast? hnodup
  have hreceived : (step id log s (.poll : Op α)).received = log.listing s.store := by
    simp only [step, hafter, hrest]
  refine ⟨hreceived, ⟨?_, ?_⟩⟩
  · rw [hreceived]
    exact List.prefix_rfl
  · intro entry hentry
    simp only [step, hafter, List.mem_append] at hentry ⊢
    rcases hentry with hentry | hentry
    · exact hs.returned entry hentry
    · rw [← hrest]
      exact List.mem_append_right _ hentry

/-- Over a schedule, a growing log grows by what is appended. -/
theorem Grows.listing_run {β : Type} {entryOf : ε → β} {itemOf : α → β}
    (hentry : ∀ store a, entryOf (log.append store a).2 = itemOf a) {ops : List (Op α)}
    {s : Session σ ε} (hgrows : Grows id log ops s.store) :
    (log.listing (run id log ops s).store).map entryOf
      = (log.listing s.store).map entryOf ++ (appended ops).map itemOf := by
  induction ops generalizing s with
  | nil => simp [run, appended]
  | cons op ops ih =>
      cases op with
      | poll =>
          have hrest := ih (s := step id log s (.poll : Op α)) hgrows.2
          exact hrest
      | append a =>
          have hrest := ih (s := step id log s (.append a)) hgrows.2
          have hone : log.listing (step id log s (.append a)).store
              = log.listing s.store ++ [(log.append s.store a).2] := hgrows.1
          rw [hone] at hrest
          simpa [appended, hentry] using hrest

/-- A schedule of which a part was run grows on. -/
theorem grows_append {ops ops' : List (Op α)} {s : Session σ ε} :
    Grows id log (ops ++ ops') s.store ↔
      Grows id log ops s.store ∧ Grows id log ops' (run id log ops s).store := by
  induction ops generalizing s with
  | nil => simp [Grows, run]
  | cons op ops ih =>
      cases op with
      | poll =>
          have hrest := ih (s := step id log s (.poll : Op α))
          simp only [List.cons_append, Grows]
          rw [and_assoc]
          exact and_congr_right fun _ => hrest
      | append a =>
          have hrest := ih (s := step id log s (.append a))
          simp only [List.cons_append, Grows]
          rw [and_assoc]
          exact and_congr_right fun _ => hrest

/-- A growing log keeps what it has. -/
theorem Grows.listing_prefix {ops : List (Op α)} {s : Session σ ε}
    (hgrows : Grows id log ops s.store) :
    log.listing s.store <+: log.listing (run id log ops s).store := by
  induction ops generalizing s with
  | nil => exact List.prefix_rfl
  | cons op ops ih =>
      cases op with
      | poll => exact ih (s := step id log s (.poll : Op α)) hgrows.2
      | append a =>
          refine List.IsPrefix.trans ?_ (ih (s := step id log s (.append a)) hgrows.2)
          have hone : log.listing (step id log s (.append a)).store
              = log.listing s.store ++ [(log.append s.store a).2] := hgrows.1
          rw [hone]
          exact List.prefix_append _ _

/-- **A growing log is faithful to its reader over every schedule.** -/
theorem run_faithful {ops : List (Op α)} {s : Session σ ε} (hs : Faithful log s)
    (hgrows : Grows id log ops s.store)
    (hnodup : ((log.listing (run id log ops s).store).map id).Nodup) :
    Faithful log (run id log ops s) := by
  induction ops generalizing s with
  | nil => exact hs
  | cons op ops ih =>
      cases op with
      | append a =>
          exact ih (s := step id log s (.append a)) (hs.append hgrows.1) hgrows.2 hnodup
      | poll =>
          have hnow : ((log.listing s.store).map id).Nodup := by
            have hfront := Grows.listing_prefix (s := step id log s (.poll : Op α)) hgrows.2
            exact (hfront.map id).sublist.nodup hnodup
          exact ih (s := step id log s (.poll : Op α)) (hs.poll hgrows.1 hnow).2 hgrows.2 hnodup

end Growing

end CursorLog
