/-
Counting calls in fixed windows, in a table that holds only so many windows.

The first call of a key opens a window, and every call in the window is counted; calls beyond a
limit are refused.  A window ends some time after it was opened.  The table lists its windows in the
order they were opened in, and where there are more than it can hold, the oldest are dropped.

A window that is dropped is opened again by the next call, so the limit holds for a window only
while it is kept.  It is kept while fewer other keys call than the table has room for.
-/
import OpenLagrange.Lib.Table
import Mathlib.Data.Finset.Card
import Mathlib.Data.List.Nodup

namespace WindowCounter

variable {κ : Type} [DecidableEq κ]

/-! ### Windows -/

structure Window (κ : Type) where
  key : κ
  resetAt : Nat
  count : Nat

abbrev Windows (κ : Type) := Table.Keyed (@Window.key κ)

structure Limits where
  capacity : Nat
  width : Nat
  limit : Nat

/-- A call of a key at a time. -/
structure Call (κ : Type) where
  key : κ
  now : Nat

/-- The windows that have not ended. -/
def live (now : Nat) (rows : List (Window κ)) : List (Window κ) :=
  rows.filter fun w => now < w.resetAt

/-- Drops what has ended, and then the oldest windows that there is no room for. -/
def prune (capacity now : Nat) (table : Windows κ) : Windows κ where
  rows := (live now table.rows).drop ((live now table.rows).length - capacity)
  nodup :=
    table.nodup.sublist (((List.drop_sublist _ _).trans List.filter_sublist).map Window.key)

/-- Whether the call is let through, and the table after it. -/
def request (L : Limits) (table : Windows κ) (c : Call κ) : Bool × Windows κ :=
  let kept := prune L.capacity c.now table
  match kept.get c.key with
  | some w => (w.count + 1 ≤ L.limit, kept.upsert ⟨w.key, w.resetAt, w.count + 1⟩)
  | none => (true, prune L.capacity c.now (kept.upsert ⟨c.key, c.now + L.width, 1⟩))

def step (L : Limits) (table : Windows κ) (c : Call κ) : Windows κ := (request L table c).2

def run (L : Limits) (table : Windows κ) (calls : List (Call κ)) : Windows κ :=
  calls.foldl (step L) table

/-- What is decided on the calls of a key. -/
def decisions (L : Limits) (k : κ) : Windows κ → List (Call κ) → List Bool
  | _, [] => []
  | table, c :: rest =>
      if c.key = k then (request L table c).1 :: decisions L k (step L table c) rest
      else decisions L k (step L table c) rest

/-- How many calls of a key are let through. -/
def letThrough (L : Limits) (k : κ) (table : Windows κ) (calls : List (Call κ)) : Nat :=
  (decisions L k table calls).count true

variable {L : Limits} {table : Windows κ} {c : Call κ} {k : κ} {calls : List (Call κ)}

/-! ### The table has no more windows than there is room for -/

omit [DecidableEq κ] in
theorem length_prune_le (capacity now : Nat) (table : Windows κ) :
    (prune capacity now table).rows.length ≤ capacity := by
  show ((live now table.rows).drop _).length ≤ capacity
  rw [List.length_drop]
  omega

omit [DecidableEq κ] in
theorem mem_prune {capacity now : Nat} {w : Window κ}
    (h : w ∈ (prune capacity now table).rows) : w ∈ table.rows ∧ now < w.resetAt := by
  have hlive : w ∈ live now table.rows := List.mem_of_mem_drop h
  have hboth := List.mem_filter.mp hlive
  exact ⟨hboth.1, of_decide_eq_true hboth.2⟩

theorem get_some {w : Window κ} (h : table.get k = some w) : w ∈ table.rows ∧ w.key = k :=
  Table.mem_of_get h

/-- The row of a key that is there is written in its place. -/
theorem rows_upsert_of_mem {w : Window κ} (h : w ∈ table.rows) (w' : Window κ)
    (hkey : w.key = w'.key) :
    (table.upsert w').rows = table.rows.map fun r => if r.key = w'.key then w' else r := by
  have hany : (table.rows.any fun r => decide (r.key = w'.key)) = true :=
    List.any_eq_true.mpr ⟨w, h, decide_eq_true hkey⟩
  exact if_pos hany

/-- A row of a new key is written behind the others. -/
theorem rows_upsert_of_none {w : Window κ} (h : table.get w.key = none) :
    (table.upsert w).rows = table.rows ++ [w] := by
  have hany : ¬ (table.rows.any fun r => decide (r.key = w.key)) = true := by
    rw [List.any_eq_true]
    rintro ⟨r, hr, hkey⟩
    exact List.find?_eq_none.mp h r hr hkey
  exact if_neg hany

theorem request_counted {w : Window κ} (h : (prune L.capacity c.now table).get c.key = some w) :
    request L table c = (decide (w.count + 1 ≤ L.limit),
      (prune L.capacity c.now table).upsert ⟨w.key, w.resetAt, w.count + 1⟩) := by
  unfold request
  simp only [h]

theorem request_opened (h : (prune L.capacity c.now table).get c.key = none) :
    request L table c = (true, prune L.capacity c.now
      ((prune L.capacity c.now table).upsert ⟨c.key, c.now + L.width, 1⟩)) := by
  unfold request
  simp only [h]

theorem step_counted {w : Window κ} (h : (prune L.capacity c.now table).get c.key = some w) :
    step L table c = (prune L.capacity c.now table).upsert ⟨w.key, w.resetAt, w.count + 1⟩ := by
  unfold step
  rw [request_counted h]

theorem step_opened (h : (prune L.capacity c.now table).get c.key = none) :
    step L table c = prune L.capacity c.now
      ((prune L.capacity c.now table).upsert ⟨c.key, c.now + L.width, 1⟩) := by
  unfold step
  rw [request_opened h]

/-- **After a call, the table has no more windows than there is room for.** -/
theorem length_step_le (L : Limits) (table : Windows κ) (c : Call κ) :
    (step L table c).rows.length ≤ L.capacity := by
  cases hget : (prune L.capacity c.now table).get c.key with
  | some w =>
      have hrows := rows_upsert_of_mem (get_some hget).1 ⟨w.key, w.resetAt, w.count + 1⟩ rfl
      rw [step_counted hget, hrows, List.length_map]
      exact length_prune_le _ _ _
  | none =>
      rw [step_opened hget]
      exact length_prune_le _ _ _

/-! ### A window that has ended is opened again -/

omit [DecidableEq κ] in
theorem get_none_iff [DecidableEq κ] :
    table.get k = none ↔ ∀ w ∈ table.rows, w.key ≠ k := by
  unfold Table.Keyed.get Table.get
  rw [List.find?_eq_none]
  refine forall₂_congr ?_
  intro w _
  rw [decide_eq_true_eq]

/-- **A call is let through where every window of its key has ended.** -/
theorem through_of_ended (h : ∀ w ∈ table.rows, w.key = c.key → w.resetAt ≤ c.now) :
    (request L table c).1 = true := by
  have hnone : (prune L.capacity c.now table).get c.key = none := by
    rw [get_none_iff]
    intro w hw hkey
    obtain ⟨hmem, hlive⟩ := mem_prune hw
    have hended := h w hmem hkey
    omega
  rw [request_opened hnone]

/-- A window is one that a call of its key has opened, and counts calls of its key since. -/
def Accounted (L : Limits) (table : Windows κ) (calls : List (Call κ)) : Prop :=
  ∀ w ∈ table.rows, (∃ c ∈ calls, c.key = w.key ∧ w.resetAt = c.now + L.width) ∧
    w.count ≤ calls.countP fun c => c.key = w.key ∧ w.resetAt ≤ c.now + L.width

theorem Accounted.prune {capacity now : Nat} (h : Accounted L table calls) :
    Accounted L (prune capacity now table) calls :=
  fun w hw => h w (mem_prune hw).1

theorem Accounted.step (h : Accounted L table calls) (hlast : ∀ d ∈ calls, d.now ≤ c.now) :
    Accounted L (step L table c) (calls ++ [c]) := by
  have hkept : Accounted L (WindowCounter.prune L.capacity c.now table) calls := h.prune
  have hlonger : ∀ w : Window κ, ((∃ d ∈ calls, d.key = w.key ∧ w.resetAt = d.now + L.width) ∧
      w.count ≤ calls.countP fun d => d.key = w.key ∧ w.resetAt ≤ d.now + L.width) →
      (∃ d ∈ calls ++ [c], d.key = w.key ∧ w.resetAt = d.now + L.width) ∧
        w.count ≤ (calls ++ [c]).countP fun d => d.key = w.key ∧ w.resetAt ≤ d.now + L.width := by
    rintro w ⟨⟨d, hd, hopened⟩, hcount⟩
    refine ⟨⟨d, List.mem_append_left _ hd, hopened⟩, ?_⟩
    rw [List.countP_append]
    omega
  cases hget : (WindowCounter.prune L.capacity c.now table).get c.key with
  | some w =>
      rw [step_counted hget]
      obtain ⟨hw, hkey⟩ := get_some hget
      obtain ⟨⟨d, hd, hopened⟩, hcount⟩ := hkept w hw
      intro v hv
      rcases Table.mem_upsert hv with rfl | ⟨hold, -⟩
      · refine ⟨⟨d, List.mem_append_left _ hd, hopened⟩, ?_⟩
        have hnow : w.resetAt ≤ c.now + L.width := by
          have hle := hlast d hd
          omega
        have hthis : [c].countP (fun d => d.key = w.key ∧ w.resetAt ≤ d.now + L.width) = 1 := by
          rw [List.countP_singleton, if_pos (decide_eq_true ⟨hkey.symm, hnow⟩)]
        rw [List.countP_append]
        show w.count + 1 ≤ calls.countP (fun d => d.key = w.key ∧ w.resetAt ≤ d.now + L.width) +
          [c].countP (fun d => d.key = w.key ∧ w.resetAt ≤ d.now + L.width)
        omega
      · exact hlonger v (hkept v hold)
  | none =>
      rw [step_opened hget]
      intro v hv
      rcases Table.mem_upsert (mem_prune hv).1 with rfl | ⟨hold, -⟩
      · refine ⟨⟨c, List.mem_append_right _ (List.mem_singleton_self c), rfl, rfl⟩, ?_⟩
        have hthis :
            [c].countP (fun d => d.key = c.key ∧ c.now + L.width ≤ d.now + L.width) = 1 := by
          rw [List.countP_singleton, if_pos (decide_eq_true ⟨rfl, Nat.le_refl _⟩)]
        rw [List.countP_append]
        show 1 ≤ calls.countP (fun d => d.key = c.key ∧ c.now + L.width ≤ d.now + L.width) +
          [c].countP (fun d => d.key = c.key ∧ c.now + L.width ≤ d.now + L.width)
        omega
      · exact hlonger v (hkept v hold)

/-- Calls at times that do not go back. -/
def InOrder (calls : List (Call κ)) : Prop := calls.Pairwise fun c d => c.now ≤ d.now

theorem run_concat (L : Limits) (table : Windows κ) (calls : List (Call κ)) (c : Call κ) :
    run L table (calls ++ [c]) = step L (run L table calls) c := by
  unfold run
  rw [List.foldl_append]
  rfl

theorem accounted_run (horder : InOrder calls) : Accounted L (run L .empty calls) calls := by
  induction calls using List.reverseRecOn with
  | nil =>
      intro w hw
      exact absurd hw List.not_mem_nil
  | append_singleton calls c ih =>
      obtain ⟨hfront, -, hlast⟩ := List.pairwise_append.mp horder
      rw [run_concat]
      exact (ih hfront).step fun d hd => hlast d hd c (List.mem_singleton_self c)

/-- **A refused call has as many calls of its own key before it, less than a window's width ago, as
the limit allows.** -/
theorem refused_of_own (horder : InOrder calls)
    (h : (request L (run L .empty calls) c).1 = false) :
    L.limit ≤ calls.countP fun d => d.key = c.key ∧ c.now < d.now + L.width := by
  cases hget : (prune L.capacity c.now (run L .empty calls)).get c.key with
  | none =>
      rw [request_opened hget] at h
      cases h
  | some w =>
      rw [request_counted hget] at h
      have hbeyond := of_decide_eq_false h
      obtain ⟨hw, hkey⟩ := get_some hget
      obtain ⟨hmem, hlive⟩ := mem_prune hw
      obtain ⟨-, hcount⟩ := accounted_run horder w hmem
      have hwithin : calls.countP (fun d => d.key = w.key ∧ w.resetAt ≤ d.now + L.width) ≤
          calls.countP fun d => d.key = c.key ∧ c.now < d.now + L.width := by
        refine List.countP_mono_left ?_
        intro d _ hd
        have hd := of_decide_eq_true hd
        exact decide_eq_true ⟨hd.1.trans hkey, by omega⟩
      omega

/-! ### A window that is kept -/

/-- The table holds a window, and behind it only windows of some other keys. -/
def Holds (table : Windows κ) (w : Window κ) (others : Finset κ) : Prop :=
  ∃ older newer, table.rows = older ++ w :: newer ∧ ∀ v ∈ newer, v.key ∈ others

variable {w : Window κ} {others : Finset κ}

/-- With few other keys there is room for the window and all behind it. -/
theorem Holds.length_newer {older newer : List (Window κ)}
    (hrows : table.rows = older ++ w :: newer) (hothers : ∀ v ∈ newer, v.key ∈ others) :
    newer.length ≤ others.card := by
  have hnodup := table.nodup
  rw [hrows, List.map_append, List.map_cons, List.nodup_append] at hnodup
  have hnewer : (newer.map Window.key).Nodup := (List.nodup_cons.mp hnodup.2.1).2
  have hcard := List.toFinset_card_of_nodup hnewer
  rw [List.length_map] at hcard
  rw [← hcard]
  refine Finset.card_le_card ?_
  intro key hkey
  obtain ⟨v, hv, rfl⟩ := List.mem_map.mp (List.mem_toFinset.mp hkey)
  exact hothers v hv

theorem Holds.prune {now : Nat} (h : Holds table w others) (hlive : now < w.resetAt)
    (hroom : others.card < L.capacity) : Holds (prune L.capacity now table) w others := by
  obtain ⟨older, newer, hrows, hothers⟩ := h
  have hlength := Holds.length_newer hrows hothers
  have hsplit : live now table.rows = live now older ++ w :: live now newer := by
    unfold live
    rw [hrows, List.filter_append, List.filter_cons, if_pos (decide_eq_true hlive)]
  have hshort : (live now newer).length ≤ newer.length := List.length_filter_le _ _
  refine ⟨(live now older).drop ((live now table.rows).length - L.capacity), live now newer, ?_, ?_⟩
  · show (live now table.rows).drop _ = _
    have hfront : (live now table.rows).length - L.capacity ≤ (live now older).length := by
      rw [hsplit, List.length_append, List.length_cons]
      omega
    conv_lhs => rw [hsplit]
    rw [List.drop_append_of_le_length (by rw [← hsplit]; exact hfront), ← hsplit]
  · intro v hv
    exact hothers v (List.mem_of_mem_filter hv)

theorem Holds.get (h : Holds table w others) : table.get w.key = some w := by
  obtain ⟨older, newer, hrows, -⟩ := h
  refine Table.Keyed.get_of_mem ?_
  rw [hrows]
  exact List.mem_append_right _ List.mem_cons_self

/-- Another key's window is written in its place or behind the others. -/
theorem Holds.upsert_other {v : Window κ} (h : Holds table w others) (hkey : v.key ≠ w.key)
    (hmem : v.key ∈ others) : Holds (table.upsert v) w others := by
  obtain ⟨older, newer, hrows, hothers⟩ := h
  cases hget : table.get v.key with
  | some old =>
      obtain ⟨hold, holdKey⟩ := get_some hget
      have hchange : ∀ r : Window κ, (if r.key = v.key then v else r).key = r.key := by
        intro r
        split
        · rename_i heq
          exact heq.symm
        · rfl
      refine ⟨older.map fun r => if r.key = v.key then v else r,
        newer.map fun r => if r.key = v.key then v else r, ?_, ?_⟩
      · rw [rows_upsert_of_mem hold v holdKey, hrows, List.map_append, List.map_cons,
          if_neg (Ne.symm hkey)]
      · intro r hr
        obtain ⟨r', hr', rfl⟩ := List.mem_map.mp hr
        rw [hchange]
        exact hothers r' hr'
  | none =>
      refine ⟨older, newer ++ [v], ?_, ?_⟩
      · rw [rows_upsert_of_none hget, hrows, List.append_assoc, List.cons_append]
      · intro r hr
        rcases List.mem_append.mp hr with hr | hr
        · exact hothers r hr
        · rw [List.mem_singleton.mp hr]
          exact hmem

/-- The window is written in its place. -/
theorem Holds.upsert_self {w' : Window κ} (h : Holds table w others) (hkey : w.key = w'.key) :
    Holds (table.upsert w') w' others := by
  have hget := h.get
  obtain ⟨older, newer, hrows, hothers⟩ := h
  have hnodup := table.nodup
  rw [hrows, List.map_append, List.map_cons, List.nodup_append, List.nodup_cons] at hnodup
  obtain ⟨-, ⟨hnewer, -⟩, holder⟩ := hnodup
  have hsame : ∀ rows : List (Window κ), (∀ r ∈ rows, r.key ≠ w'.key) →
      (rows.map fun r => if r.key = w'.key then w' else r) = rows := by
    intro rows hne
    have hid : ∀ r ∈ rows, (if r.key = w'.key then w' else r) = r := fun r hr => if_neg (hne r hr)
    rw [List.map_congr_left hid, List.map_id']
  refine ⟨older, newer, ?_, hothers⟩
  rw [rows_upsert_of_mem (get_some hget).1 w' hkey, hrows, List.map_append, List.map_cons,
    if_pos hkey, hsame older, hsame newer]
  · intro r hr heq
    exact hnewer (List.mem_map.mpr ⟨r, hr, heq.trans hkey.symm⟩)
  · intro r hr heq
    exact holder _ (List.mem_map_of_mem hr) _ List.mem_cons_self (heq.trans hkey.symm)

/-- While the window lasts and other keys are few, a call is counted or leaves it alone. -/
theorem Holds.step (h : Holds table w others) (hlive : c.now < w.resetAt)
    (hroom : others.card < L.capacity) (hkey : c.key = w.key ∨ c.key ∈ others) :
    Holds (step L table c)
      (if c.key = w.key then ⟨w.key, w.resetAt, w.count + 1⟩ else w) others := by
  have hkept : Holds (WindowCounter.prune L.capacity c.now table) w others := h.prune hlive hroom
  by_cases hown : c.key = w.key
  · have hget := hkept.get
    rw [← hown] at hget
    rw [if_pos hown, step_counted hget]
    exact hkept.upsert_self rfl
  · have hother : c.key ∈ others := hkey.resolve_left hown
    rw [if_neg hown]
    cases hget : (WindowCounter.prune L.capacity c.now table).get c.key with
    | some v =>
        obtain ⟨-, hv⟩ := get_some hget
        rw [step_counted hget]
        exact hkept.upsert_other (by rw [hv]; exact hown) (by rw [hv]; exact hother)
    | none =>
        rw [step_opened hget]
        exact (hkept.upsert_other hown hother).prune hlive hroom

/-- What is decided on a call of the window's key. -/
theorem Holds.request (h : Holds table w others) (hlive : c.now < w.resetAt)
    (hroom : others.card < L.capacity) (hown : c.key = w.key) :
    (request L table c).1 = decide (w.count + 1 ≤ L.limit) := by
  have hget := (h.prune (L := L) hlive hroom).get
  rw [← hown] at hget
  rw [request_counted hget]

/-- The keys of the calls other than one key. -/
def othersOf (k : κ) (calls : List (Call κ)) : Finset κ := (calls.map Call.key).toFinset.erase k

theorem mem_othersOf {d : Call κ} (hd : d ∈ calls) (hkey : d.key ≠ k) : d.key ∈ othersOf k calls :=
  Finset.mem_erase.mpr ⟨hkey, List.mem_toFinset.mpr (List.mem_map_of_mem hd)⟩

/-- A window that was just opened is held. -/
theorem holds_opened (hget : (prune L.capacity c.now table).get c.key = none)
    (hroom : others.card < L.capacity) (hwidth : 0 < L.width) :
    Holds (step L table c) ⟨c.key, c.now + L.width, 1⟩ others := by
  have hwritten : Holds ((prune L.capacity c.now table).upsert ⟨c.key, c.now + L.width, 1⟩)
      ⟨c.key, c.now + L.width, 1⟩ others := by
    refine ⟨(prune L.capacity c.now table).rows, [], rows_upsert_of_none hget, ?_⟩
    intro v hv
    exact absurd hv List.not_mem_nil
  have hlive : c.now < c.now + L.width := by omega
  rw [step_opened hget]
  exact hwritten.prune hlive hroom

theorem letThrough_cons_own (h : c.key = k) : letThrough L k table (c :: calls) =
    (if (request L table c).1 = true then 1 else 0) + letThrough L k (step L table c) calls := by
  unfold letThrough
  rw [decisions, if_pos h, List.count_cons]
  cases (request L table c).1 with
  | true => exact Nat.add_comm _ 1
  | false => exact (Nat.zero_add _).symm

theorem letThrough_cons_other (h : c.key ≠ k) :
    letThrough L k table (c :: calls) = letThrough L k (step L table c) calls := by
  unfold letThrough
  rw [decisions, if_neg h]

/-- While a window is held, no more calls are let through than its count leaves. -/
theorem Holds.letThrough_le (hroom : others.card < L.capacity) : ∀ {calls : List (Call κ)}
    {table : Windows κ} {w : Window κ}, Holds table w others → (∀ d ∈ calls, d.now < w.resetAt) →
      (∀ d ∈ calls, d.key = w.key ∨ d.key ∈ others) →
      letThrough L w.key table calls ≤ L.limit - w.count := by
  intro calls
  induction calls with
  | nil =>
      intro table w _ _ _
      exact Nat.zero_le _
  | cons c rest ih =>
      intro table w h hlive hkeys
      have hnow := hlive c List.mem_cons_self
      have hstep := h.step hnow hroom (hkeys c List.mem_cons_self)
      have hrestLive := fun d hd => hlive d (List.mem_cons_of_mem c hd)
      have hrestKeys := fun d hd => hkeys d (List.mem_cons_of_mem c hd)
      by_cases hown : c.key = w.key
      · rw [if_pos hown] at hstep
        have hrest := ih hstep hrestLive hrestKeys
        rw [letThrough_cons_own hown, h.request hnow hroom hown]
        dsimp only at hrest
        by_cases hlimit : w.count + 1 ≤ L.limit
        · rw [if_pos (decide_eq_true hlimit)]
          omega
        · rw [if_neg (by rw [decide_eq_true_eq]; exact hlimit)]
          omega
      · rw [if_neg hown] at hstep
        rw [letThrough_cons_other hown]
        exact ih hstep hrestLive hrestKeys

/-- **From the call that opens a window until the window ends, no more calls of its key are let
through than the limit allows, where fewer other keys call meanwhile than the table has room
for.** -/
theorem letThrough_le (hopen : (prune L.capacity c.now table).get c.key = none)
    (hwidth : 0 < L.width) (hlimit : 0 < L.limit) (hlive : ∀ d ∈ calls, d.now < c.now + L.width)
    (hroom : (othersOf c.key calls).card < L.capacity) :
    letThrough L c.key table (c :: calls) ≤ L.limit := by
  have hheld := holds_opened hopen hroom hwidth
  have hrest := hheld.letThrough_le hroom hlive fun d hd => by
    by_cases hkey : d.key = c.key
    · exact Or.inl hkey
    · exact Or.inr (mem_othersOf hd hkey)
  have hfirst : (request L table c).1 = true := by rw [request_opened hopen]
  rw [letThrough_cons_own rfl, if_pos hfirst]
  dsimp only at hrest
  omega

/-! ### A key that is not crowded out -/

theorem decisions_append (L : Limits) (k : κ) :
    ∀ (table : Windows κ) (xs ys : List (Call κ)), decisions L k table (xs ++ ys) =
      decisions L k table xs ++ decisions L k (run L table xs) ys := by
  intro table xs
  induction xs generalizing table with
  | nil =>
      intro ys
      rfl
  | cons c rest ih =>
      intro ys
      rw [List.cons_append, decisions, decisions, ih]
      show _ = _ ++ decisions L k (run L (step L table c) rest) ys
      split
      · rfl
      · rfl

/-- From any call of the key on, until a window's width has passed, fewer other keys call than the
table has room for. -/
def Uncrowded (L : Limits) (k : κ) (calls : List (Call κ)) : Prop :=
  ∀ before c during after, calls = before ++ c :: during ++ after → c.key = k →
    (∀ d ∈ during, d.now < c.now + L.width) → (othersOf k during).card < L.capacity

theorem Uncrowded.front {more : List (Call κ)} (h : Uncrowded L k (calls ++ more)) :
    Uncrowded L k calls := by
  intro before c during after hsplit
  refine h before c during (after ++ more) ?_
  rw [hsplit, List.append_assoc]

/-- No window of the key lasts beyond a time. -/
def Ended (k : κ) (now : Nat) (table : Windows κ) : Prop :=
  ∀ w ∈ table.rows, w.key = k → w.resetAt ≤ now

theorem Ended.get_prune (h : Ended k c.now table) (capacity : Nat) :
    (prune capacity c.now table).get k = none := by
  rw [get_none_iff]
  intro w hw hkey
  obtain ⟨hmem, hlive⟩ := mem_prune hw
  have hended := h w hmem hkey
  omega

/-- A window that is held is the only one of its key. -/
theorem Holds.ended (h : Holds table w others) {now : Nat} (hnow : w.resetAt ≤ now) :
    Ended w.key now table := by
  intro v hv hkey
  have hget := Table.Keyed.get_of_mem hv
  rw [hkey, h.get] at hget
  rw [← Option.some.inj hget]
  exact hnow

omit [DecidableEq κ] in
theorem Holds.mono {more : Finset κ} (h : Holds table w others) (hsub : others ⊆ more) :
    Holds table w more := by
  obtain ⟨older, newer, hrows, hothers⟩ := h
  exact ⟨older, newer, hrows, fun v hv => hsub (hothers v hv)⟩

theorem othersOf_mono {more : List (Call κ)} (h : ∀ d ∈ calls, d ∈ more) :
    othersOf k calls ⊆ othersOf k more := by
  refine Finset.erase_subset_erase k ?_
  intro key hkey
  obtain ⟨d, hd, rfl⟩ := List.mem_map.mp (List.mem_toFinset.mp hkey)
  exact List.mem_toFinset.mpr (List.mem_map_of_mem (h d hd))

/-- What a call leaves of other keys was there before, and has not ended. -/
theorem mem_step {v : Window κ} (hv : v ∈ (step L table c).rows) :
    v.key = c.key ∨ v ∈ table.rows ∧ c.now < v.resetAt := by
  cases hget : (prune L.capacity c.now table).get c.key with
  | some w =>
      rw [step_counted hget] at hv
      rcases Table.mem_upsert hv with rfl | ⟨hold, -⟩
      · exact Or.inl (get_some hget).2
      · exact Or.inr (mem_prune hold)
  | none =>
      rw [step_opened hget] at hv
      rcases Table.mem_upsert (mem_prune hv).1 with rfl | ⟨hold, -⟩
      · exact Or.inl rfl
      · exact Or.inr (mem_prune hold)

/-- Two tables that decide alike on a key: in both its windows have ended, or both hold the same
window, that one of the calls has opened. -/
def Alike (L : Limits) (k : κ) (calls : List (Call κ)) (table alone : Windows κ) : Prop :=
  (∀ now, (∀ d ∈ calls, d.now ≤ now) → Ended k now table ∧ Ended k now alone) ∨
    ∃ before c during w, calls = before ++ c :: during ∧ c.key = k ∧ w.key = k ∧
      w.resetAt = c.now + L.width ∧ (∀ d ∈ during, d.now < w.resetAt) ∧
      Holds table w (othersOf k during) ∧ Holds alone w ∅

theorem Alike.opened {alone : Windows κ} (hown : c.key = k) (hwidth : 0 < L.width)
    (huncrowded : Uncrowded L k (calls ++ [c])) (htable : Ended k c.now table)
    (halone : Ended k c.now alone) :
    Alike L k (calls ++ [c]) (step L table c) (step L alone c) ∧
      (request L table c).1 = (request L alone c).1 := by
  have hget := htable.get_prune L.capacity
  have hgetAlone := halone.get_prune L.capacity
  rw [← hown] at hget hgetAlone
  have hroom : (othersOf k []).card < L.capacity :=
    huncrowded calls c [] [] (List.append_nil _).symm hown
      fun d hd => absurd hd List.not_mem_nil
  have hempty : (∅ : Finset κ).card < L.capacity := hroom
  refine ⟨Or.inr ⟨calls, c, [], ⟨c.key, c.now + L.width, 1⟩, rfl, hown, hown, rfl, ?_, ?_, ?_⟩, ?_⟩
  · exact fun d hd => absurd hd List.not_mem_nil
  · exact holds_opened hget hroom hwidth
  · exact holds_opened hgetAlone hempty hwidth
  · rw [request_opened hget, request_opened hgetAlone]

/-- A call of another key leaves what has ended ended. -/
theorem Alike.passed {alone : Windows κ} (hother : c.key ≠ k) (htable : Ended k c.now table)
    (halone : Ended k c.now alone) : Alike L k (calls ++ [c]) (step L table c) alone := by
  refine Or.inl ?_
  intro now hnow
  have hlast := hnow c (List.mem_append_right _ (List.mem_singleton_self c))
  refine ⟨?_, fun w hw hkey => (halone w hw hkey).trans hlast⟩
  intro w hw hkey
  rcases mem_step hw with hown | ⟨hmem, hlive⟩
  · exact absurd (hown.symm.trans hkey) hother
  · exact (htable w hmem hkey).trans hlast

/-- The tables stay alike if the one takes every call and the other those of the key. -/
theorem Alike.step {alone : Windows κ} (h : Alike L k calls table alone) (hwidth : 0 < L.width)
    (horder : InOrder (calls ++ [c])) (huncrowded : Uncrowded L k (calls ++ [c])) :
    (c.key = k → Alike L k (calls ++ [c]) (step L table c) (step L alone c) ∧
      (request L table c).1 = (request L alone c).1) ∧
    (c.key ≠ k → Alike L k (calls ++ [c]) (step L table c) alone) := by
  have hlast : ∀ d ∈ calls, d.now ≤ c.now := fun d hd =>
    (List.pairwise_append.mp horder).2.2 d hd c (List.mem_singleton_self c)
  rcases h with hended | ⟨before, c₀, during, w, hsplit, hc₀, hw, hreset, hduring, hheld, halone⟩
  · obtain ⟨htable, halone⟩ := hended c.now hlast
    exact ⟨fun hown => Alike.opened hown hwidth huncrowded htable halone,
      fun hother => Alike.passed hother htable halone⟩
  · by_cases hlive : c.now < w.resetAt
    · have hduring' : ∀ d ∈ during ++ [c], d.now < w.resetAt := by
        intro d hd
        rcases List.mem_append.mp hd with hd | hd
        · exact hduring d hd
        · rw [List.mem_singleton.mp hd]
          exact hlive
      have hlonger : calls ++ [c] = before ++ c₀ :: (during ++ [c]) := by
        rw [hsplit, List.append_assoc, List.cons_append]
      have hroom : (othersOf k (during ++ [c])).card < L.capacity := by
        refine huncrowded before c₀ (during ++ [c]) [] ?_ hc₀ fun d hd => hreset ▸ hduring' d hd
        rw [List.append_nil, hlonger]
      have hempty : (∅ : Finset κ).card < L.capacity := by
        rw [Finset.card_empty]
        omega
      have hmore := hheld.mono (othersOf_mono fun d hd => List.mem_append_left [c] hd)
      constructor
      · intro hown
        have hsame : c.key = w.key := hown.trans hw.symm
        have hstep := hmore.step hlive hroom (Or.inl hsame)
        have hstepAlone := halone.step hlive hempty (Or.inl hsame)
        rw [if_pos hsame] at hstep hstepAlone
        refine ⟨Or.inr ⟨before, c₀, during ++ [c], ⟨w.key, w.resetAt, w.count + 1⟩, hlonger, hc₀,
          hw, hreset, hduring', hstep, hstepAlone⟩, ?_⟩
        rw [hmore.request hlive hroom hsame, halone.request hlive hempty hsame]
      · intro hother
        have hdiffer : c.key ≠ w.key := fun heq => hother (heq.trans hw)
        have hcall : c.key ∈ othersOf k (during ++ [c]) :=
          mem_othersOf (List.mem_append_right _ (List.mem_singleton_self c)) hother
        have hstep := hmore.step hlive hroom (Or.inr hcall)
        rw [if_neg hdiffer] at hstep
        exact Or.inr
          ⟨before, c₀, during ++ [c], w, hlonger, hc₀, hw, hreset, hduring', hstep, halone⟩
    · have htable : Ended k c.now table := hw ▸ hheld.ended (Nat.le_of_not_lt hlive)
      have halone' : Ended k c.now alone := hw ▸ halone.ended (Nat.le_of_not_lt hlive)
      exact ⟨fun hown => Alike.opened hown hwidth huncrowded htable halone',
        fun hother => Alike.passed hother htable halone'⟩

/-- **A key that is not crowded out is decided on as if no other key called.** -/
theorem decisions_alone (hwidth : 0 < L.width) (horder : InOrder calls)
    (huncrowded : Uncrowded L k calls) :
    decisions L k .empty calls = decisions L k .empty (calls.filter fun d => d.key = k) := by
  suffices hboth : Alike L k calls (run L .empty calls)
        (run L .empty (calls.filter fun d => d.key = k)) ∧
      decisions L k .empty calls = decisions L k .empty (calls.filter fun d => d.key = k) from
    hboth.2
  induction calls using List.reverseRecOn with
  | nil =>
      refine ⟨Or.inl ?_, rfl⟩
      intro now _
      exact ⟨fun w hw => absurd hw List.not_mem_nil, fun w hw => absurd hw List.not_mem_nil⟩
  | append_singleton calls c ih =>
      obtain ⟨halike, hsame⟩ := ih (List.pairwise_append.mp horder).1 huncrowded.front
      obtain ⟨hown, hother⟩ := halike.step hwidth horder huncrowded
      rw [run_concat, List.filter_append, decisions_append, decisions_append, hsame]
      by_cases hkey : c.key = k
      · have hsingle : [c].filter (fun d => decide (d.key = k)) = [c] := by
          rw [List.filter_cons, if_pos (decide_eq_true hkey), List.filter_nil]
        obtain ⟨hstep, hdecided⟩ := hown hkey
        rw [hsingle, run_concat]
        refine ⟨hstep, ?_⟩
        simp only [decisions, if_pos hkey, hdecided]
      · have hnone : [c].filter (fun d => decide (d.key = k)) = [] := by
          rw [List.filter_cons, if_neg (by rw [decide_eq_true_eq]; exact hkey), List.filter_nil]
        rw [hnone, List.append_nil]
        refine ⟨hother hkey, ?_⟩
        simp only [decisions, if_neg hkey]

/-! ### A key that is crowded out -/

/-- The window that a call of a new key opens. -/
def opened (L : Limits) (c : Call κ) : Window κ := ⟨c.key, c.now + L.width, 1⟩

/-- A call of a new key, where no window has ended. -/
theorem rows_step_fresh (hlive : ∀ w ∈ table.rows, c.now < w.resetAt)
    (hroom : table.rows.length ≤ L.capacity) (hwidth : 0 < L.width)
    (hfresh : ∀ w ∈ table.rows, w.key ≠ c.key) :
    (step L table c).rows =
      (table.rows ++ [opened L c]).drop (table.rows.length + 1 - L.capacity) := by
  have hall : ∀ rows : List (Window κ), (∀ w ∈ rows, c.now < w.resetAt) → live c.now rows = rows :=
    fun rows h => List.filter_eq_self.mpr fun w hw => decide_eq_true (h w hw)
  have hkept : (prune L.capacity c.now table).rows = table.rows := by
    show (live c.now table.rows).drop _ = _
    rw [hall _ hlive, Nat.sub_eq_zero_of_le hroom, List.drop_zero]
  have hget : (prune L.capacity c.now table).get c.key = none := by
    rw [get_none_iff, hkept]
    exact hfresh
  have hwritten : ((prune L.capacity c.now table).upsert (opened L c)).rows =
      table.rows ++ [opened L c] := by
    conv_rhs => rw [← hkept]
    exact rows_upsert_of_none hget
  have hliveAll : ∀ w ∈ table.rows ++ [opened L c], c.now < w.resetAt := by
    intro w hw
    rcases List.mem_append.mp hw with hw | hw
    · exact hlive w hw
    · rw [List.mem_singleton.mp hw]
      show c.now < c.now + L.width
      omega
  rw [step_opened hget]
  show (live c.now ((prune L.capacity c.now table).upsert (opened L c)).rows).drop
    ((live c.now ((prune L.capacity c.now table).upsert (opened L c)).rows).length - L.capacity) = _
  rw [hwritten, hall _ hliveAll, List.length_append, List.length_singleton]

/-- Dropping what there is no room for after each addition is dropping it at the end. -/
theorem drop_concat {α : Type} (rows : List α) (row : α) (capacity : Nat) (h : 0 < capacity) :
    (rows.drop (rows.length - capacity) ++ [row]).drop
        ((rows.drop (rows.length - capacity)).length + 1 - capacity) =
      (rows ++ [row]).drop (rows.length + 1 - capacity) := by
  rw [List.length_drop]
  by_cases hfull : capacity ≤ rows.length
  · have hone : rows.length - (rows.length - capacity) + 1 - capacity = 1 := by omega
    have hsum : rows.length + 1 - capacity = rows.length - capacity + 1 := by omega
    rw [hone, hsum, ← List.drop_append_of_le_length (Nat.sub_le _ _), List.drop_drop]
  · have hzero : rows.length - capacity = 0 := by omega
    rw [hzero, List.drop_zero, Nat.sub_zero]

/-- Calls of new keys, where no window has ended. -/
theorem rows_run_fresh {now : Nat} (hcapacity : 0 < L.capacity) (hwidth : 0 < L.width)
    (hlive : ∀ w ∈ table.rows, now < w.resetAt) (hroom : table.rows.length ≤ L.capacity)
    (hnow : ∀ d ∈ calls, d.now = now) (hfresh : ∀ d ∈ calls, ∀ w ∈ table.rows, w.key ≠ d.key)
    (hnodup : (calls.map Call.key).Nodup) :
    (run L table calls).rows = (table.rows ++ calls.map (opened L)).drop
      (table.rows.length + calls.length - L.capacity) := by
  induction calls using List.reverseRecOn with
  | nil =>
      have hzero : table.rows.length + ([] : List (Call κ)).length - L.capacity = 0 :=
        Nat.sub_eq_zero_of_le hroom
      rw [hzero, List.drop_zero, List.map_nil, List.append_nil]
      rfl
  | append_singleton calls c ih =>
      have hfront : ∀ d ∈ calls, d ∈ calls ++ [c] := fun d hd => List.mem_append_left _ hd
      rw [List.map_append, List.nodup_append] at hnodup
      have hrows := ih (fun d hd => hnow d (hfront d hd)) (fun d hd => hfresh d (hfront d hd))
        hnodup.1
      have hc : c ∈ calls ++ [c] := List.mem_append_right _ (List.mem_singleton_self c)
      have hsplit : ∀ w ∈ (run L table calls).rows,
          w ∈ table.rows ∨ ∃ d ∈ calls, opened L d = w := by
        intro w hw
        rw [hrows] at hw
        rcases List.mem_append.mp (List.mem_of_mem_drop hw) with hw | hw
        · exact Or.inl hw
        · exact Or.inr (List.mem_map.mp hw)
      have hlength : (table.rows ++ calls.map (opened L)).length =
          table.rows.length + calls.length := by
        rw [List.length_append, List.length_map]
      rw [run_concat, rows_step_fresh ?_ ?_ hwidth ?_, hrows, ← hlength,
        drop_concat _ _ _ hcapacity, hlength, List.map_append, List.length_append,
        List.append_assoc, Nat.add_assoc]
      · rfl
      · intro w hw
        rw [hnow c hc]
        rcases hsplit w hw with hw | ⟨d, hd, rfl⟩
        · exact hlive w hw
        · show now < d.now + L.width
          have hd' := hnow d (hfront d hd)
          omega
      · rw [hrows, List.length_drop, hlength]
        omega
      · intro w hw
        rcases hsplit w hw with hw | ⟨d, hd, rfl⟩
        · exact hfresh c hc w hw
        · exact hnodup.2.2 _ (List.mem_map_of_mem hd) _
            (List.mem_map_of_mem (List.mem_singleton_self c))

/-- **When as many other keys have opened windows as the table has room for, the window of a key is
gone, and its next call is let through again.** -/
theorem letThrough_again {now later : Nat} (hcapacity : 0 < L.capacity) (hwidth : 0 < L.width)
    (hlive : now < c.now + L.width) (hnow : ∀ d ∈ calls, d.now = now)
    (hfresh : ∀ d ∈ calls, d.key ≠ c.key) (hnodup : (calls.map Call.key).Nodup)
    (hmany : L.capacity ≤ calls.length) :
    letThrough L c.key .empty (c :: (calls ++ [⟨c.key, later⟩])) = 2 := by
  have hempty : (Table.Keyed.empty : Windows κ).rows = [] := rfl
  have hnone : ∀ w ∈ (Table.Keyed.empty : Windows κ).rows, w.key ≠ c.key :=
    fun w hw => absurd hw List.not_mem_nil
  have hfirst : (step L .empty c).rows = [opened L c] := by
    rw [rows_step_fresh (fun w hw => absurd hw List.not_mem_nil) (Nat.zero_le _) hwidth hnone,
      hempty, List.nil_append, List.length_nil, Nat.sub_eq_zero_of_le hcapacity, List.drop_zero]
  have hrows : (run L (step L .empty c) calls).rows =
      ([opened L c] ++ calls.map (opened L)).drop (1 + calls.length - L.capacity) := by
    rw [rows_run_fresh hcapacity hwidth ?_ ?_ hnow ?_ hnodup, hfirst]
    · rfl
    · rw [hfirst]
      intro w hw
      rw [List.mem_singleton.mp hw]
      exact hlive
    · rw [hfirst]
      exact hcapacity
    · rw [hfirst]
      intro d hd w hw
      rw [List.mem_singleton.mp hw]
      exact (hfresh d hd).symm
  have hgone : ∀ w ∈ (run L (step L .empty c) calls).rows, w.key = c.key → w.resetAt ≤ later := by
    intro w hw hkey
    have hmore : 1 + calls.length - L.capacity = calls.length - L.capacity + 1 := by omega
    rw [hrows, hmore, List.singleton_append, List.drop_succ_cons] at hw
    obtain ⟨d, hd, rfl⟩ := List.mem_map.mp (List.mem_of_mem_drop hw)
    exact absurd hkey (hfresh d hd)
  have hopened : (request L .empty c).1 = true :=
    through_of_ended fun w hw => absurd hw List.not_mem_nil
  have hagain : (request L (run L (step L .empty c) calls) ⟨c.key, later⟩).1 = true :=
    through_of_ended hgone
  have hothers : ∀ (calls : List (Call κ)) (table : Windows κ), (∀ d ∈ calls, d.key ≠ c.key) →
      decisions L c.key table calls = [] := by
    intro calls
    induction calls with
    | nil =>
        intro table _
        rfl
    | cons d rest ih =>
        intro table h
        rw [decisions, if_neg (h d List.mem_cons_self)]
        exact ih _ fun d hd => h d (List.mem_cons_of_mem _ hd)
  rw [letThrough_cons_own rfl, if_pos hopened, letThrough, decisions_append, hothers _ _ hfresh]
  simp only [decisions, hagain, if_true, List.nil_append, List.count_singleton_self]

end WindowCounter
