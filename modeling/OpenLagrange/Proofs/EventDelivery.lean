/-
Who an envelope is delivered to.

What is wanted is a set of pairs: subscribing a callback to a run adds it, and a function that
unsubscribes takes it away.  The map and its sets agree with the pairs as long as no unsubscribe
function, called once more, deletes or misses a set that has taken the place of its own.

A delivery calls functions on its way, one callback after another, so all that is said of it is
said of the calls made before a callback's turn.
-/
import OpenLagrange.Runs.RunEventSubscribers
import Mathlib.Data.Set.Insert

namespace OpenLagrange.Delivery

variable {κ : Type} [DecidableEq κ]

/-! ### What is wanted -/

/-- The callbacks that are subscribed to a run. -/
abbrev Subscribed (κ : Type) := Set (String × κ)

/-- After a number of functions were called. -/
def unsubscribed (functions : List (Subscription κ)) (wanted : Subscribed κ) (called : List Nat) :
    Subscribed κ :=
  {p ∈ wanted | ∀ n ∈ called, ∀ f, functions[n]? = some f → p ≠ (f.runId, f.onEvent)}

/-- What is wanted after a call; a delivery calls what the callbacks call that are given the
envelope. -/
def wantedAfter (s : Subscribers κ) (wanted : Subscribed κ) : Call κ → Subscribed κ
  | .subscribe runId onEvent => insert (runId, onEvent) wanted
  | .unsubscribe n => unsubscribed s.functions wanted [n]
  | .publish envelope reactions =>
      unsubscribed s.functions wanted
        ((s.publishRunEventEnvelope envelope reactions).1.flatMap reactions)

def wantedRun : Subscribers κ → Subscribed κ → List (Call κ) → Subscribed κ
  | _, wanted, [] => wanted
  | s, wanted, c :: rest => wantedRun (s.call c).2 (wantedAfter s wanted c) rest

/-- An envelope is delivered to the callbacks that are subscribed to its run, each once. -/
structure Delivered (functions : List (Subscription κ)) (wanted : Subscribed κ) (runId : String)
    (reactions : κ → List Nat) (delivered : List κ) : Prop where
  once : delivered.Nodup
  /-- Whoever is given it is subscribed, whatever those before it have called. -/
  subscribed : ∀ before onEvent after, delivered = before ++ onEvent :: after →
    (runId, onEvent) ∈ unsubscribed functions wanted (before.flatMap reactions)
  /-- Whoever is subscribed is given it, unless it is unsubscribed meanwhile. -/
  every : ∀ onEvent, (runId, onEvent) ∈ wanted → onEvent ∈ delivered ∨
    (runId, onEvent) ∉ unsubscribed functions wanted (delivered.flatMap reactions)

/-! ### Calls that take away what they should -/

/-- The function finds its own set registered for its run, or none. -/
def CleanUnsubscribe (s : Subscribers κ) (n : Nat) : Prop :=
  ∀ f, s.functions[n]? = some f → ∀ set, s.subscribers f.runId = some set → set = f.set

def CleanAll : Subscribers κ → List Nat → Prop
  | _, [] => True
  | s, n :: rest => CleanUnsubscribe s n ∧ CleanAll (s.unsubscribe n) rest

/-- Every function that is called on the way is called so. -/
def CleanDelivery (reactions : κ → List Nat) (set : Nat) : List κ → Subscribers κ → Prop
  | [], _ => True
  | onEvent :: rest, s =>
      if onEvent ∈ s.sets set then
        CleanAll s (reactions onEvent) ∧
          CleanDelivery reactions set rest (s.unsubscribeAll (reactions onEvent))
      else CleanDelivery reactions set rest s

def CleanCall (s : Subscribers κ) : Call κ → Prop
  | .subscribe _ _ => True
  | .unsubscribe n => CleanUnsubscribe s n
  | .publish envelope reactions =>
      ∀ set, s.subscribers envelope.runId = some set → CleanDelivery reactions set (s.sets set) s

def CleanRun : Subscribers κ → List (Call κ) → Prop
  | _, [] => True
  | s, c :: rest => CleanCall s c ∧ CleanRun (s.call c).2 rest

/-! ### The sets hold what is wanted -/

/-- The map and its sets agree with what is wanted. -/
structure Kept (s : Subscribers κ) (wanted : Subscribed κ) : Prop where
  mem : ∀ runId onEvent, (runId, onEvent) ∈ wanted ↔
    ∃ set, s.subscribers runId = some set ∧ onEvent ∈ s.sets set
  /-- No two runs share a set. -/
  own : ∀ runId runId' set, s.subscribers runId = some set → s.subscribers runId' = some set →
    runId = runId'
  made : ∀ runId set, s.subscribers runId = some set → set < s.fresh
  captured : ∀ f ∈ s.functions, f.set < s.fresh ∧
    ∀ runId, s.subscribers runId = some f.set → runId = f.runId
  nodup : ∀ set, (s.sets set).Nodup

variable {s : Subscribers κ} {wanted : Subscribed κ}

omit [DecidableEq κ] in
theorem Kept.empty : Kept (.empty : Subscribers κ) ∅ where
  mem runId onEvent := by
    constructor
    · intro h
      exact absurd h (Set.notMem_empty _)
    · rintro ⟨set, hset, -⟩
      cases hset
  own _ _ _ h := nomatch h
  made _ _ h := nomatch h
  captured _ h := absurd h List.not_mem_nil
  nodup _ := List.nodup_nil

theorem mem_add {members : List κ} {onEvent other : κ} :
    other ∈ Subscribers.add members onEvent ↔ other = onEvent ∨ other ∈ members := by
  unfold Subscribers.add
  split
  · rename_i hmem
    constructor
    · exact Or.inr
    · rintro (rfl | h)
      · exact hmem
      · exact h
  · rw [List.mem_append, List.mem_singleton, or_comm]

theorem nodup_add {members : List κ} (h : members.Nodup) (onEvent : κ) :
    (Subscribers.add members onEvent).Nodup := by
  unfold Subscribers.add
  split
  · exact h
  · rename_i hmem
    rw [← List.concat_eq_append, List.nodup_concat]
    exact ⟨hmem, h⟩

theorem subscribe_known {runId : String} {set : Nat} (h : s.subscribers runId = some set)
    (onEvent : κ) : s.subscribeRunEvents runId onEvent =
      { s with
        sets := Function.update s.sets set (Subscribers.add (s.sets set) onEvent)
        functions := s.functions ++ [⟨runId, onEvent, set⟩] } := by
  unfold Subscribers.subscribeRunEvents
  rw [h]

theorem subscribe_first {runId : String} (h : s.subscribers runId = none) (onEvent : κ) :
    s.subscribeRunEvents runId onEvent =
      { sets := Function.update s.sets s.fresh (Subscribers.add [] onEvent)
        fresh := s.fresh + 1
        subscribers := Function.update s.subscribers runId (some s.fresh)
        functions := s.functions ++ [⟨runId, onEvent, s.fresh⟩] } := by
  unfold Subscribers.subscribeRunEvents
  rw [h]

theorem unsubscribe_some {n : Nat} {f : Subscription κ} (h : s.functions[n]? = some f) :
    s.unsubscribe n =
      { s with
        sets := Function.update s.sets f.set ((s.sets f.set).erase f.onEvent)
        subscribers :=
          if ((s.sets f.set).erase f.onEvent).length = 0 then
            Function.update s.subscribers f.runId none
          else s.subscribers } := by
  unfold Subscribers.unsubscribe
  rw [h]

theorem unsubscribe_none {n : Nat} (h : s.functions[n]? = none) : s.unsubscribe n = s := by
  unfold Subscribers.unsubscribe
  rw [h]

theorem functions_unsubscribe (s : Subscribers κ) (n : Nat) :
    (s.unsubscribe n).functions = s.functions := by
  cases h : s.functions[n]? with
  | none => rw [unsubscribe_none h]
  | some f => rw [unsubscribe_some h]

/-- Subscribing to a run that has a set. -/
theorem Kept.subscribe_known {runId : String} {set : Nat} (h : Kept s wanted)
    (hrun : s.subscribers runId = some set) (onEvent : κ) :
    Kept (s.subscribeRunEvents runId onEvent) (insert (runId, onEvent) wanted) := by
  rw [Delivery.subscribe_known hrun]
  have hsets : ∀ set', Function.update s.sets set (Subscribers.add (s.sets set) onEvent) set' =
      if set' = set then Subscribers.add (s.sets set) onEvent else s.sets set' :=
    fun set' => Function.update_apply ..
  refine ⟨?_, h.own, h.made, ?_, ?_⟩
  · intro runId' other
    rw [Set.mem_insert_iff, h.mem]
    simp only [hsets]
    constructor
    · rintro (heq | ⟨set', hset', hmem⟩)
      · obtain ⟨rfl, rfl⟩ := Prod.mk.inj heq
        refine ⟨set, hrun, ?_⟩
        rw [if_pos rfl]
        exact mem_add.mpr (Or.inl rfl)
      · refine ⟨set', hset', ?_⟩
        split
        · rename_i hsame
          exact mem_add.mpr (Or.inr (hsame ▸ hmem))
        · exact hmem
    · rintro ⟨set', hset', hmem⟩
      split at hmem
      · rename_i hsame
        have hrunId : runId' = runId := h.own runId' runId set (hsame ▸ hset') hrun
        rcases mem_add.mp hmem with heq | hold
        · exact Or.inl (by rw [hrunId, heq])
        · exact Or.inr ⟨set, hsame ▸ hset', hold⟩
      · exact Or.inr ⟨set', hset', hmem⟩
  · intro f hf
    rcases List.mem_append.mp hf with hf | hf
    · exact h.captured f hf
    · rw [List.mem_singleton.mp hf]
      exact ⟨h.made runId set hrun, fun runId' hrun' => h.own runId' runId set hrun' hrun⟩
  · intro set'
    simp only [hsets]
    split
    · exact nodup_add (h.nodup set) onEvent
    · exact h.nodup set'

/-- Subscribing to a run that has none. -/
theorem Kept.subscribe_first {runId : String} (h : Kept s wanted)
    (hrun : s.subscribers runId = none) (onEvent : κ) :
    Kept (s.subscribeRunEvents runId onEvent) (insert (runId, onEvent) wanted) := by
  rw [Delivery.subscribe_first hrun]
  have hsets : ∀ set', Function.update s.sets s.fresh (Subscribers.add [] onEvent) set' =
      if set' = s.fresh then Subscribers.add [] onEvent else s.sets set' :=
    fun set' => Function.update_apply ..
  have hold : ∀ runId' set', s.subscribers runId' = some set' → set' ≠ s.fresh :=
    fun runId' set' hset' heq => absurd (h.made runId' set' hset') (by omega)
  have hcases : ∀ runId' set', Function.update s.subscribers runId (some s.fresh) runId' =
      some set' ↔ (runId' = runId ∧ set' = s.fresh) ∨
        (runId' ≠ runId ∧ s.subscribers runId' = some set') := by
    intro runId' set'
    rw [Function.update_apply]
    by_cases hsame : runId' = runId
    · rw [if_pos hsame, Option.some_inj]
      exact ⟨fun heq => Or.inl ⟨hsame, heq.symm⟩, fun hor => hor.elim (fun hl => hl.2.symm)
        fun hr => absurd hsame hr.1⟩
    · rw [if_neg hsame]
      exact ⟨fun hset' => Or.inr ⟨hsame, hset'⟩, fun hor => hor.elim (fun hl => absurd hl.1 hsame)
        fun hr => hr.2⟩
  refine ⟨?_, ?_, ?_, ?_, ?_⟩
  · intro runId' other
    rw [Set.mem_insert_iff, h.mem]
    simp only [hsets, hcases]
    constructor
    · rintro (heq | ⟨set', hset', hmem⟩)
      · obtain ⟨rfl, rfl⟩ := Prod.mk.inj heq
        refine ⟨s.fresh, Or.inl ⟨rfl, rfl⟩, ?_⟩
        rw [if_pos rfl]
        exact mem_add.mpr (Or.inl rfl)
      · have hne : runId' ≠ runId := fun heq => by
          rw [heq, hrun] at hset'
          cases hset'
        refine ⟨set', Or.inr ⟨hne, hset'⟩, ?_⟩
        rw [if_neg (hold runId' set' hset')]
        exact hmem
    · rintro ⟨set', ⟨hrunId, hfresh⟩ | ⟨-, hset'⟩, hmem⟩
      · rw [if_pos hfresh] at hmem
        rcases mem_add.mp hmem with heq | hnone
        · exact Or.inl (by rw [hrunId, heq])
        · exact absurd hnone List.not_mem_nil
      · rw [if_neg (hold runId' set' hset')] at hmem
        exact Or.inr ⟨set', hset', hmem⟩
  · intro runId₁ runId₂ set' h₁ h₂
    rcases (hcases runId₁ set').mp h₁ with ⟨rfl, hfresh₁⟩ | ⟨-, hset₁⟩
    · rcases (hcases runId₂ set').mp h₂ with ⟨rfl, -⟩ | ⟨-, hset₂⟩
      · rfl
      · exact absurd hfresh₁ (hold runId₂ set' hset₂)
    · rcases (hcases runId₂ set').mp h₂ with ⟨rfl, hfresh₂⟩ | ⟨-, hset₂⟩
      · exact absurd hfresh₂ (hold runId₁ set' hset₁)
      · exact h.own runId₁ runId₂ set' hset₁ hset₂
  · intro runId' set' hset'
    show set' < s.fresh + 1
    rcases (hcases runId' set').mp hset' with ⟨-, hfresh⟩ | ⟨-, hset'⟩
    · omega
    · have hlt := h.made runId' set' hset'
      omega
  · intro f hf
    rcases List.mem_append.mp hf with hf | hf
    · obtain ⟨hlt, hcaptured⟩ := h.captured f hf
      refine ⟨Nat.lt_succ_of_lt hlt, ?_⟩
      intro runId' hset'
      rcases (hcases runId' f.set).mp hset' with ⟨-, hfresh⟩ | ⟨-, hset'⟩
      · omega
      · exact hcaptured runId' hset'
    · rw [List.mem_singleton.mp hf]
      refine ⟨Nat.lt_succ_self _, ?_⟩
      intro runId' hset'
      rcases (hcases runId' s.fresh).mp hset' with ⟨hrunId, -⟩ | ⟨-, hset'⟩
      · exact hrunId
      · exact absurd rfl (hold runId' s.fresh hset')
  · intro set'
    simp only [hsets]
    split
    · exact nodup_add List.nodup_nil onEvent
    · exact h.nodup set'

/-- Subscribing adds a callback to those that are subscribed. -/
theorem Kept.subscribe (h : Kept s wanted) (runId : String) (onEvent : κ) :
    Kept (s.subscribeRunEvents runId onEvent) (insert (runId, onEvent) wanted) := by
  cases hrun : s.subscribers runId with
  | some set => exact h.subscribe_known hrun onEvent
  | none => exact h.subscribe_first hrun onEvent

omit [DecidableEq κ] in
theorem mem_unsubscribed_single {functions : List (Subscription κ)} {n : Nat}
    {f : Subscription κ} (hf : functions[n]? = some f) (p : String × κ) :
    p ∈ unsubscribed functions wanted [n] ↔ p ∈ wanted ∧ p ≠ (f.runId, f.onEvent) := by
  constructor
  · rintro ⟨hwanted, hcalled⟩
    exact ⟨hwanted, hcalled n (List.mem_singleton_self n) f hf⟩
  · rintro ⟨hwanted, hne⟩
    refine ⟨hwanted, ?_⟩
    intro m hm f' hf'
    rw [List.mem_singleton.mp hm, hf] at hf'
    rw [← Option.some.inj hf']
    exact hne

/-- Where the map and its sets lead after a call. -/
theorem look_unsubscribe (hnodup : ∀ set, (s.sets set).Nodup) {n : Nat} {f : Subscription κ}
    (hf : s.functions[n]? = some f) (runId : String) (set : Nat) (other : κ) :
    ((s.unsubscribe n).subscribers runId = some set ∧ other ∈ (s.unsubscribe n).sets set) ↔
      s.subscribers runId = some set ∧
        ¬ ((s.sets f.set).erase f.onEvent = [] ∧ runId = f.runId) ∧ other ∈ s.sets set ∧
          (set = f.set → other ≠ f.onEvent) := by
  rw [unsubscribe_some hf]
  have hset : other ∈ Function.update s.sets f.set ((s.sets f.set).erase f.onEvent) set ↔
      other ∈ s.sets set ∧ (set = f.set → other ≠ f.onEvent) := by
    by_cases hsame : set = f.set
    · rw [hsame, Function.update_self, (hnodup f.set).mem_erase_iff, and_comm]
      exact and_congr_right fun _ => ⟨fun hne _ => hne, fun hne => hne rfl⟩
    · rw [Function.update_of_ne hsame]
      exact ⟨fun hmem => ⟨hmem, fun heq => absurd heq hsame⟩, fun hmem => hmem.1⟩
  have hsubs : (if ((s.sets f.set).erase f.onEvent).length = 0 then
      Function.update s.subscribers f.runId none else s.subscribers) runId = some set ↔
      s.subscribers runId = some set ∧
        ¬ ((s.sets f.set).erase f.onEvent = [] ∧ runId = f.runId) := by
    by_cases hempty : (s.sets f.set).erase f.onEvent = []
    · rw [if_pos (List.length_eq_zero_iff.mpr hempty), Function.update_apply]
      by_cases hrun : runId = f.runId
      · rw [if_pos hrun]
        exact ⟨fun hnone => (nomatch hnone), fun hboth => absurd ⟨hempty, hrun⟩ hboth.2⟩
      · rw [if_neg hrun]
        exact ⟨fun hsome => ⟨hsome, fun hboth => hrun hboth.2⟩, fun hboth => hboth.1⟩
    · rw [if_neg fun hzero => hempty (List.length_eq_zero_iff.mp hzero)]
      exact ⟨fun hsome => ⟨hsome, fun hboth => hempty hboth.1⟩, fun hboth => hboth.1⟩
  exact (and_congr hsubs hset).trans and_assoc

theorem subscribers_unsubscribe {n : Nat} {runId : String} {set : Nat}
    (h : (s.unsubscribe n).subscribers runId = some set) : s.subscribers runId = some set := by
  cases hf : s.functions[n]? with
  | none =>
      rw [unsubscribe_none hf] at h
      exact h
  | some f =>
      rw [unsubscribe_some hf] at h
      dsimp only at h
      split at h
      · rw [Function.update_apply] at h
        split at h
        · cases h
        · exact h
      · exact h

theorem fresh_unsubscribe (s : Subscribers κ) (n : Nat) : (s.unsubscribe n).fresh = s.fresh := by
  cases hf : s.functions[n]? with
  | none => rw [unsubscribe_none hf]
  | some f => rw [unsubscribe_some hf]

theorem nodup_unsubscribe (hnodup : ∀ set, (s.sets set).Nodup) (n : Nat) (set : Nat) :
    ((s.unsubscribe n).sets set).Nodup := by
  cases hf : s.functions[n]? with
  | none =>
      rw [unsubscribe_none hf]
      exact hnodup set
  | some f =>
      rw [unsubscribe_some hf]
      show (Function.update s.sets f.set ((s.sets f.set).erase f.onEvent) set).Nodup
      rw [Function.update_apply]
      split
      · exact (hnodup f.set).erase _
      · exact hnodup set

/-- A clean call takes its callback away, and nothing else. -/
theorem Kept.unsubscribe (h : Kept s wanted) {n : Nat} (hclean : CleanUnsubscribe s n) :
    Kept (s.unsubscribe n) (unsubscribed s.functions wanted [n]) := by
  cases hf : s.functions[n]? with
  | none =>
      have hsame : unsubscribed s.functions wanted [n] = wanted := by
        ext p
        refine ⟨fun hp => hp.1, fun hp => ⟨hp, ?_⟩⟩
        intro m hm f hfm
        rw [List.mem_singleton.mp hm, hf] at hfm
        cases hfm
      rw [unsubscribe_none hf, hsame]
      exact h
  | some f =>
      refine ⟨?_, ?_, ?_, ?_, nodup_unsubscribe h.nodup n⟩
      · intro runId other
        rw [mem_unsubscribed_single hf, h.mem]
        simp only [look_unsubscribe h.nodup hf]
        constructor
        · rintro ⟨⟨set, hset, hmem⟩, hne⟩
          refine ⟨set, hset, ?_, hmem, ?_⟩
          · rintro ⟨hempty, hrun⟩
            rw [hrun] at hset hne
            have hother : other ≠ f.onEvent := fun heq => hne (by rw [heq])
            have hleft : other ∈ (s.sets f.set).erase f.onEvent :=
              (h.nodup f.set).mem_erase_iff.mpr ⟨hother, hclean f hf set hset ▸ hmem⟩
            rw [hempty] at hleft
            exact List.not_mem_nil hleft
          · intro hown heq
            have hrun := (h.captured f (List.mem_of_getElem? hf)).2 runId (hown ▸ hset)
            exact hne (by rw [hrun, heq])
        · rintro ⟨set, hset, -, hmem, hother⟩
          refine ⟨⟨set, hset, hmem⟩, ?_⟩
          intro heq
          obtain ⟨hrun, hsame⟩ := Prod.mk.inj heq
          exact hother (hclean f hf set (hrun ▸ hset)) hsame
      · intro runId runId' set hset hset'
        exact h.own runId runId' set (subscribers_unsubscribe hset) (subscribers_unsubscribe hset')
      · intro runId set hset
        rw [fresh_unsubscribe]
        exact h.made runId set (subscribers_unsubscribe hset)
      · intro g hg
        rw [functions_unsubscribe] at hg
        rw [fresh_unsubscribe]
        obtain ⟨hlt, hcaptured⟩ := h.captured g hg
        exact ⟨hlt, fun runId hset => hcaptured runId (subscribers_unsubscribe hset)⟩

/-! ### Delivering -/

omit [DecidableEq κ] in
theorem unsubscribed_append (functions : List (Subscription κ)) (wanted : Subscribed κ)
    (first second : List Nat) : unsubscribed functions wanted (first ++ second) =
      unsubscribed functions (unsubscribed functions wanted first) second := by
  ext p
  constructor
  · rintro ⟨hwanted, hcalled⟩
    exact ⟨⟨hwanted, fun n hn => hcalled n (List.mem_append_left _ hn)⟩,
      fun n hn => hcalled n (List.mem_append_right _ hn)⟩
  · rintro ⟨⟨hwanted, hfirst⟩, hsecond⟩
    refine ⟨hwanted, ?_⟩
    intro n hn
    rcases List.mem_append.mp hn with hn | hn
    · exact hfirst n hn
    · exact hsecond n hn

omit [DecidableEq κ] in
theorem unsubscribed_nil (functions : List (Subscription κ)) (wanted : Subscribed κ) :
    unsubscribed functions wanted [] = wanted := by
  ext p
  exact ⟨fun h => h.1, fun h => ⟨h, fun n hn => absurd hn List.not_mem_nil⟩⟩

theorem functions_unsubscribeAll (s : Subscribers κ) (called : List Nat) :
    (s.unsubscribeAll called).functions = s.functions := by
  induction called generalizing s with
  | nil => rfl
  | cons n rest ih => exact (ih (s.unsubscribe n)).trans (functions_unsubscribe s n)

/-- The set is the run's, or it was, and the run has none now. -/
def Follows (s : Subscribers κ) (runId : String) (set : Nat) : Prop :=
  s.subscribers runId = some set ∨ (s.subscribers runId = none ∧ s.sets set = [])

theorem Follows.unsubscribe {runId : String} {set n : Nat} (h : Follows s runId set)
    (hclean : CleanUnsubscribe s n) : Follows (s.unsubscribe n) runId set := by
  cases hf : s.functions[n]? with
  | none =>
      rw [unsubscribe_none hf]
      exact h
  | some f =>
      have hsets : (s.unsubscribe n).sets set =
          if set = f.set then (s.sets f.set).erase f.onEvent else s.sets set := by
        rw [unsubscribe_some hf]
        exact Function.update_apply ..
      have hsubs : (s.unsubscribe n).subscribers runId =
          if (s.sets f.set).erase f.onEvent = [] ∧ runId = f.runId then none
          else s.subscribers runId := by
        rw [unsubscribe_some hf]
        dsimp only
        by_cases hempty : (s.sets f.set).erase f.onEvent = []
        · rw [if_pos (List.length_eq_zero_iff.mpr hempty), Function.update_apply]
          by_cases hrun : runId = f.runId
          · rw [if_pos hrun, if_pos ⟨hempty, hrun⟩]
          · rw [if_neg hrun, if_neg fun hboth => hrun hboth.2]
        · rw [if_neg fun hzero => hempty (List.length_eq_zero_iff.mp hzero),
            if_neg fun hboth => hempty hboth.1]
      rcases h with hset | ⟨hnone, hempty⟩
      · by_cases hdeleted : (s.sets f.set).erase f.onEvent = [] ∧ runId = f.runId
        · have hown : set = f.set := hclean f hf set (hdeleted.2 ▸ hset)
          refine Or.inr ⟨hsubs.trans (if_pos hdeleted), ?_⟩
          rw [hsets, if_pos hown]
          exact hdeleted.1
        · exact Or.inl ((hsubs.trans (if_neg hdeleted)).trans hset)
      · refine Or.inr ⟨?_, ?_⟩
        · rw [hsubs, hnone, ite_self]
        · rw [hsets]
          split
          · rename_i hown
            rw [← hown, hempty]
            rfl
          · exact hempty

omit [DecidableEq κ] in
theorem Follows.mem {runId : String} {set : Nat} (h : Follows s runId set) (hkept : Kept s wanted)
    (onEvent : κ) : onEvent ∈ s.sets set ↔ (runId, onEvent) ∈ wanted := by
  rw [hkept.mem]
  rcases h with hset | ⟨hnone, hempty⟩
  · constructor
    · intro hmem
      exact ⟨set, hset, hmem⟩
    · rintro ⟨set', hset', hmem⟩
      rw [hset] at hset'
      rw [Option.some.inj hset']
      exact hmem
  · rw [hempty]
    constructor
    · intro hmem
      exact absurd hmem List.not_mem_nil
    · rintro ⟨set', hset', -⟩
      rw [hnone] at hset'
      cases hset'

theorem Kept.unsubscribeAll {runId : String} {set : Nat} (called : List Nat) :
    ∀ {s : Subscribers κ} {wanted : Subscribed κ}, Kept s wanted → Follows s runId set →
      CleanAll s called →
      Kept (s.unsubscribeAll called) (unsubscribed s.functions wanted called) ∧
        Follows (s.unsubscribeAll called) runId set := by
  induction called with
  | nil =>
      intro s wanted h hfollows _
      rw [unsubscribed_nil]
      exact ⟨h, hfollows⟩
  | cons n rest ih =>
      intro s wanted h hfollows hclean
      have hfirst := h.unsubscribe hclean.1
      have hrest := ih hfirst (hfollows.unsubscribe hclean.1) hclean.2
      rw [functions_unsubscribe, ← unsubscribed_append] at hrest
      exact hrest

theorem deliver_of_mem {reactions : κ → List Nat} {set : Nat} {onEvent : κ} {rest : List κ}
    (h : onEvent ∈ s.sets set) : Subscribers.deliver reactions set (onEvent :: rest) s =
      (onEvent :: (Subscribers.deliver reactions set rest (s.unsubscribeAll (reactions onEvent))).1,
        (Subscribers.deliver reactions set rest (s.unsubscribeAll (reactions onEvent))).2) :=
  if_pos h

theorem deliver_of_not_mem {reactions : κ → List Nat} {set : Nat} {onEvent : κ} {rest : List κ}
    (h : onEvent ∉ s.sets set) : Subscribers.deliver reactions set (onEvent :: rest) s =
      Subscribers.deliver reactions set rest s :=
  if_neg h

/-- What is said of the rest of a delivery: the loop goes through the callbacks that are left, and
delivers to those that are still subscribed at their turn. -/
theorem deliver_spec {reactions : κ → List Nat} {runId : String} {set : Nat} :
    ∀ (rest : List κ) {s : Subscribers κ} {wanted : Subscribed κ}, Kept s wanted →
      Follows s runId set → CleanDelivery reactions set rest s →
      let delivered := (Subscribers.deliver reactions set rest s).1
      delivered.Sublist rest ∧
        Kept (Subscribers.deliver reactions set rest s).2
          (unsubscribed s.functions wanted (delivered.flatMap reactions)) ∧
        (Subscribers.deliver reactions set rest s).2.functions = s.functions ∧
        (∀ before onEvent after, delivered = before ++ onEvent :: after →
          (runId, onEvent) ∈ unsubscribed s.functions wanted (before.flatMap reactions)) ∧
        ∀ onEvent ∈ rest, onEvent ∈ delivered ∨
          (runId, onEvent) ∉ unsubscribed s.functions wanted (delivered.flatMap reactions) := by
  intro rest
  induction rest with
  | nil =>
      intro s wanted h _ _
      refine ⟨List.Sublist.slnil, ?_, rfl, ?_, ?_⟩
      · show Kept s (unsubscribed s.functions wanted [])
        rw [unsubscribed_nil]
        exact h
      · intro before onEvent after hsplit
        exact absurd hsplit.symm (by simp [Subscribers.deliver])
      · exact fun onEvent hmem => absurd hmem List.not_mem_nil
  | cons first rest ih =>
      intro s wanted h hfollows hclean
      unfold CleanDelivery at hclean
      by_cases hmem : first ∈ s.sets set
      · rw [if_pos hmem] at hclean
        rw [deliver_of_mem hmem]
        obtain ⟨hkept, hstill⟩ := h.unsubscribeAll (reactions first) hfollows hclean.1
        obtain ⟨hsub, hafter, hfunctions, hturns, hevery⟩ := ih hkept hstill hclean.2
        rw [functions_unsubscribeAll] at hafter hfunctions hturns hevery
        have hall : ∀ delivered : List κ,
            unsubscribed s.functions (unsubscribed s.functions wanted (reactions first))
              (delivered.flatMap reactions) =
            unsubscribed s.functions wanted ((first :: delivered).flatMap reactions) := by
          intro delivered
          rw [List.flatMap_cons, unsubscribed_append]
        simp only [hall] at hafter hturns hevery
        refine ⟨hsub.cons_cons first, hafter, hfunctions, ?_, ?_⟩
        · intro before onEvent after hsplit
          cases before with
          | nil =>
              rw [List.nil_append] at hsplit
              obtain ⟨rfl, -⟩ := List.cons.inj hsplit
              rw [show ([] : List κ).flatMap reactions = [] from rfl, unsubscribed_nil]
              exact (hfollows.mem h first).mp hmem
          | cons other before =>
              rw [List.cons_append] at hsplit
              obtain ⟨rfl, hrest⟩ := List.cons.inj hsplit
              exact hturns before onEvent after hrest
        · intro onEvent hleft
          rcases List.mem_cons.mp hleft with rfl | hleft
          · exact Or.inl List.mem_cons_self
          · rcases hevery onEvent hleft with hin | hout
            · exact Or.inl (List.mem_cons_of_mem _ hin)
            · exact Or.inr hout
      · rw [if_neg hmem] at hclean
        rw [deliver_of_not_mem hmem]
        obtain ⟨hsub, hafter, hfunctions, hturns, hevery⟩ := ih h hfollows hclean
        refine ⟨hsub.cons first, hafter, hfunctions, hturns, ?_⟩
        intro onEvent hleft
        rcases List.mem_cons.mp hleft with rfl | hleft
        · refine Or.inr ?_
          intro hstays
          exact hmem ((hfollows.mem h _).mpr hstays.1)
        · exact hevery onEvent hleft

theorem publish_to_set {envelope : RunEventEnvelope} {set : Nat}
    (h : s.subscribers envelope.runId = some set) (reactions : κ → List Nat) :
    s.publishRunEventEnvelope envelope reactions =
      Subscribers.deliver reactions set (s.sets set) s := by
  unfold Subscribers.publishRunEventEnvelope
  rw [h]

theorem publish_to_none {envelope : RunEventEnvelope}
    (h : s.subscribers envelope.runId = none) (reactions : κ → List Nat) :
    s.publishRunEventEnvelope envelope reactions = ([], s) := by
  unfold Subscribers.publishRunEventEnvelope
  rw [h]

/-- **An envelope is delivered to the callbacks that are subscribed to its run, each once.** -/
theorem publish_delivered (h : Kept s wanted) (envelope : RunEventEnvelope)
    (reactions : κ → List Nat) (hclean : CleanCall s (.publish envelope reactions)) :
    Delivered s.functions wanted envelope.runId reactions
        (s.publishRunEventEnvelope envelope reactions).1 ∧
      Kept (s.publishRunEventEnvelope envelope reactions).2
        (wantedAfter s wanted (.publish envelope reactions)) ∧
      (s.publishRunEventEnvelope envelope reactions).2.functions = s.functions := by
  have hwantedAfter : wantedAfter s wanted (.publish envelope reactions) =
      unsubscribed s.functions wanted
        ((s.publishRunEventEnvelope envelope reactions).1.flatMap reactions) := rfl
  rw [hwantedAfter]
  cases hrun : s.subscribers envelope.runId with
  | none =>
      rw [publish_to_none hrun]
      refine ⟨⟨List.nodup_nil, ?_, ?_⟩, ?_, rfl⟩
      · intro before onEvent after hsplit
        have hlength := congrArg List.length hsplit
        rw [List.length_append, List.length_cons, List.length_nil] at hlength
        omega
      · intro onEvent hwanted
        obtain ⟨set, hset, -⟩ := (h.mem _ _).mp hwanted
        rw [hrun] at hset
        cases hset
      · rw [List.flatMap_nil, unsubscribed_nil]
        exact h
  | some set =>
      rw [publish_to_set hrun]
      obtain ⟨hsub, hafter, hfunctions, hturns, hevery⟩ :=
        deliver_spec (s.sets set) h (Or.inl hrun) (hclean set hrun)
      refine ⟨⟨hsub.nodup (h.nodup set), hturns, ?_⟩, hafter, hfunctions⟩
      intro onEvent hwanted
      have hfollows : Follows s envelope.runId set := Or.inl hrun
      exact hevery onEvent ((hfollows.mem h onEvent).mpr hwanted)

/-- What a clean call leaves agrees with what is wanted after it. -/
theorem Kept.call (h : Kept s wanted) {c : Call κ} (hclean : CleanCall s c) :
    Kept (s.call c).2 (wantedAfter s wanted c) := by
  cases c with
  | subscribe runId onEvent => exact h.subscribe runId onEvent
  | unsubscribe n => exact h.unsubscribe hclean
  | publish envelope reactions => exact (publish_delivered h envelope reactions hclean).2.1

theorem cleanRun_append (first second : List (Call κ)) : ∀ s : Subscribers κ,
    CleanRun s (first ++ second) ↔ CleanRun s first ∧ CleanRun (s.run first) second := by
  induction first with
  | nil => exact fun s => ⟨fun h => ⟨trivial, h⟩, fun h => h.2⟩
  | cons c rest ih =>
      intro s
      rw [List.cons_append, CleanRun, CleanRun, ih, and_assoc]
      exact Iff.rfl

theorem Kept.run (calls : List (Call κ)) : ∀ {s : Subscribers κ} {wanted : Subscribed κ},
    Kept s wanted → CleanRun s calls → Kept (s.run calls) (wantedRun s wanted calls) := by
  induction calls with
  | nil => exact fun h _ => h
  | cons c rest ih => exact fun h hclean => ih (h.call hclean.1) hclean.2

end OpenLagrange.Delivery
