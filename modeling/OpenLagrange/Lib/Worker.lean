/-
A greedy worker on a task graph.

The worker always takes the first task it may start, tells that it starts, records it
as active, works on it, and records how it ended.  A task that ends done lets it go
on, one that is halted stops it, and it may be interrupted at any moment.  What
working on a task may look like is a parameter, and so is the memory the work reads
and leaves behind.

`Round` is one task, `Greedy` a whole run.  A run is described by what is seen of it,
each start together with the phases it was decided in.  All results are about that
sequence: who starts and when, what every record satisfies, and, when nothing
interrupts the worker, that it ends where it should.
-/
import OpenLagrange.Lib.TaskGraph

/-- What is seen of a worker. -/
inductive Seen (ι ω : Type) where
  | start (n : ι) (φ : ι → Phase)
  | work (n : ι) (what : ω)
  | record (φ : ι → Phase)

/-- The task a start is about. -/
def Seen.started {ι ω : Type} : Seen ι ω → Option ι
  | .start n _ => some n
  | _ => none

@[simp] theorem Seen.started_start {ι ω : Type} (n : ι) (φ : ι → Phase) :
    (Seen.start n φ : Seen ι ω).started = some n := rfl

@[simp] theorem Seen.started_work {ι ω : Type} (n : ι) (what : ω) :
    (Seen.work n what).started = none := rfl

@[simp] theorem Seen.started_record {ι ω : Type} (φ : ι → Phase) :
    (Seen.record φ : Seen ι ω).started = none := rfl

/-- Why a run ended. -/
inductive Ending where
  | idle | halted | interrupted
  deriving DecidableEq

namespace TaskGraph

variable {ι ω M : Type} [DecidableEq ι]

/-- How working on a task with a memory may look and end; `none` is an interruption. -/
abbrev Work (ι ω M : Type) := ι → M → List ω → Option (Phase × M) → Prop

/-- One round at the task `n`, from the phases `φ` and the memory `m`. -/
inductive Round (W : Work ι ω M) (φ : ι → Phase) (m : M) (n : ι) :
    List (Seen ι ω) → (ι → Phase) → Option (Phase × M) → Prop
  | announced : Round W φ m n [.start n φ] φ none
  | marking {φ'} (h : φ' = φ ∨ φ' = Function.update φ n .active) :
      Round W φ m n [.start n φ, .record (Function.update φ n .active)] φ' none
  | working {works} (h : W n m works none) :
      Round W φ m n
        (.start n φ :: .record (Function.update φ n .active) :: works.map (.work n))
        (Function.update φ n .active) none
  | finishing {works p m' φ'} (h : W n m works (some (p, m')))
      (h' : φ' = Function.update φ n .active ∨ φ' = Function.update φ n p) :
      Round W φ m n
        (.start n φ :: .record (Function.update φ n .active) :: works.map (.work n) ++
          [.record (Function.update φ n p)]) φ' none
  | finished {works p m'} (h : W n m works (some (p, m'))) :
      Round W φ m n
        (.start n φ :: .record (Function.update φ n .active) :: works.map (.work n) ++
          [.record (Function.update φ n p)]) (Function.update φ n p) (some (p, m'))

/-- A run from the phases `φ` and the memory `m`. -/
inductive Greedy (g : TaskGraph ι) (W : Work ι ω M) :
    (ι → Phase) → M → List (Seen ι ω) → (ι → Phase) → M → Ending → Prop
  | idle {φ m} (h : g.ready φ = []) : Greedy g W φ m [] φ m .idle
  | stopped {φ m} : Greedy g W φ m [] φ m .interrupted
  | interrupted {φ m n rest seen φ'} (h : g.ready φ = n :: rest)
      (hr : Round W φ m n seen φ' none) : Greedy g W φ m seen φ' m .interrupted
  | halted {φ m n rest seen φ' p m'} (h : g.ready φ = n :: rest)
      (hr : Round W φ m n seen φ' (some (p, m'))) (hp : p ≠ .done) :
      Greedy g W φ m seen φ' m' .halted
  | next {φ m n rest seen φ' m' seen' φ'' m'' ending} (h : g.ready φ = n :: rest)
      (hr : Round W φ m n seen φ' (some (.done, m')))
      (hg : Greedy g W φ' m' seen' φ'' m'' ending) :
      Greedy g W φ m (seen ++ seen') φ'' m'' ending

variable {g : TaskGraph ι} {W : Work ι ω M} {φ φ' : ι → Phase} {m m' : M} {n : ι}
  {seen : List (Seen ι ω)} {ending : Ending}

/-! ### One round -/

theorem Round.started {r : Option (Phase × M)} (h : Round W φ m n seen φ' r) :
    seen.filterMap Seen.started = [n] := by
  cases h with
  | announced => rfl
  | marking h => rfl
  | working h => simp
  | finishing h h' => simp [or_imp, forall_and]
  | finished h => simp [or_imp, forall_and]

/-- Every start of a round is of its task, in the phases it begins with. -/
theorem Round.start_mem {r : Option (Phase × M)} (h : Round W φ m n seen φ' r) {k : ι}
    {ψ : ι → Phase} (hk : Seen.start k ψ ∈ seen) : k = n ∧ ψ = φ := by
  cases h with
  | announced => simpa using hk
  | marking h => simpa using hk
  | working h => simpa using hk
  | finishing h h' => simpa using hk
  | finished h => simpa using hk

/-- Every record of a round has only its task changed, to active or to how it ended. -/
theorem Round.record_mem {r : Option (Phase × M)} (h : Round W φ m n seen φ' r)
    {ψ : ι → Phase} (hψ : Seen.record ψ ∈ seen) :
    ψ = Function.update φ n .active ∨
      ∃ p works m', W n m works (some (p, m')) ∧ ψ = Function.update φ n p := by
  cases h with
  | announced => simp at hψ
  | marking h =>
      left
      simpa using hψ
  | working h =>
      left
      simpa using hψ
  | @finishing works p m' _ h h' =>
      have hcase : ψ = Function.update φ n .active ∨ ψ = Function.update φ n p := by simpa using hψ
      exact hcase.imp id fun he => ⟨p, works, m', h, he⟩
  | @finished works p m' h =>
      have hcase : ψ = Function.update φ n .active ∨ ψ = Function.update φ n p := by simpa using hψ
      exact hcase.imp id fun he => ⟨p, works, m', h, he⟩

/-- A round changes the phase of its task alone. -/
theorem Round.unchanged {r : Option (Phase × M)} (h : Round W φ m n seen φ' r) {k : ι}
    (hk : k ≠ n) : φ' k = φ k := by
  have hup : ∀ p, Function.update φ n p k = φ k := fun p => Function.update_of_ne hk p φ
  cases h with
  | announced => rfl
  | marking h =>
      rcases h with rfl | rfl
      · rfl
      · exact hup _
  | working h => exact hup _
  | finishing h h' =>
      rcases h' with rfl | rfl
      · exact hup _
      · exact hup _
  | finished h => exact hup _

theorem Round.finished_phases {p : Phase} (h : Round W φ m n seen φ' (some (p, m'))) :
    φ' = Function.update φ n p := by
  cases h with
  | finished h => rfl

/-! ### What is started -/

/-- **Only ready tasks are started.** -/
theorem Greedy.start_ready (h : Greedy g W φ m seen φ' m' ending) {k : ι} {ψ : ι → Phase}
    (hk : Seen.start k ψ ∈ seen) : k ∈ g.ready ψ := by
  induction h with
  | idle h => simp at hk
  | stopped => simp at hk
  | interrupted h hr =>
      obtain ⟨rfl, rfl⟩ := hr.start_mem hk
      simp [h]
  | halted h hr hp =>
      obtain ⟨rfl, rfl⟩ := hr.start_mem hk
      simp [h]
  | next h hr hg ih =>
      rcases List.mem_append.mp hk with hk | hk
      · obtain ⟨rfl, rfl⟩ := hr.start_mem hk
        simp [h]
      · exact ih hk

/-- A task that does not wait is not started. -/
theorem Greedy.start_waiting (h : Greedy g W φ m seen φ' m' ending) {k : ι}
    (hk : k ∈ seen.filterMap Seen.started) : φ k = .waiting := by
  induction h with
  | idle h => simp at hk
  | stopped => simp at hk
  | interrupted h hr | halted h hr hp =>
      rw [hr.started] at hk
      rw [List.mem_singleton.mp hk]
      exact (mem_ready.mp (h ▸ List.mem_cons_self)).2.1
  | @next φ m n rest seen φ' m' seen' φ'' m'' ending h hr hg ih =>
      rw [List.filterMap_append, hr.started] at hk
      have hn : φ n = .waiting := (mem_ready.mp (h ▸ List.mem_cons_self)).2.1
      by_cases hkn : k = n
      · rw [hkn]
        exact hn
      · have hk' : k ∈ seen'.filterMap Seen.started := by simpa [hkn] using hk
        rw [← hr.unchanged hkn]
        exact ih hk'

/-- **No task is started twice.** -/
theorem Greedy.started_nodup (h : Greedy g W φ m seen φ' m' ending) :
    (seen.filterMap Seen.started).Nodup := by
  induction h with
  | idle h => exact List.nodup_nil
  | stopped => exact List.nodup_nil
  | interrupted h hr | halted h hr hp =>
      rw [hr.started]
      exact List.nodup_singleton _
  | @next φ m n rest seen φ' m' seen' φ'' m'' ending h hr hg ih =>
      rw [List.filterMap_append, hr.started]
      refine List.nodup_cons.mpr ⟨?_, ih⟩
      -- After its round the task is done, and done tasks are not started.
      intro hn
      have hwait := hg.start_waiting hn
      rw [hr.finished_phases, Function.update_self] at hwait
      cases hwait

/-- A task whose phase changed was started. -/
theorem Greedy.started_of_changed (h : Greedy g W φ m seen φ' m' ending) {k : ι}
    (hk : φ' k ≠ φ k) : k ∈ seen.filterMap Seen.started := by
  induction h with
  | idle h => exact absurd rfl hk
  | stopped => exact absurd rfl hk
  | @interrupted φ m n rest seen φ' h hr =>
      rw [hr.started, List.mem_singleton]
      by_contra hkn
      exact hk (hr.unchanged hkn)
  | @halted φ m n rest seen φ' p m' h hr hp =>
      rw [hr.started, List.mem_singleton]
      by_contra hkn
      exact hk (hr.unchanged hkn)
  | @next φ m n rest seen φ' m' seen' φ'' m'' ending h hr hg ih =>
      rw [List.filterMap_append, hr.started, List.singleton_append, List.mem_cons]
      by_cases hkn : k = n
      · exact Or.inl hkn
      · refine Or.inr (ih ?_)
        rw [hr.unchanged hkn]
        exact hk

/-! ### What is recorded -/

/-- A ready task may be recorded in any phase. -/
private theorem closed_record (hφ : g.Closed φ) (hn : n ∈ g.ready φ) (p : Phase) :
    g.Closed (Function.update φ n p) := by
  have hfin : g.Closed (Function.update (Function.update φ n .active) n p) :=
    closed_finish (closed_start hφ hn) (Function.update_self n Phase.active φ)
  rwa [Function.update_idem] at hfin

theorem Round.closed {r : Option (Phase × M)} (h : Round W φ m n seen φ' r) (hφ : g.Closed φ)
    (hn : n ∈ g.ready φ) : (∀ ψ, Seen.record ψ ∈ seen → g.Closed ψ) ∧ g.Closed φ' := by
  refine ⟨?_, ?_⟩
  · intro ψ hψ
    rcases h.record_mem hψ with rfl | ⟨p, works, m', -, rfl⟩
    · exact closed_record hφ hn _
    · exact closed_record hφ hn _
  · cases h with
    | announced => exact hφ
    | marking h =>
        rcases h with rfl | rfl
        · exact hφ
        · exact closed_record hφ hn _
    | working h => exact closed_record hφ hn _
    | finishing h h' =>
        rcases h' with rfl | rfl
        · exact closed_record hφ hn _
        · exact closed_record hφ hn _
    | finished h => exact closed_record hφ hn _

/-- **Work already done stays supported**, in every record and at the end. -/
theorem Greedy.closed (h : Greedy g W φ m seen φ' m' ending) (hφ : g.Closed φ) :
    (∀ ψ, Seen.record ψ ∈ seen → g.Closed ψ) ∧ g.Closed φ' := by
  induction h with
  | idle h => exact ⟨by simp, hφ⟩
  | stopped => exact ⟨by simp, hφ⟩
  | interrupted h hr | halted h hr hp => exact hr.closed hφ (h ▸ List.mem_cons_self)
  | next h hr hg ih =>
      obtain ⟨hseen, hφ'⟩ := hr.closed hφ (h ▸ List.mem_cons_self)
      obtain ⟨hseen', hφ''⟩ := ih hφ'
      refine ⟨?_, hφ''⟩
      intro ψ hψ
      rcases List.mem_append.mp hψ with hψ | hψ
      · exact hseen ψ hψ
      · exact hseen' ψ hψ

/-- A round shows its start first. -/
theorem Round.head {r : Option (Phase × M)} (h : Round W φ m n seen φ' r) :
    ∃ tail, seen = .start n φ :: tail := by
  cases h with
  | announced => exact ⟨_, rfl⟩
  | marking h => exact ⟨_, rfl⟩
  | working h => exact ⟨_, rfl⟩
  | finishing h h' => exact ⟨_, rfl⟩
  | finished h => exact ⟨_, rfl⟩

/-- Nothing starts after a record of a round. -/
theorem Round.started_after {r : Option (Phase × M)} (h : Round W φ m n seen φ' r)
    {a b : List (Seen ι ω)} {ψ : ι → Phase} (hseen : seen = a ++ .record ψ :: b) :
    b.filterMap Seen.started = [] := by
  have hone := h.started
  obtain ⟨tail, htail⟩ := h.head
  cases a with
  | nil =>
      rw [hseen] at htail
      cases htail
  | cons s a' =>
      rw [hseen, List.cons_append] at htail
      obtain ⟨rfl, -⟩ := List.cons.inj htail
      rw [hseen] at hone
      simp only [List.cons_append, List.filterMap_cons_some (Seen.started_start n φ),
        List.filterMap_append, List.filterMap_cons_none (Seen.started_record ψ), List.cons.injEq,
        true_and, List.append_eq_nil_iff] at hone
      exact hone.2

/-- **A halt is final**: nothing starts after a record that shows a halted task. -/
theorem Greedy.started_after_halt (h : Greedy g W φ m seen φ' m' ending)
    (hφ : ∀ k ∈ g.tasks, φ k ≠ .halted) {a b : List (Seen ι ω)} {ψ : ι → Phase}
    (hseen : seen = a ++ .record ψ :: b) {k : ι} (hk : k ∈ g.tasks) (hψ : ψ k = .halted) :
    b.filterMap Seen.started = [] := by
  induction h generalizing a with
  | idle h => simp at hseen
  | stopped => simp at hseen
  | interrupted h hr | halted h hr hp => exact hr.started_after hseen
  | @next φ m n rest seen φ' m' seen' φ'' m'' ending h hr hg ih =>
      have hφ' : ∀ j ∈ g.tasks, φ' j ≠ .halted := by
        intro j hj
        rw [hr.finished_phases]
        by_cases hjn : j = n
        · rw [hjn, Function.update_self]
          simp
        · rw [Function.update_of_ne hjn]
          exact hφ j hj
      -- The record shows a halted task, so it is not one of this round, which ended done.
      have hnot : Seen.record ψ ∉ seen := by
        intro hmem
        have hshow : ∀ p, p ≠ .halted → Function.update φ n p k ≠ .halted := by
          intro p hp
          by_cases hkn : k = n
          · rw [hkn, Function.update_self]
            exact hp
          · rw [Function.update_of_ne hkn]
            exact hφ k hk
        cases hr with
        | finished hw =>
            have hcase : ψ = Function.update φ n .active ∨ ψ = Function.update φ n .done := by
              simpa using hmem
            rcases hcase with rfl | rfl
            · exact hshow _ (by simp) hψ
            · exact hshow _ (by simp) hψ
      rcases List.append_eq_append_iff.mp hseen with ⟨c, hc, hc'⟩ | ⟨c, hc, hc'⟩
      · exact ih hφ' hc'
      · cases c with
        | nil => exact ih hφ' (a := []) (by simpa using hc'.symm)
        | cons x c' =>
            obtain ⟨rfl, -⟩ := List.cons.inj hc'
            exact absurd (hc ▸ List.mem_append_right _ List.mem_cons_self) hnot

/-- What is seen of a worker that does nothing it should not. -/
structure Safe (g : TaskGraph ι) (seen : List (Seen ι ω)) : Prop where
  /-- Tasks start on top of what is done. -/
  ready : ∀ n φ, Seen.start n φ ∈ seen → n ∈ g.ready φ
  /-- No task starts twice. -/
  once : (seen.filterMap Seen.started).Nodup
  /-- What is done, or being worked on, stays supported. -/
  closed : ∀ φ, Seen.record φ ∈ seen → g.Closed φ
  /-- Nothing starts once a task was halted. -/
  final : ∀ a b φ n, seen = a ++ .record φ :: b → n ∈ g.tasks → φ n = .halted →
    b.filterMap Seen.started = []

/-- **A greedy worker that begins with everything waiting is safe.** -/
theorem Greedy.safe (h : Greedy g W φ m seen φ' m' ending) (hφ : ∀ n ∈ g.tasks, φ n = .waiting) :
    g.Safe seen where
  ready _ _ hk := h.start_ready hk
  once := h.started_nodup
  closed := by
    refine (h.closed ?_).1
    intro n hn hphase
    rw [hφ n hn] at hphase
    simp at hphase
  final a b ψ n hseen hn hψ := by
    refine h.started_after_halt ?_ hseen hn hψ
    intro k hk hhalt
    rw [hφ k hk] at hhalt
    cases hhalt

omit [DecidableEq ι] in
/-- Recording that everything waits is safe. -/
theorem Safe.record (h : g.Safe seen) (hφ : ∀ n ∈ g.tasks, φ n = .waiting) :
    g.Safe (.record φ :: seen) where
  ready n ψ hk := by
    rcases List.mem_cons.mp hk with hk | hk
    · cases hk
    · exact h.ready n ψ hk
  once := by
    rw [List.filterMap_cons_none (Seen.started_record φ)]
    exact h.once
  closed ψ hψ := by
    rcases List.mem_cons.mp hψ with hψ | hψ
    · cases hψ
      intro n hn hphase
      rw [hφ n hn] at hphase
      simp at hphase
    · exact h.closed ψ hψ
  final a b ψ n hseen hn hψ := by
    cases a with
    | nil =>
        cases hseen
        rw [hφ n hn] at hψ
        cases hψ
    | cons s a' =>
        obtain ⟨-, hrest⟩ := List.cons.inj hseen
        exact h.final a' b ψ n hrest hn hψ

/-! ### How a run ends -/

/-- An idle worker has nothing left that it could start. -/
theorem Greedy.idle_ready (h : Greedy g W φ m seen φ' m' .idle) : g.ready φ' = [] := by
  generalize he : Ending.idle = ending at h
  induction h with
  | idle h => exact h
  | stopped => cases he
  | interrupted h hr => cases he
  | halted h hr hp => cases he
  | next h hr hg ih => exact ih he

/-- Until the worker idles, every task it took ended done. -/
theorem Greedy.idle_phases (h : Greedy g W φ m seen φ' m' .idle) (k : ι) :
    φ' k = φ k ∨ φ' k = .done := by
  generalize he : Ending.idle = ending at h
  induction h with
  | idle h => exact Or.inl rfl
  | stopped => cases he
  | interrupted h hr => cases he
  | halted h hr hp => cases he
  | @next φ m n rest seen φ' m' seen' φ'' m'' ending h hr hg ih =>
      rcases ih he with hk | hk
      · by_cases hkn : k = n
        · right
          rw [hk, hr.finished_phases, hkn, Function.update_self]
        · left
          rw [hk, hr.unchanged hkn]
      · exact Or.inr hk

/-- **An idle worker is through**, if nothing stood in its way to begin with. -/
theorem Greedy.idle_all_done (h : Greedy g W φ m seen φ' m' .idle)
    (hacyc : WellFounded g.Below) (hmem : ∀ n ∈ g.tasks, ∀ d ∈ g.deps n, d ∈ g.tasks)
    (hφ : ∀ n ∈ g.tasks, φ n = .waiting ∨ φ n = .done) : ∀ n ∈ g.tasks, φ' n = .done := by
  have hφ' : ∀ n ∈ g.tasks, φ' n = .waiting ∨ φ' n = .done := by
    intro n hn
    rcases h.idle_phases n with hk | hk
    · rw [hk]
      exact hφ n hn
    · exact Or.inr hk
  intro n hn
  rcases hφ' n hn with hwait | hdone
  · exact absurd h.idle_ready (exists_ready hacyc hmem hφ' hn hwait)
  · exact hdone

/-- A worker that was not interrupted leaves a task as it was, or as the work on it ended. -/
theorem Greedy.phase_cases (h : Greedy g W φ m seen φ' m' ending) (hend : ending ≠ .interrupted)
    (k : ι) : φ' k = φ k ∨ ∃ m₀ works m₁, W k m₀ works (some (φ' k, m₁)) := by
  -- A round that is finished leaves its task as the work on it ended.
  have hround : ∀ {φ φ' : ι → Phase} {m m' : M} {n : ι} {seen : List (Seen ι ω)} {p : Phase},
      Round W φ m n seen φ' (some (p, m')) →
      φ' k = φ k ∨ ∃ m₀ works m₁, W k m₀ works (some (φ' k, m₁)) := by
    intro φ φ' m m' n seen p hr
    by_cases hkn : k = n
    · right
      cases hr with
      | @finished works _ _ hw =>
          refine ⟨m, works, m', ?_⟩
          rw [hkn, Function.update_self]
          exact hw
    · exact Or.inl (hr.unchanged hkn)
  induction h with
  | idle h => exact Or.inl rfl
  | stopped => exact absurd rfl hend
  | interrupted h hr => exact absurd rfl hend
  | halted h hr hp => exact hround hr
  | next h hr hg ih =>
      rcases ih hend with hk | hk
      · rw [hk]
        exact hround hr
      · exact Or.inr hk

end TaskGraph
