/-
Tasks with dependencies, and the phases they go through.

A task waits, is worked on, and ends done or halted.  A scheduler may start a
waiting task whose dependencies are all done, and may later reopen tasks.  The
facts here are about the phases alone: which transitions keep the work already
done supported by its dependencies, when there is always something left to start,
and which tasks a reopening has to take with it.

`Closed` is the invariant everything rests on: whatever is done, or being worked
on, has all its dependencies done.  Starting and finishing keep it for free.
Reopening keeps it exactly when no done task loses a dependency, which is why a
single task is reopened together with its dependents.
-/
import Mathlib.Data.List.Nodup
import Mathlib.Logic.Relation
import Mathlib.Order.WellFounded

/-- A count strictly drops when the condition narrows and some element falls out. -/
theorem List.countP_lt_of_imp {α : Type} {p q : α → Bool} {m : α} :
    ∀ {l : List α}, (∀ x ∈ l, p x = true → q x = true) → m ∈ l → p m = false → q m = true →
      l.countP p < l.countP q := by
  intro l
  induction l with
  | nil => intro _ hm; simp at hm
  | cons x rest ih =>
      intro himp hm hp hq
      have hrest : ∀ y ∈ rest, p y = true → q y = true := fun y hy => himp y (by simp [hy])
      have hle : rest.countP p ≤ rest.countP q := List.countP_mono_left hrest
      rw [List.countP_cons, List.countP_cons]
      rcases List.mem_cons.mp hm with rfl | hm'
      · simp [hp, hq]
        omega
      · have hlt := ih hrest hm' hp hq
        have hx := himp x (by simp)
        by_cases hpx : p x = true
        · simp [hpx, hx hpx]
          omega
        · simp [hpx]
          omega

/-- The phases of a task. -/
inductive Phase where
  | waiting | active | done | halted
  deriving DecidableEq, Repr

/-- Tasks in listing order, with what each depends on. -/
structure TaskGraph (ι : Type) where
  tasks : List ι
  deps : ι → List ι

namespace TaskGraph

variable {ι : Type} (g : TaskGraph ι)

/-- The tasks a scheduler may start, in listing order. -/
def ready (φ : ι → Phase) : List ι :=
  g.tasks.filter fun n => φ n = .waiting ∧ ∀ d ∈ g.deps n, φ d = .done

/-- Whatever is done or being worked on has its dependencies done. -/
def Closed (φ : ι → Phase) : Prop :=
  ∀ n ∈ g.tasks, φ n = .done ∨ φ n = .active → ∀ d ∈ g.deps n, φ d = .done

/-- The task `d` is a direct dependency of `n`. -/
def Below (d n : ι) : Prop := d ∈ g.deps n

variable {g} {φ φ' : ι → Phase} {n m : ι}

theorem mem_ready :
    n ∈ g.ready φ ↔ n ∈ g.tasks ∧ φ n = .waiting ∧ ∀ d ∈ g.deps n, φ d = .done := by
  unfold ready
  rw [List.mem_filter, decide_eq_true_iff]

/-! ### Starting, finishing and reopening keep the work supported -/

variable [DecidableEq ι]

theorem closed_start (h : g.Closed φ) (hn : n ∈ g.ready φ) :
    g.Closed (Function.update φ n .active) := by
  obtain ⟨-, hwait, hdeps⟩ := mem_ready.mp hn
  -- A dependency that is done is not `n`, which is still waiting.
  have hne : ∀ d, φ d = .done → d ≠ n := by
    rintro d hd rfl
    rw [hwait] at hd
    cases hd
  intro m hm hphase d hd
  have hdone : φ d = .done := by
    by_cases hmn : m = n
    · exact hdeps d (hmn ▸ hd)
    · rw [Function.update_of_ne hmn] at hphase
      exact h m hm hphase d hd
  rw [Function.update_of_ne (hne d hdone)]
  exact hdone

theorem closed_finish {p : Phase} (h : g.Closed φ) (hn : φ n = .active) :
    g.Closed (Function.update φ n p) := by
  have hne : ∀ d, φ d = .done → d ≠ n := by
    rintro d hd rfl
    rw [hn] at hd
    cases hd
  intro m hm hphase d hd
  have hdone : φ d = .done := by
    by_cases hmn : m = n
    · exact h m hm (Or.inr (hmn ▸ hn)) d hd
    · rw [Function.update_of_ne hmn] at hphase
      exact h m hm hphase d hd
  rw [Function.update_of_ne (hne d hdone)]
  exact hdone

omit [DecidableEq ι] in
/-- A reopening keeps the work supported when every task that stays done, or stays
active, keeps all its dependencies done. -/
theorem closed_reopen (h : g.Closed φ)
    (hkeep : ∀ n, φ' n = .done ∨ φ' n = .active → φ' n = φ n)
    (hdown : ∀ n ∈ g.tasks, φ' n = .done ∨ φ' n = .active →
      ∀ d ∈ g.deps n, φ d = .done → φ' d = .done) :
    g.Closed φ' := by
  intro n hn hphase d hd
  have hold : φ n = .done ∨ φ n = .active := by
    rw [← hkeep n hphase]
    exact hphase
  exact hdown n hn hphase d hd (h n hn hold d hd)

/-! ### There is always something to start -/

omit [DecidableEq ι] in
/-- Below a waiting task whose ancestors are all waiting or done, some task can start. -/
theorem exists_ready_below (hacyc : WellFounded g.Below)
    (hup : ∀ m, Relation.ReflTransGen g.Below m n →
      m ∈ g.tasks ∧ (φ m = .waiting ∨ φ m = .done))
    (hn : φ n = .waiting) :
    ∃ m ∈ g.ready φ, Relation.ReflTransGen g.Below m n := by
  induction n using hacyc.induction with
  | _ n ih =>
      by_cases hdeps : ∀ d ∈ g.deps n, φ d = .done
      · exact ⟨n, mem_ready.mpr ⟨(hup n .refl).1, hn, hdeps⟩, .refl⟩
      · -- Some dependency is not done, so it is waiting itself: descend into it.
        push Not at hdeps
        obtain ⟨d, hd, hnot⟩ := hdeps
        have hbelow : g.Below d n := hd
        have hwait : φ d = .waiting :=
          ((hup d (.single hbelow)).2).resolve_right hnot
        obtain ⟨m, hm, hmd⟩ := ih d hbelow (fun m hmd => hup m (hmd.tail hbelow)) hwait
        exact ⟨m, hm, hmd.tail hbelow⟩

omit [DecidableEq ι] in
/-- **Progress.**  When every task is waiting or done and some task waits, one can start. -/
theorem exists_ready (hacyc : WellFounded g.Below)
    (hmem : ∀ n ∈ g.tasks, ∀ d ∈ g.deps n, d ∈ g.tasks)
    (hphase : ∀ n ∈ g.tasks, φ n = .waiting ∨ φ n = .done)
    (hn : n ∈ g.tasks) (hwait : φ n = .waiting) : g.ready φ ≠ [] := by
  have hup : ∀ m, Relation.ReflTransGen g.Below m n → m ∈ g.tasks := by
    intro m hm
    induction hm using Relation.ReflTransGen.head_induction_on with
    | refl => exact hn
    | head hd _ ih => exact hmem _ ih _ hd
  obtain ⟨m, hm, -⟩ := exists_ready_below hacyc (fun m h => ⟨hup m h, hphase m (hup m h)⟩) hwait
  exact List.ne_nil_of_mem hm

/-! ### Counting what is left -/

/-- How many tasks are still waiting. -/
def waitingCount (g : TaskGraph ι) (φ : ι → Phase) : Nat :=
  g.tasks.countP fun n => φ n = .waiting

omit [DecidableEq ι] in
theorem waitingCount_le (g : TaskGraph ι) (φ : ι → Phase) :
    g.waitingCount φ ≤ g.tasks.length :=
  List.countP_le_length

/-- Taking one task out of the waiting phase lowers the count. -/
theorem waitingCount_update_lt {p : Phase} (hn : n ∈ g.tasks) (hwait : φ n = .waiting)
    (hp : p ≠ .waiting) : g.waitingCount (Function.update φ n p) < g.waitingCount φ := by
  refine List.countP_lt_of_imp ?_ hn (by simp [hp]) (by simpa using hwait)
  intro m _ hm
  by_cases hmn : m = n
  · rw [hmn]
    simpa using hwait
  · simpa [Function.update_of_ne hmn] using hm

/-! ### The tasks that depend on one task -/

/-- One pass over the tasks, adding each one that depends on something collected. -/
def dependentsPass (g : TaskGraph ι) (result : List ι) : List ι × Bool :=
  g.tasks.foldl
    (fun acc n =>
      if n ∉ acc.1 ∧ ∃ d ∈ g.deps n, d ∈ acc.1 then (acc.1 ++ [n], true) else acc)
    (result, false)

/-- Passes until one adds nothing; `none` when the number of passes runs out first. -/
def dependentsLoop (g : TaskGraph ι) : Nat → List ι → Option (List ι)
  | 0, _ => none
  | k + 1, result =>
      let pass := g.dependentsPass result
      if pass.2 then g.dependentsLoop k pass.1 else some pass.1

/-- The task `m` lists `n` among its dependencies. -/
def Supports (g : TaskGraph ι) (n m : ι) : Prop := m ∈ g.tasks ∧ n ∈ g.deps m

/-- What a pass over `l` knows of the collection it started from. -/
private structure Pass (g : TaskGraph ι) (l : List ι) (start : List ι) (fin : List ι × Bool)
    (flag : Bool) : Prop where
  sub : start ⊆ fin.1
  grown : ∀ m ∈ fin.1, m ∈ start ∨ ∃ n ∈ fin.1, g.Supports n m
  sound : ∀ P : ι → Prop, (∀ n ∈ start, P n) → (∀ n m, P n → g.Supports n m → P m) →
    ∀ m ∈ fin.1, P m
  unchanged : fin.2 = false →
    flag = false ∧ fin.1 = start ∧ ∀ m ∈ l, (∃ d ∈ g.deps m, d ∈ start) → m ∈ start
  changed : fin.2 = true → flag = true ∨ ∃ m ∈ l, m ∉ start ∧ m ∈ fin.1

private theorem pass_fold (g : TaskGraph ι) :
    ∀ (l : List ι), (∀ m ∈ l, m ∈ g.tasks) → ∀ (start : List ι) (flag : Bool),
      Pass g l start
        (l.foldl (fun acc n =>
          if n ∉ acc.1 ∧ ∃ d ∈ g.deps n, d ∈ acc.1 then (acc.1 ++ [n], true) else acc)
          (start, flag)) flag := by
  intro l
  induction l with
  | nil =>
      intro _ start flag
      exact ⟨fun _ h => h, fun m hm => Or.inl hm, fun P hP _ m hm => hP m hm,
        fun hf => ⟨hf, rfl, by simp⟩, fun ht => Or.inl ht⟩
  | cons x rest ih =>
      intro hl start flag
      have hx : x ∈ g.tasks := hl x (by simp)
      have hrest : ∀ m ∈ rest, m ∈ g.tasks := fun m hm => hl m (by simp [hm])
      rw [List.foldl_cons]
      by_cases hadd : x ∉ start ∧ ∃ d ∈ g.deps x, d ∈ start
      · rw [if_pos hadd]
        have hp := ih hrest (start ++ [x]) true
        obtain ⟨d, hd, hds⟩ := hadd.2
        refine ⟨fun m hm => hp.sub (by simp [hm]), ?_, ?_, ?_, ?_⟩
        · intro m hm
          rcases hp.grown m hm with hm' | hm'
          · rcases List.mem_append.mp hm' with hms | hmx
            · exact Or.inl hms
            · have hmx' : m = x := by simpa using hmx
              subst hmx'
              exact Or.inr ⟨d, hp.sub (by simp [hds]), hx, hd⟩
          · exact Or.inr hm'
        · intro P hstart hstep
          refine hp.sound P ?_ hstep
          intro n hn
          rcases List.mem_append.mp hn with hns | hnx
          · exact hstart n hns
          · have hnx' : n = x := by simpa using hnx
            subst hnx'
            exact hstep d n (hstart d hds) ⟨hx, hd⟩
        · intro hf
          exact absurd (hp.unchanged hf).1 (by simp)
        · intro _
          exact Or.inr ⟨x, by simp, hadd.1, hp.sub (by simp)⟩
      · rw [if_neg hadd]
        have hp := ih hrest start flag
        refine ⟨hp.sub, hp.grown, hp.sound, ?_, ?_⟩
        · intro hf
          obtain ⟨hflag, heq, hclosed⟩ := hp.unchanged hf
          refine ⟨hflag, heq, ?_⟩
          intro m hm hdep
          rcases List.mem_cons.mp hm with rfl | hm'
          · by_contra hnot
            exact hadd ⟨hnot, hdep⟩
          · exact hclosed m hm' hdep
        · intro ht
          rcases hp.changed ht with hflag | ⟨m, hm, hnot, hin⟩
          · exact Or.inl hflag
          · exact Or.inr ⟨m, by simp [hm], hnot, hin⟩

/-- How many tasks a collection still lacks. -/
private def missing (g : TaskGraph ι) (result : List ι) : Nat :=
  g.tasks.countP fun n => n ∉ result

private theorem missing_lt {g : TaskGraph ι} {start fin : List ι} {m : ι} (hsub : start ⊆ fin)
    (hm : m ∈ g.tasks) (hnot : m ∉ start) (hin : m ∈ fin) : g.missing fin < g.missing start := by
  refine List.countP_lt_of_imp ?_ hm (by simp [hin]) (by simp [hnot])
  intro x _ hx
  simp only [decide_eq_true_iff] at hx ⊢
  exact fun hs => hx (hsub hs)

/-- **The passes end, and collect the start together with all that builds on it.** -/
theorem dependentsLoop_spec (g : TaskGraph ι) :
    ∀ (k : Nat) (start : List ι), g.missing start < k →
      ∃ r, g.dependentsLoop k start = some r ∧ start ⊆ r ∧
        (∀ n m, n ∈ r → g.Supports n m → m ∈ r) ∧
        ∀ P : ι → Prop, (∀ n ∈ start, P n) → (∀ n m, P n → g.Supports n m → P m) →
          ∀ m ∈ r, P m := by
  intro k
  induction k with
  | zero => intro start h; omega
  | succ k ih =>
      intro start hk
      have hp := pass_fold g g.tasks (fun m hm => hm) start false
      unfold dependentsLoop
      change Pass g g.tasks start (g.dependentsPass start) false at hp
      by_cases hflag : (g.dependentsPass start).2 = true
      · simp only [hflag, if_true]
        have hlt : g.missing (g.dependentsPass start).1 < k := by
          rcases hp.changed hflag with hbad | ⟨m, hm, hnot, hin⟩
          · cases hbad
          · have := missing_lt hp.sub hm hnot hin
            omega
        obtain ⟨r, hr, hsub, hclosed, hleast⟩ := ih _ hlt
        refine ⟨r, hr, fun m hm => hsub (hp.sub hm), hclosed, ?_⟩
        intro P hstart hstep
        exact hleast P (hp.sound P hstart hstep) hstep
      · have hfalse : (g.dependentsPass start).2 = false := by simpa using hflag
        simp only [hfalse]
        obtain ⟨-, heq, hclosed⟩ := hp.unchanged hfalse
        refine ⟨(g.dependentsPass start).1, rfl, hp.sub, ?_, hp.sound⟩
        intro n m hn hnm
        rw [heq] at hn ⊢
        exact hclosed m hnm.1 ⟨n, hnm.2, hn⟩

/-- Starting from one task, the collection is exactly what is reachable from it. -/
theorem dependentsLoop_mem (g : TaskGraph ι) (n : ι) :
    ∃ r, g.dependentsLoop (g.tasks.length + 1) [n] = some r ∧
      ∀ m, m ∈ r ↔ Relation.ReflTransGen g.Supports n m := by
  obtain ⟨r, hr, hsub, hclosed, hleast⟩ := dependentsLoop_spec g (g.tasks.length + 1) [n]
    (Nat.lt_succ_of_le List.countP_le_length)
  refine ⟨r, hr, fun m => ⟨?_, ?_⟩⟩
  · refine hleast (Relation.ReflTransGen g.Supports n) ?_ (fun _ _ h hs => h.tail hs) m
    intro x hx
    have hxn : x = n := by simpa using hx
    rw [hxn]
  · intro hm
    induction hm with
    | refl => exact hsub (by simp)
    | tail _ hs ih => exact hclosed _ _ ih hs

end TaskGraph
