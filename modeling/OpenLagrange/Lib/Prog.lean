/-
Programs that call effects.

An asynchronous function is straight code between calls it awaits.  Every such
call may answer, may throw, and is a place where another program can run.  This
file represents the function by that skeleton: a tree whose inner nodes are the
calls and whose leaves are a returned value or a thrown message.

Two readings of a tree are used.  `exec` runs one program alone against a handler
and keeps the list of calls it made, each with the state it was made in.
`Lib/Together.lean` runs many of them together, one call at a time.

What a program may do is stated once, by `Obeys`, and both readings inherit it.
`Obeys φ ψ Q p` says that every call `p` makes satisfies `φ` and that every value
it returns satisfies `Q`, as long as each answer it is given satisfies `ψ`.  It is
proved along the text of the program, without running it.
-/
import Mathlib.Data.List.Basic

/-- A program over the effects `E`, where the effect `e` answers in `R e` or throws. -/
inductive Prog (E : Type) (R : E → Type) (α : Type) : Type where
  | done (a : α)
  | fail (message : String)
  | call (e : E) (k : Except String (R e) → Prog E R α)

namespace Prog

variable {E : Type} {R : E → Type} {S α β γ : Type}

/-- Run `p`, then `f` on what it returns; a throw of `p` ends the whole. -/
def bind : Prog E R α → (α → Prog E R β) → Prog E R β
  | .done a, f => f a
  | .fail m, _ => .fail m
  | .call e k, f => .call e fun r => (k r).bind f

instance : Monad (Prog E R) where
  pure := .done
  bind := bind

/-- One awaited call whose throw propagates. -/
def perform (e : E) : Prog E R (R e) :=
  .call e fun
    | .ok a => .done a
    | .error m => .fail m

/-- Run `p` and hand a throw to `f`. -/
def tryCatch : Prog E R α → (String → Prog E R α) → Prog E R α
  | .done a, _ => .done a
  | .fail m, f => f m
  | .call e k, f => .call e fun r => (k r).tryCatch f

@[simp] theorem pure_eq (a : α) : (pure a : Prog E R α) = .done a := rfl

@[simp] theorem bind_eq (p : Prog E R α) (f : α → Prog E R β) : p >>= f = p.bind f := rfl

@[simp] theorem done_bind (a : α) (f : α → Prog E R β) : (Prog.done a).bind f = f a := rfl

@[simp] theorem fail_bind (m : String) (f : α → Prog E R β) :
    (Prog.fail m : Prog E R α).bind f = .fail m := rfl

@[simp] theorem call_bind (e : E) (k : Except String (R e) → Prog E R α) (f : α → Prog E R β) :
    (Prog.call e k).bind f = .call e fun r => (k r).bind f := rfl

theorem bind_done (p : Prog E R α) : p.bind .done = p := by
  induction p with
  | done a => rfl
  | fail m => rfl
  | call e k ih =>
      rw [call_bind]
      congr 1
      funext r
      exact ih r

theorem bind_assoc (p : Prog E R α) (f : α → Prog E R β) (g : β → Prog E R γ) :
    (p.bind f).bind g = p.bind fun a => (f a).bind g := by
  induction p with
  | done a => rfl
  | fail m => rfl
  | call e k ih =>
      simp only [call_bind]
      congr 1
      funext r
      exact ih r

/-! ### Running one program alone -/

/-- What a handler does with a call: it answers or throws, and changes the state. -/
abbrev Handler (E : Type) (R : E → Type) (S : Type) :=
  (e : E) → S → Except String (R e) × S

/-- The end of a run: how it ended, the state left behind, and the calls made. -/
structure Exec (S E α : Type) where
  outcome : Except String α
  state : S
  trace : List (S × E)

variable (h : Handler E R S)

/-- Run a program to its end; each call is kept with the state it was made in. -/
def exec : Prog E R α → S → Exec S E α
  | .done a, s => ⟨.ok a, s, []⟩
  | .fail m, s => ⟨.error m, s, []⟩
  | .call e k, s =>
      let rest := exec (k (h e s).1) (h e s).2
      { rest with trace := (s, e) :: rest.trace }

@[simp] theorem exec_done (a : α) (s : S) :
    exec h (.done a : Prog E R α) s = ⟨.ok a, s, []⟩ := rfl

@[simp] theorem exec_fail (m : String) (s : S) :
    exec h (.fail m : Prog E R α) s = ⟨.error m, s, []⟩ := rfl

theorem exec_call (e : E) (k : Except String (R e) → Prog E R α) (s : S) :
    exec h (.call e k) s =
      ⟨(exec h (k (h e s).1) (h e s).2).outcome, (exec h (k (h e s).1) (h e s).2).state,
        (s, e) :: (exec h (k (h e s).1) (h e s).2).trace⟩ := rfl

@[simp] theorem exec_perform (e : E) (s : S) :
    exec h (perform e) s = ⟨(h e s).1, (h e s).2, [(s, e)]⟩ := by
  unfold perform
  rw [exec_call]
  cases (h e s).1 <;> rfl

/-- An awaited call that answers is followed by what comes after it. -/
theorem exec_perform_bind_ok {e : E} {s s' : S} {a : R e} (f : R e → Prog E R β)
    (he : h e s = (.ok a, s')) :
    exec h ((perform e).bind f) s =
      ⟨(exec h (f a) s').outcome, (exec h (f a) s').state, (s, e) :: (exec h (f a) s').trace⟩ := by
  unfold perform
  rw [call_bind, exec_call, he]
  rfl

/-- An awaited call that throws ends the whole. -/
theorem exec_perform_bind_error {e : E} {s s' : S} {m : String} (f : R e → Prog E R β)
    (he : h e s = (.error m, s')) :
    exec h ((perform e).bind f) s = ⟨.error m, s', [(s, e)]⟩ := by
  unfold perform
  rw [call_bind, exec_call, he]
  rfl

/-- A program whose first part returns goes on with the second part. -/
theorem exec_bind_ok {p : Prog E R α} {s : S} {a : α} (f : α → Prog E R β)
    (hp : (exec h p s).outcome = .ok a) :
    exec h (p.bind f) s =
      ⟨(exec h (f a) (exec h p s).state).outcome, (exec h (f a) (exec h p s).state).state,
        (exec h p s).trace ++ (exec h (f a) (exec h p s).state).trace⟩ := by
  induction p generalizing s with
  | done b =>
      cases hp
      rfl
  | fail m => cases hp
  | call e k ih =>
      have hk : (exec h (k (h e s).1) (h e s).2).outcome = .ok a := hp
      rw [call_bind, exec_call, ih _ hk]
      rfl

/-- A program whose first part throws ends there. -/
theorem exec_bind_error {p : Prog E R α} {s : S} {m : String} (f : α → Prog E R β)
    (hp : (exec h p s).outcome = .error m) :
    exec h (p.bind f) s = ⟨.error m, (exec h p s).state, (exec h p s).trace⟩ := by
  induction p generalizing s with
  | done b => cases hp
  | fail m' =>
      cases hp
      rfl
  | call e k ih =>
      have hk : (exec h (k (h e s).1) (h e s).2).outcome = .error m := hp
      rw [call_bind, exec_call, ih _ hk]
      rfl

/-- What the first part calls is called. -/
theorem mem_trace_bind_left {p : Prog E R α} {f : α → Prog E R β} {s : S} {c : S × E}
    (hc : c ∈ (exec h p s).trace) : c ∈ (exec h (p.bind f) s).trace := by
  cases hp : (exec h p s).outcome with
  | ok a =>
      rw [exec_bind_ok h f hp]
      exact List.mem_append_left _ hc
  | error m =>
      rw [exec_bind_error h f hp]
      exact hc

/-- What the second part calls is called, if the first part returns. -/
theorem mem_trace_bind_right {p : Prog E R α} {f : α → Prog E R β} {s : S} {a : α} {c : S × E}
    (hp : (exec h p s).outcome = .ok a) (hc : c ∈ (exec h (f a) (exec h p s).state).trace) :
    c ∈ (exec h (p.bind f) s).trace := by
  rw [exec_bind_ok h f hp]
  exact List.mem_append_right _ hc

/-- The calls of a program begin with those of its first part. -/
theorem trace_bind (p : Prog E R α) (f : α → Prog E R β) (s : S) :
    ∃ rest, (exec h (p.bind f) s).trace = (exec h p s).trace ++ rest := by
  cases hp : (exec h p s).outcome with
  | ok a => exact ⟨_, by rw [exec_bind_ok h f hp]⟩
  | error m => exact ⟨[], by rw [exec_bind_error h f hp, List.append_nil]⟩

/-! ### What a program may do -/

/-- Every call of the program satisfies `φ` and every value it returns satisfies
`Q`, provided the answers it is given satisfy `ψ`. -/
def Obeys (φ : E → Prop) (ψ : (e : E) → R e → Prop) (Q : α → Prop) : Prog E R α → Prop
  | .done a => Q a
  | .fail _ => True
  | .call e k =>
      φ e ∧ (∀ a, ψ e a → Obeys φ ψ Q (k (.ok a))) ∧ ∀ m, Obeys φ ψ Q (k (.error m))

variable {φ : E → Prop} {ψ : (e : E) → R e → Prop} {Q : α → Prop} {Q' : β → Prop}

theorem obeys_done {a : α} (ha : Q a) : Obeys φ ψ Q (.done a : Prog E R α) := ha

theorem obeys_fail {m : String} : Obeys φ ψ Q (.fail m : Prog E R α) := trivial

theorem obeys_perform {e : E} {Q : R e → Prop} (he : φ e) (hQ : ∀ a, ψ e a → Q a) :
    Obeys φ ψ Q (perform e) :=
  ⟨he, fun a ha => hQ a ha, fun _ => trivial⟩

theorem obeys_bind {p : Prog E R α} {f : α → Prog E R β} (hp : Obeys φ ψ Q p)
    (hf : ∀ a, Q a → Obeys φ ψ Q' (f a)) : Obeys φ ψ Q' (p.bind f) := by
  induction p with
  | done a => exact hf a hp
  | fail m => trivial
  | call e k ih => exact ⟨hp.1, fun a ha => ih _ (hp.2.1 a ha), fun m => ih _ (hp.2.2 m)⟩

theorem obeys_tryCatch {p : Prog E R α} {f : String → Prog E R α} (hp : Obeys φ ψ Q p)
    (hf : ∀ m, Obeys φ ψ Q (f m)) : Obeys φ ψ Q (p.tryCatch f) := by
  induction p with
  | done a => exact hp
  | fail m => exact hf m
  | call e k ih => exact ⟨hp.1, fun a ha => ih _ (hp.2.1 a ha), fun m => ih _ (hp.2.2 m)⟩

theorem Obeys.mono {φ' : E → Prop} {ψ' : (e : E) → R e → Prop} {Q₁ : α → Prop} {p : Prog E R α}
    (hp : Obeys φ ψ Q p) (hφ : ∀ e, φ e → φ' e) (hψ : ∀ e a, ψ' e a → ψ e a)
    (hQ : ∀ a, Q a → Q₁ a) : Obeys φ' ψ' Q₁ p := by
  induction p with
  | done a => exact hQ a hp
  | fail m => trivial
  | call e k ih =>
      exact ⟨hφ e hp.1, fun a ha => ih _ (hp.2.1 a (hψ e a ha)), fun m => ih _ (hp.2.2 m)⟩

/-- Two things known of a program are known together. -/
theorem Obeys.and {φ' : E → Prop} {ψ' : (e : E) → R e → Prop} {Q₁ : α → Prop} {p : Prog E R α}
    (hp : Obeys φ ψ Q p) (hp' : Obeys φ' ψ' Q₁ p) :
    Obeys (fun e => φ e ∧ φ' e) (fun e a => ψ e a ∧ ψ' e a) (fun a => Q a ∧ Q₁ a) p := by
  induction p with
  | done a => exact ⟨hp, hp'⟩
  | fail m => trivial
  | call e k ih =>
      exact ⟨⟨hp.1, hp'.1⟩, fun a ha => ih _ (hp.2.1 a ha.1) (hp'.2.1 a ha.2),
        fun m => ih _ (hp.2.2 m) (hp'.2.2 m)⟩

/-- A handler keeps `I` under the calls `φ`, and answers them within `ψ`. -/
structure Keeps (h : Handler E R S) (φ : E → Prop) (ψ : (e : E) → R e → Prop)
    (I : S → Prop) : Prop where
  state : ∀ e s, φ e → I s → I (h e s).2
  answer : ∀ e s a, φ e → I s → (h e s).1 = .ok a → ψ e a

variable {h} {I : S → Prop}

/-- Two invariants are kept together by the calls that keep both. -/
theorem Keeps.and {φ' : E → Prop} {ψ' : (e : E) → R e → Prop} {J : S → Prop}
    (hk : Keeps h φ ψ I) (hk' : Keeps h φ' ψ' J) :
    Keeps h (fun e => φ e ∧ φ' e) (fun e a => ψ e a ∧ ψ' e a) (fun s => I s ∧ J s) where
  state e s he hs := ⟨hk.state e s he.1 hs.1, hk'.state e s he.2 hs.2⟩
  answer e s a he hs ha := ⟨hk.answer e s a he.1 hs.1 ha, hk'.answer e s a he.2 hs.2 ha⟩

/-- **The invariant rule.**  A program that obeys `φ` keeps every invariant its
calls keep, makes each call in a state where it holds, and returns within `Q`. -/
theorem Obeys.exec (hk : Keeps h φ ψ I) {p : Prog E R α} {s : S}
    (hp : Obeys φ ψ Q p) (hs : I s) :
    I (exec h p s).state ∧ (∀ c ∈ (exec h p s).trace, I c.1 ∧ φ c.2) ∧
      ∀ a, (exec h p s).outcome = .ok a → Q a := by
  induction p generalizing s with
  | done a =>
      refine ⟨hs, by simp, ?_⟩
      intro b hb
      cases hb
      exact hp
  | fail m =>
      refine ⟨hs, by simp, ?_⟩
      intro b hb
      cases hb
  | call e k ih =>
      have hrest : Obeys φ ψ Q (k (h e s).1) := by
        cases ha : (h e s).1 with
        | ok a => exact hp.2.1 a (hk.answer e s a hp.1 hs ha)
        | error m => exact hp.2.2 m
      obtain ⟨hstate, htrace, hout⟩ := ih _ hrest (hk.state e s hp.1 hs)
      refine ⟨hstate, ?_, hout⟩
      intro c hc
      rcases List.mem_cons.mp hc with rfl | hc
      · exact ⟨hs, hp.1⟩
      · exact htrace c hc

/-- The answers that the run is given are within `ψ`. -/
def Along (h : Handler E R S) (ψ : (e : E) → R e → Prop) (p : Prog E R α) (s : S) : Prop :=
  ∀ c ∈ (exec h p s).trace, ∀ a, (h c.2 c.1).1 = .ok a → ψ c.2 a

section Along

variable {s : S}

theorem Along.left {p : Prog E R α} {f : α → Prog E R β} (hans : Along h ψ (p.bind f) s) :
    Along h ψ p s :=
  fun c hc => hans c (mem_trace_bind_left h hc)

theorem Along.right {p : Prog E R α} {f : α → Prog E R β} {a : α}
    (hans : Along h ψ (p.bind f) s) (ha : (Prog.exec h p s).outcome = .ok a) :
    Along h ψ (f a) (Prog.exec h p s).state :=
  fun c hc => hans c (mem_trace_bind_right h ha hc)

/-- Along answers within `ψ` the calls are within `φ` and the result within `Q`. -/
theorem Obeys.exec_along {p : Prog E R α} (hp : Obeys φ ψ Q p) (hans : Along h ψ p s) :
    (∀ c ∈ (Prog.exec h p s).trace, φ c.2) ∧
      ∀ a, (Prog.exec h p s).outcome = .ok a → Q a := by
  induction p generalizing s with
  | done a =>
      refine ⟨by simp, ?_⟩
      intro b hb
      cases hb
      exact hp
  | fail m =>
      refine ⟨by simp, ?_⟩
      intro b hb
      cases hb
  | call e k ih =>
      unfold Along at hans
      rw [exec_call] at hans
      have hrest : Obeys φ ψ Q (k (h e s).1) := by
        cases ha : (h e s).1 with
        | ok a => exact hp.2.1 a (hans (s, e) List.mem_cons_self a ha)
        | error m => exact hp.2.2 m
      obtain ⟨htrace, hout⟩ := ih _ hrest fun c hc => hans c (List.mem_cons_of_mem _ hc)
      refine ⟨?_, hout⟩
      intro c hc
      rcases List.mem_cons.mp hc with rfl | hc
      · exact hp.1
      · exact htrace c hc

end Along

/-- A relation that every call extends leads from each call of a run to its end. -/
theorem exec_extends {le : S → S → Prop} (hrefl : ∀ s, le s s)
    (htrans : ∀ s₁ s₂ s₃, le s₁ s₂ → le s₂ s₃ → le s₁ s₃) (hstep : ∀ e s, le s (h e s).2)
    (p : Prog E R α) (s : S) :
    le s (Prog.exec h p s).state ∧
      ∀ c ∈ (Prog.exec h p s).trace, le (h c.2 c.1).2 (Prog.exec h p s).state := by
  induction p generalizing s with
  | done a => exact ⟨hrefl s, by simp⟩
  | fail m => exact ⟨hrefl s, by simp⟩
  | call e k ih =>
      rw [exec_call]
      obtain ⟨hend, hcalls⟩ := ih (h e s).1 (h e s).2
      refine ⟨htrans _ _ _ (hstep e s) hend, ?_⟩
      intro c hc
      rcases List.mem_cons.mp hc with rfl | hc
      · exact hend
      · exact hcalls c hc

/-- What each call of a run keeps holds at its end. -/
theorem exec_keeps {p : Prog E R α} {s : S}
    (hcalls : ∀ c ∈ (Prog.exec h p s).trace, I c.1 → I (h c.2 c.1).2) (hs : I s) :
    I (Prog.exec h p s).state := by
  induction p generalizing s with
  | done a => exact hs
  | fail m => exact hs
  | call e k ih =>
      rw [exec_call] at hcalls
      exact ih (h e s).1 (fun c hc => hcalls c (List.mem_cons_of_mem _ hc))
        (hcalls (s, e) List.mem_cons_self hs)

/-! ### Programs that do not throw by themselves -/

/-- Whatever its calls answer, the program returns. -/
def Returns : Prog E R α → Prop
  | .done _ => True
  | .fail _ => False
  | .call _ k => ∀ a, Returns (k (.ok a))

theorem returns_perform {e : E} : Returns (perform e : Prog E R (R e)) := fun _ => trivial

theorem returns_bind {p : Prog E R α} {f : α → Prog E R β} (hp : Returns p)
    (hf : ∀ a, Returns (f a)) : Returns (p.bind f) := by
  induction p with
  | done a => exact hf a
  | fail m => exact hp.elim
  | call e k ih => exact fun a => ih _ (hp a)

/-- If none of its calls throws, such a program returns. -/
theorem Returns.exec (h : Handler E R S) {p : Prog E R α} {s : S} (hp : Returns p)
    (hcalls : ∀ c ∈ (exec h p s).trace, ∃ a, (h c.2 c.1).1 = .ok a) :
    ∃ a, (Prog.exec h p s).outcome = .ok a := by
  induction p generalizing s with
  | done a => exact ⟨a, rfl⟩
  | fail m => exact hp.elim
  | call e k ih =>
      rw [exec_call] at hcalls ⊢
      obtain ⟨a, ha⟩ := hcalls (s, e) List.mem_cons_self
      have hrest : Returns (k (h e s).1) := by
        rw [ha]
        exact hp a
      exact ih _ hrest fun c hc => hcalls c (List.mem_cons_of_mem _ hc)

/-- Whatever its calls answer within `ψ`, and whether or not the calls `guarded` throw, the
program returns. -/
def ReturnsWithin (ψ : (e : E) → R e → Prop) (guarded : E → Prop) : Prog E R α → Prop
  | .done _ => True
  | .fail _ => False
  | .call e k =>
      (∀ a, ψ e a → ReturnsWithin ψ guarded (k (.ok a))) ∧
        (guarded e → ∀ m, ReturnsWithin ψ guarded (k (.error m)))

section ReturnsWithin

variable {guarded : E → Prop}

theorem returnsWithin_perform {e : E} (he : ¬ guarded e) :
    ReturnsWithin ψ guarded (perform e : Prog E R (R e)) :=
  ⟨fun _ _ => trivial, fun hg => (he hg).elim⟩

/-- What comes after `p` has to return on the values that `p` can return. -/
theorem returnsWithin_bind {p : Prog E R α} {f : α → Prog E R β}
    (hp : ReturnsWithin ψ guarded p) (hQ : Obeys φ ψ Q p)
    (hf : ∀ a, Q a → ReturnsWithin ψ guarded (f a)) : ReturnsWithin ψ guarded (p.bind f) := by
  induction p with
  | done a => exact hf a hQ
  | fail m => exact hp.elim
  | call e k ih =>
      exact ⟨fun a ha => ih _ (hp.1 a ha) (hQ.2.1 a ha), fun hg m => ih _ (hp.2 hg m) (hQ.2.2 m)⟩

/-- If every call answers within `ψ`, or is guarded and throws, such a program returns. -/
theorem ReturnsWithin.exec (h : Handler E R S) {p : Prog E R α} {s : S}
    (hp : ReturnsWithin ψ guarded p)
    (hcalls : ∀ c ∈ (exec h p s).trace,
      (∃ a, (h c.2 c.1).1 = .ok a ∧ ψ c.2 a) ∨ (guarded c.2 ∧ ∃ m, (h c.2 c.1).1 = .error m)) :
    ∃ a, (Prog.exec h p s).outcome = .ok a := by
  induction p generalizing s with
  | done a => exact ⟨a, rfl⟩
  | fail m => exact hp.elim
  | call e k ih =>
      rw [exec_call] at hcalls ⊢
      have hrest : ReturnsWithin ψ guarded (k (h e s).1) := by
        rcases hcalls (s, e) List.mem_cons_self with ⟨a, ha, hψ⟩ | ⟨hg, m, hm⟩
        · rw [ha]
          exact hp.1 a hψ
        · rw [hm]
          exact hp.2 hg m
      exact ih _ hrest fun c hc => hcalls c (List.mem_cons_of_mem _ hc)

end ReturnsWithin

/-! ### What is seen of a run

An observation picks some of the calls of a run.  `Shows` states what a run comes to
in terms of how it ends, where it ends and what was seen of it; its rules follow the
text of a program, and a part that shows nothing is passed over in one step.
-/

section Shows

variable {O : Type} (h) (observe : S × E → Option O)

/-- Running `p` from `s` meets `post`. -/
def Shows (p : Prog E R α) (s : S) (post : Except String α → S → List O → Prop) : Prop :=
  post (Prog.exec h p s).outcome (Prog.exec h p s).state ((Prog.exec h p s).trace.filterMap observe)

variable {h observe} {post : Except String α → S → List O → Prop}
  {post' : Except String β → S → List O → Prop} {s : S}

theorem Shows.mono {post₁ : Except String α → S → List O → Prop} {p : Prog E R α}
    (hp : Shows h observe p s post) (hpost : ∀ out s' seen, post out s' seen → post₁ out s' seen) :
    Shows h observe p s post₁ :=
  hpost _ _ _ hp

theorem shows_done {a : α} (ha : post (.ok a) s []) :
    Shows h observe (.done a : Prog E R α) s post := ha

theorem shows_fail {m : String} (hm : post (.error m) s []) :
    Shows h observe (.fail m : Prog E R α) s post := hm

theorem shows_perform {e : E} {post : Except String (R e) → S → List O → Prop}
    (he : post (h e s).1 (h e s).2 (observe (s, e)).toList) :
    Shows h observe (perform e) s post := by
  unfold Shows
  rw [exec_perform]
  cases ho : observe (s, e) with
  | none =>
      rw [ho] at he
      simpa [ho] using he
  | some o =>
      rw [ho] at he
      simpa [ho] using he

/-- What comes after `p` is seen after it; a throw of `p` ends the whole. -/
theorem shows_bind {p : Prog E R α} {f : α → Prog E R β}
    (hp : Shows h observe p s fun out s' seen =>
      match out with
      | .ok a => Shows h observe (f a) s' fun out' s'' seen' => post' out' s'' (seen ++ seen')
      | .error m => post' (.error m) s' seen) :
    Shows h observe (p.bind f) s post' := by
  unfold Shows at hp ⊢
  cases ho : (Prog.exec h p s).outcome with
  | ok a =>
      rw [ho] at hp
      rw [exec_bind_ok h f ho]
      simpa [List.filterMap_append] using hp
  | error m =>
      rw [ho] at hp
      rw [exec_bind_error h f ho]
      exact hp

/-- What the calls of a program keep holds at the end of what is shown. -/
theorem Shows.keeping {p : Prog E R α} (hshows : Shows h observe p s post) (hk : Keeps h φ ψ I)
    (hp : Obeys φ ψ Q p) (hs : I s) :
    Shows h observe p s fun out s' seen => post out s' seen ∧ I s' ∧ ∀ a, out = .ok a → Q a := by
  obtain ⟨hstate, -, hout⟩ := hp.exec hk hs
  exact ⟨hshows, hstate, hout⟩

variable (h observe) in
/-- The calls `φ`, answered within `ψ`, keep `I` and are not seen where it holds. -/
structure Quiet (φ : E → Prop) (ψ : (e : E) → R e → Prop) (I : S → Prop) : Prop
    extends Keeps h φ ψ I where
  unseen : ∀ e s, φ e → I s → observe (s, e) = none

/-- A program that makes only quiet calls shows nothing. -/
theorem Obeys.shows (hq : Quiet h observe φ ψ I) {p : Prog E R α}
    (hp : Obeys φ ψ Q p) (hs : I s) :
    Shows h observe p s fun out s' seen => seen = [] ∧ I s' ∧ ∀ a, out = .ok a → Q a := by
  obtain ⟨hstate, htrace, hout⟩ := hp.exec hq.toKeeps hs
  refine ⟨?_, hstate, hout⟩
  rw [List.filterMap_eq_nil_iff]
  intro c hc
  exact hq.unseen c.2 c.1 (htrace c hc).2 (htrace c hc).1

/-- A quiet first part is passed over. -/
theorem Obeys.shows_bind (hq : Quiet h observe φ ψ I) {p : Prog E R α} {f : α → Prog E R β}
    (hp : Obeys φ ψ Q p) (hs : I s) (herr : ∀ m s', I s' → post' (.error m) s' [])
    (hok : ∀ a s', Q a → I s' → Shows h observe (f a) s' post') :
    Shows h observe (p.bind f) s post' := by
  refine Prog.shows_bind ((hp.shows hq hs).mono ?_)
  rintro (m | a) s' seen ⟨rfl, hI, hQ⟩
  · exact herr m s' hI
  · exact hok a s' (hQ a rfl) hI

end Shows

/-! ### Programs that run other programs

A program can be handed to another one, which serves the calls of the first by
calls of its own and keeps a value `σ` while it does.  `attempt` is what lets the
host see a throw without ending itself.
-/

section Interpret

variable {E' : Type} {R' : E' → Type} {σ : Type}

/-- Run `p` and return how it ended. -/
def attempt : Prog E R α → Prog E R (Except String α)
  | .done a => .done (.ok a)
  | .fail m => .done (.error m)
  | .call e k => .call e fun r => (k r).attempt

/-- Run `p`, each of its calls being served by a program; a throw of that program's is a
throw of the call. -/
def interpret (serve : (e : E') → σ → Prog E R (Except String (R' e) × σ)) :
    Prog E' R' α → σ → Prog E R (Except String α × σ)
  | .done a, x => .done (.ok a, x)
  | .fail m, x => .done (.error m, x)
  | .call e k, x => (serve e x).bind fun answer => interpret serve (k answer.1) answer.2

variable {h : Handler E R S} {φ : E → Prop} {ψ : (e : E) → R e → Prop}

theorem obeys_attempt {Q : α → Prop} {p : Prog E R α} (hp : Obeys φ ψ Q p) :
    Obeys φ ψ (fun out => ∀ a, out = .ok a → Q a) p.attempt := by
  induction p with
  | done a =>
      intro b hb
      cases hb
      exact hp
  | fail m =>
      intro b hb
      cases hb
  | call e k ih => exact ⟨hp.1, fun a ha => ih _ (hp.2.1 a ha), fun m => ih _ (hp.2.2 m)⟩

theorem exec_attempt (p : Prog E R α) (s : S) :
    exec h p.attempt s = ⟨.ok (exec h p s).outcome, (exec h p s).state, (exec h p s).trace⟩ := by
  induction p generalizing s with
  | done a => rfl
  | fail m => rfl
  | call e k ih =>
      unfold attempt
      rw [exec_call, exec_call, ih]

/-- What every served call may do is all that the whole may do. -/
theorem obeys_interpret {serve : (e : E') → σ → Prog E R (Except String (R' e) × σ)}
    (hserve : ∀ e x, Obeys φ ψ (fun _ => True) (serve e x)) (p : Prog E' R' α) (x : σ) :
    Obeys φ ψ (fun _ => True) (interpret serve p x) := by
  induction p generalizing x with
  | done a => trivial
  | fail m => trivial
  | call e k ih => exact obeys_bind (hserve e x) fun answer _ => ih answer.1 answer.2

/-- Run from anywhere, the program returns. -/
def Answers (h : Handler E R S) (p : Prog E R α) : Prop := ∀ s, ∃ a, (exec h p s).outcome = .ok a

theorem answers_done {a : α} : Answers h (.done a : Prog E R α) := fun _ => ⟨a, rfl⟩

theorem answers_bind {p : Prog E R α} {f : α → Prog E R β} (hp : Answers h p)
    (hf : ∀ a, Answers h (f a)) : Answers h (p.bind f) := by
  intro s
  obtain ⟨a, ha⟩ := hp s
  obtain ⟨b, hb⟩ := hf a (exec h p s).state
  exact ⟨b, by rw [exec_bind_ok h f ha, hb]⟩

/-- A throw is an answer to whoever attempts it. -/
theorem answers_attempt (p : Prog E R α) : Answers h p.attempt :=
  fun s => ⟨_, by rw [exec_attempt]⟩

theorem answers_interpret {serve : (e : E') → σ → Prog E R (Except String (R' e) × σ)}
    (hserve : ∀ e x, Answers h (serve e x)) (p : Prog E' R' α) (x : σ) :
    Answers h (interpret serve p x) := by
  induction p generalizing x with
  | done a => exact answers_done
  | fail m => exact answers_done
  | call e k ih => exact answers_bind (hserve e x) fun answer => ih answer.1 answer.2

/-- **Interpretation.**  If serving a call comes to what the handler `abstract` does with
it, then interpreting a program comes to running it against `abstract`. -/
theorem exec_interpret {serve : (e : E') → σ → Prog E R (Except String (R' e) × σ)}
    {abstract : Handler E' R' σ}
    (hserve : ∀ e x s, (exec h (serve e x) s).outcome = .ok (abstract e x))
    (p : Prog E' R' α) (x : σ) (s : S) :
    (exec h (interpret serve p x) s).outcome
      = .ok ((exec abstract p x).outcome, (exec abstract p x).state) := by
  induction p generalizing x s with
  | done a => rfl
  | fail m => rfl
  | call e k ih =>
      unfold interpret
      rw [exec_bind_ok h _ (hserve e x s), exec_call]
      exact ih _ _ _

end Interpret

end Prog
