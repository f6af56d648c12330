/-
Programs of several owners, run together.

A pool holds what is left of the programs of each owner.  A turn belongs to one owner: a program
of his joins the pool, or one of the programs he has there makes its next call.  The turns come in
any order.

What an owner sees of the state is his view of it.  The handler may read more than that, and then
what it reads belongs to nobody: the time, or a list that all of them write.  It is the moment of
a state.  `replay` gives every turn a moment of its own, so that turns can be left out while the
others keep theirs.

`run_own` is the result: where calls of the others leave an owner's view alone, and what his own
calls make of it is said by the view and the moment, his programs come to what they come to
without the others.  It is an induction on the turns of the run, with the two runs side by side;
what carries it is that they agree on the owner's programs and on his view.
-/
import OpenLagrange.Lib.Prog
import Mathlib.Logic.Function.Basic

namespace Together

variable {ι E : Type} {R : E → Type} {S M V α : Type}

/-! ### Turns -/

/-- What is left of the programs of each owner. -/
abbrev Pool (ι E : Type) (R : E → Type) (α : Type) := ι → List (Prog E R α)

inductive Turn (ι E : Type) (R : E → Type) (α : Type) where
  | join (owner : ι) (program : Prog E R α)
  /-- The program in this place makes its next call. -/
  | move (owner : ι) (place : Nat)

def Turn.owner : Turn ι E R α → ι
  | .join owner _ => owner
  | .move owner _ => owner

/-- What joins obeys what its owner is held to. -/
def Turn.Obeys (φ : ι → E → Prop) (ψ : (e : E) → R e → Prop) : Turn ι E R α → Prop
  | .join owner program => Prog.Obeys (φ owner) ψ (fun _ => True) program
  | .move _ _ => True

structure Running (ι E : Type) (R : E → Type) (S α : Type) where
  state : S
  pool : Pool ι E R α

/-- The next call of a program; one that has ended makes none. -/
def advance (h : Prog.Handler E R S) (s : S) : Prog E R α → S × Prog E R α
  | .call e k => ((h e s).2, k (h e s).1)
  | p => (s, p)

theorem advance_call (h : Prog.Handler E R S) (s : S) (e : E)
    (k : Except String (R e) → Prog E R α) :
    advance h s (.call e k) = ((h e s).2, k (h e s).1) := rfl

variable [DecidableEq ι]

def turn (h : Prog.Handler E R S) (running : Running ι E R S α) : Turn ι E R α → Running ι E R S α
  | .join i p => ⟨running.state, Function.update running.pool i (running.pool i ++ [p])⟩
  | .move i n =>
      match (running.pool i)[n]? with
      | none => running
      | some p =>
          ⟨(advance h running.state p).1,
            Function.update running.pool i ((running.pool i).set n (advance h running.state p).2)⟩

theorem turn_none (h : Prog.Handler E R S) {running : Running ι E R S α} {i : ι} {n : Nat}
    (hget : (running.pool i)[n]? = none) : turn h running (.move i n) = running := by
  simp only [turn, hget]

theorem turn_some (h : Prog.Handler E R S) {running : Running ι E R S α} {i : ι} {n : Nat}
    {p : Prog E R α} (hget : (running.pool i)[n]? = some p) :
    turn h running (.move i n) = ⟨(advance h running.state p).1,
      Function.update running.pool i ((running.pool i).set n (advance h running.state p).2)⟩ := by
  simp only [turn, hget]

def run (h : Prog.Handler E R S) (turns : List (Turn ι E R α)) (running : Running ι E R S α) :
    Running ι E R S α :=
  turns.foldl (turn h) running

/-- A run whose turns bring their moments along. -/
def replay (h : M → Prog.Handler E R S) (turns : List (M × Turn ι E R α))
    (running : Running ι E R S α) : Running ι E R S α :=
  turns.foldl (fun running t => turn (h t.1) running t.2) running

/-- The turns of a run, each with the moment it came in. -/
def timed (h : Prog.Handler E R S) (moment : S → M) :
    List (Turn ι E R α) → Running ι E R S α → List (M × Turn ι E R α)
  | [], _ => []
  | t :: rest, running => (moment running.state, t) :: timed h moment rest (turn h running t)

/-- The turns of one owner. -/
def ownTurns (i : ι) (turns : List (M × Turn ι E R α)) : List (M × Turn ι E R α) :=
  turns.filter fun t => t.2.owner = i

theorem ownTurns_cons (i : ι) (t : M × Turn ι E R α) (rest : List (M × Turn ι E R α)) :
    ownTurns i (t :: rest) = if t.2.owner = i then t :: ownTurns i rest else ownTurns i rest := by
  unfold ownTurns
  rw [List.filter_cons]
  simp only [decide_eq_true_eq]

theorem timed_turns (h : Prog.Handler E R S) (moment : S → M) (turns : List (Turn ι E R α))
    (running : Running ι E R S α) : (timed h moment turns running).map (·.2) = turns := by
  induction turns generalizing running with
  | nil => rfl
  | cons t rest ih =>
      unfold timed
      rw [List.map_cons, ih]

/-- A run is the replay of its turns, each in the moment it came in. -/
theorem replay_timed {h : M → Prog.Handler E R S} {g : Prog.Handler E R S} {moment : S → M}
    (hmoment : ∀ e s, h (moment s) e s = g e s) (turns : List (Turn ι E R α))
    (running : Running ι E R S α) :
    replay h (timed g moment turns running) running = run g turns running := by
  have hadvance : ∀ (s : S) (p : Prog E R α), advance (h (moment s)) s p = advance g s p := by
    intro s p
    cases p with
    | call e k => simp only [advance, hmoment]
    | done a => rfl
    | fail m => rfl
  have hturn : ∀ (running : Running ι E R S α) (t : Turn ι E R α),
      turn (h (moment running.state)) running t = turn g running t := by
    intro running t
    cases t with
    | join i p => rfl
    | move i n =>
        cases hget : (running.pool i)[n]? with
        | none => rw [turn_none _ hget, turn_none _ hget]
        | some p => rw [turn_some _ hget, turn_some _ hget, hadvance]
  induction turns generalizing running with
  | nil => rfl
  | cons t rest ih =>
      have hrest := ih (turn g running t)
      unfold replay run at hrest ⊢
      unfold timed
      rw [List.foldl_cons, List.foldl_cons, hturn]
      exact hrest

/-! ### What a turn leaves alone -/

theorem turn_pool_ne (h : Prog.Handler E R S) {running : Running ι E R S α} {t : Turn ι E R α}
    {i : ι} (hne : t.owner ≠ i) : (turn h running t).pool i = running.pool i := by
  cases t with
  | join j p => exact Function.update_of_ne (Ne.symm hne) _ _
  | move j n =>
      cases hget : (running.pool j)[n]? with
      | none => rw [turn_none h hget]
      | some p =>
          rw [turn_some h hget]
          exact Function.update_of_ne (Ne.symm hne) _ _

/-- The programs of every owner obey what he is held to. -/
def Obeying (φ : ι → E → Prop) (ψ : (e : E) → R e → Prop) (running : Running ι E R S α) : Prop :=
  ∀ i, ∀ p ∈ running.pool i, Prog.Obeys (φ i) ψ (fun _ => True) p

section Keeping

variable {φ : ι → E → Prop} {ψ : (e : E) → R e → Prop} {I : S → Prop} {h : Prog.Handler E R S}

omit [DecidableEq ι] in
theorem advance_obeys {i : ι} (hk : Prog.Keeps h (φ i) ψ I) {s : S} (hs : I s)
    {p : Prog E R α} (hp : Prog.Obeys (φ i) ψ (fun _ => True) p) :
    I (advance h s p).1 ∧ Prog.Obeys (φ i) ψ (fun _ => True) (advance h s p).2 := by
  cases p with
  | done a => exact ⟨hs, hp⟩
  | fail m => exact ⟨hs, hp⟩
  | call e k =>
      rw [advance_call]
      refine ⟨hk.state e s hp.1 hs, ?_⟩
      cases hanswer : (h e s).1 with
      | ok a => exact hp.2.1 a (hk.answer e s a hp.1 hs hanswer)
      | error m => exact hp.2.2 m

/-- **One turn keeps the state in order and the programs to what they are held to.** -/
theorem turn_keeps (hk : ∀ i, Prog.Keeps h (φ i) ψ I) {running : Running ι E R S α}
    (hs : I running.state) (hpool : Obeying φ ψ running) {t : Turn ι E R α} (ht : t.Obeys φ ψ) :
    I (turn h running t).state ∧ Obeying φ ψ (turn h running t) := by
  cases t with
  | join i p =>
      refine ⟨hs, ?_⟩
      intro j q hq
      by_cases hj : j = i
      · subst hj
        have hmem : q ∈ running.pool j ++ [p] := by
          have hself := Function.update_self (β := fun _ => List (Prog E R α)) j
            (running.pool j ++ [p]) running.pool
          exact hself ▸ hq
        rcases List.mem_append.mp hmem with hold | hnew
        · exact hpool j q hold
        · rw [List.mem_singleton.mp hnew]
          exact ht
      · refine hpool j q ?_
        have hother : (turn h running (.join i p)).pool j = running.pool j :=
          turn_pool_ne h (Ne.symm hj)
        exact hother ▸ hq
  | move i n =>
      cases hget : (running.pool i)[n]? with
      | none =>
          rw [turn_none h hget]
          exact ⟨hs, hpool⟩
      | some p =>
          have hp := hpool i p (List.mem_of_getElem? hget)
          obtain ⟨hstate, hnext⟩ := advance_obeys (hk i) hs hp
          refine ⟨?_, ?_⟩
          · rw [turn_some h hget]
            exact hstate
          · intro j q hq
            by_cases hj : j = i
            · subst hj
              rw [turn_some h hget] at hq
              have hmem : q ∈ (running.pool j).set n (advance h running.state p).2 := by
                have hself := Function.update_self (β := fun _ => List (Prog E R α)) j
                  ((running.pool j).set n (advance h running.state p).2) running.pool
                exact hself ▸ hq
              rcases List.mem_or_eq_of_mem_set hmem with hold | rfl
              · exact hpool j q hold
              · exact hnext
            · refine hpool j q ?_
              have hother : (turn h running (.move i n)).pool j = running.pool j :=
                turn_pool_ne h (Ne.symm hj)
              exact hother ▸ hq

/-- What every call keeps holds throughout, in whatever order the calls are made. -/
theorem run_keeps (hk : ∀ i, Prog.Keeps h (φ i) ψ I) {turns : List (Turn ι E R α)}
    (hturns : ∀ t ∈ turns, t.Obeys φ ψ) {running : Running ι E R S α}
    (hs : I running.state) (hpool : Obeying φ ψ running) :
    I (run h turns running).state ∧ Obeying φ ψ (run h turns running) := by
  induction turns generalizing running with
  | nil => exact ⟨hs, hpool⟩
  | cons t rest ih =>
      obtain ⟨hs', hpool'⟩ := turn_keeps hk hs hpool (hturns t List.mem_cons_self)
      exact ih (fun t ht => hturns t (List.mem_cons_of_mem _ ht)) hs' hpool'

end Keeping

/-! ### One owner alone -/

/-- The calls that owner `i` may make read no more than his view and the moment, and those of
`others` leave his view alone. -/
structure Separated (h : M → Prog.Handler E R S) (φ : ι → E → Prop) (ψ : (e : E) → R e → Prop)
    (I : S → Prop) (view : S → V) (i : ι) (others : ι → Prop) : Prop where
  keeps : ∀ m j, Prog.Keeps (h m) (φ j) ψ I
  own : ∀ m e s s', φ i e → view s = view s' →
    (h m e s).1 = (h m e s').1 ∧ view (h m e s).2 = view (h m e s').2
  others : ∀ m j e s, others j → φ j e → I s → view (h m e s).2 = view s

/-- Two runs agree on an owner: on his programs, and on what he sees. -/
structure Agree (view : S → V) (i : ι) (a b : Running ι E R S α) : Prop where
  pool : a.pool i = b.pool i
  view : view a.state = view b.state

variable {h : M → Prog.Handler E R S} {φ : ι → E → Prop} {ψ : (e : E) → R e → Prop}
  {I : S → Prop} {view : S → V} {i : ι} {others : ι → Prop} {a b : Running ι E R S α}

omit [DecidableEq ι] in
theorem Agree.advance (hsep : Separated h φ ψ I view i others) (hab : Agree view i a b) (m : M)
    {p : Prog E R α} (hp : Prog.Obeys (φ i) ψ (fun _ => True) p) :
    (Together.advance (h m) a.state p).2 = (Together.advance (h m) b.state p).2 ∧
      view (Together.advance (h m) a.state p).1 = view (Together.advance (h m) b.state p).1 := by
  cases p with
  | done a => exact ⟨rfl, hab.view⟩
  | fail m => exact ⟨rfl, hab.view⟩
  | call e k =>
      obtain ⟨hanswer, hview⟩ := hsep.own m e a.state b.state hp.1 hab.view
      unfold Together.advance
      exact ⟨congrArg k hanswer, hview⟩

/-- A turn of the owner's own comes to the same in both. -/
theorem Agree.own (hsep : Separated h φ ψ I view i others) (hab : Agree view i a b)
    (hpool : Obeying φ ψ a) (m : M) {t : Turn ι E R α} (ht : t.owner = i) :
    Agree view i (turn (h m) a t) (turn (h m) b t) := by
  subst ht
  cases t with
  | join j p =>
      refine ⟨?_, hab.view⟩
      unfold turn
      dsimp only [Turn.owner]
      have hsame : a.pool j = b.pool j := hab.pool
      rw [Function.update_self, Function.update_self, hsame]
  | move j n =>
      have hsame : a.pool j = b.pool j := hab.pool
      cases hget : (a.pool j)[n]? with
      | none =>
          rw [turn_none _ hget, turn_none _ (hsame ▸ hget)]
          exact hab
      | some p =>
          obtain ⟨hprogram, hview⟩ := hab.advance hsep m
            (hpool j p (List.mem_of_getElem? hget))
          rw [turn_some _ hget, turn_some _ (hsame ▸ hget)]
          refine ⟨?_, hview⟩
          dsimp only [Turn.owner]
          rw [Function.update_self, Function.update_self, hsame, hprogram]

/-- A turn of somebody else's changes nothing for the owner. -/
theorem Agree.other (hsep : Separated h φ ψ I view i others) (hab : Agree view i a b)
    (hs : I a.state) (hpool : Obeying φ ψ a) (m : M) {t : Turn ι E R α} (hne : t.owner ≠ i)
    (ht : others t.owner) : Agree view i (turn (h m) a t) b := by
  refine ⟨(turn_pool_ne (h m) hne).trans hab.pool, ?_⟩
  have hsame : view (turn (h m) a t).state = view a.state := by
    cases t with
    | join j p => rfl
    | move j n =>
        cases hget : (a.pool j)[n]? with
        | none => rw [turn_none _ hget]
        | some p =>
            have hp := hpool j p (List.mem_of_getElem? hget)
            rw [turn_some _ hget]
            cases p with
            | done a => rfl
            | fail m => rfl
            | call e k => exact hsep.others m j e a.state ht hp.1 hs
  exact hsame.trans hab.view

/-- **The turns of the others can be left out of a replay.** -/
theorem replay_own (hsep : Separated h φ ψ I view i others) {turns : List (M × Turn ι E R α)}
    (howner : ∀ t ∈ turns, t.2.owner = i ∨ others t.2.owner) (hturns : ∀ t ∈ turns, t.2.Obeys φ ψ)
    (hab : Agree view i a b) (hs : I a.state) (hpool : Obeying φ ψ a) :
    Agree view i (replay h turns a) (replay h (ownTurns i turns) b) := by
  induction turns generalizing a b with
  | nil => exact hab
  | cons t rest ih =>
      obtain ⟨hs', hpool'⟩ := turn_keeps (hsep.keeps t.1) hs hpool (hturns t List.mem_cons_self)
      have howner' := fun t ht => howner t (List.mem_cons_of_mem _ ht)
      have hturns' := fun t ht => hturns t (List.mem_cons_of_mem _ ht)
      rw [ownTurns_cons]
      by_cases hown : t.2.owner = i
      · rw [if_pos hown]
        exact ih howner' hturns' (hab.own hsep hpool t.1 hown) hs' hpool'
      · rw [if_neg hown]
        have hother := (howner t List.mem_cons_self).resolve_left hown
        exact ih howner' hturns' (hab.other hsep hs hpool t.1 hown hother) hs' hpool'

/-- **An owner's programs come to what they come to alone**: each of his turns in the moment it
came in, and none of the others'. -/
theorem run_own {g : Prog.Handler E R S} {moment : S → M}
    (hmoment : ∀ e s, h (moment s) e s = g e s) (hsep : Separated h φ ψ I view i others)
    {turns : List (Turn ι E R α)} (howner : ∀ t ∈ turns, t.owner = i ∨ others t.owner)
    (hturns : ∀ t ∈ turns, t.Obeys φ ψ) {running : Running ι E R S α} (hs : I running.state)
    (hpool : Obeying φ ψ running) :
    Agree view i (run g turns running)
      (replay h (ownTurns i (timed g moment turns running)) running) := by
  have hmem : ∀ t ∈ timed g moment turns running, t.2 ∈ turns := by
    intro t ht
    have hmap := timed_turns g moment turns running
    rw [← hmap]
    exact List.mem_map_of_mem ht
  rw [← replay_timed hmoment]
  exact replay_own hsep (fun t ht => howner t.2 (hmem t ht)) (fun t ht => hturns t.2 (hmem t ht))
    ⟨rfl, rfl⟩ hs hpool

end Together
