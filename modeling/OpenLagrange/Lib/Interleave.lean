/-
Calls that run together on one thread.

Such a call is straight code between the places where it waits, and nothing else runs during
that code.  A `Call` is a call seen as these blocks: each changes the shared state, and what the
call does next depends on the state the block found.  A run gives turns to the calls in any order;
the turns are listed with the latest first.

Two shapes of a call that changes a value are compared.  One changes it in a single block.  The
other reads the value in its first block and writes the changed value in its second, whatever has
become of the value in between.  What a run of such calls amounts to is decided by its turns
alone: nothing is lost exactly if no call writes between a read and the write that rests on it.
-/
import Mathlib.Data.List.Count
import Mathlib.Data.List.Nodup
import Mathlib.Logic.Function.Basic
import Mathlib.Tactic.Cases

namespace Interleave

/-- A call: its next block, and what comes after it. -/
inductive Call (S : Type) where
  | done
  | block (write : S → S) (next : S → Call S)


variable {S V ι : Type} [DecidableEq ι]

/-! ### Turns -/

structure Running (ι S : Type) where
  state : S
  calls : ι → Call S

def turn (running : Running ι S) (i : ι) : Running ι S :=
  match running.calls i with
  | .done => running
  | .block write next =>
      ⟨write running.state, Function.update running.calls i (next running.state)⟩

/-- The turns of a run, the latest first. -/
def run (calls : ι → Call S) (state : S) (turns : List ι) : Running ι S :=
  turns.foldr (fun i running => turn running i) ⟨state, calls⟩

/-- No call has anything left to do. -/
def Finished (running : Running ι S) : Prop := ∀ i, running.calls i = .done

theorem turn_other {running : Running ι S} {i k : ι} (h : i ≠ k) :
    (turn running k).calls i = running.calls i := by
  unfold turn
  cases running.calls k with
  | done => rfl
  | block write next => exact Function.update_of_ne h _ _

theorem turn_block {running : Running ι S} {i : ι} {write : S → S} {next : S → Call S}
    (h : running.calls i = .block write next) :
    (turn running i).state = write running.state ∧
      (turn running i).calls i = next running.state := by
  unfold turn
  rw [h]
  exact ⟨rfl, Function.update_self _ _ _⟩

theorem turn_done {running : Running ι S} {i : ι} (h : running.calls i = .done) :
    turn running i = running := by
  unfold turn
  rw [h]

/-! ### One state seen through another -/

/-- On the states that `place` puts the values at, the one call does what the other does. -/
inductive Follows (place : V → S) : Call S → Call V → Prop where
  | done : Follows place .done .done
  | block {write : S → S} {next : S → Call S} {write' : V → V} {next' : V → Call V}
      (hwrite : ∀ v, write (place v) = place (write' v))
      (hnext : ∀ v, Follows place (next (place v)) (next' v)) :
      Follows place (.block write next) (.block write' next')

theorem turn_follows {place : V → S} {running : Running ι S} {running' : Running ι V}
    (hstate : running.state = place running'.state)
    (hcalls : ∀ i, Follows place (running.calls i) (running'.calls i)) (i : ι) :
    (turn running i).state = place (turn running' i).state ∧
      ∀ k, Follows place ((turn running i).calls k) ((turn running' i).calls k) := by
  have hi := hcalls i
  cases hcall : running.calls i with
  | done =>
      rw [hcall] at hi
      cases hcall' : running'.calls i with
      | done =>
          rw [turn_done hcall, turn_done hcall']
          exact ⟨hstate, hcalls⟩
      | block write' next' =>
          rw [hcall'] at hi
          cases hi
  | block write next =>
      rw [hcall] at hi
      cases hcall' : running'.calls i with
      | done =>
          rw [hcall'] at hi
          cases hi
      | block write' next' =>
          rw [hcall'] at hi
          obtain ⟨hwrite, hnext⟩ : (∀ v, write (place v) = place (write' v)) ∧
              ∀ v, Follows place (next (place v)) (next' v) := by
            cases hi with
            | block hwrite hnext => exact ⟨hwrite, hnext⟩
          obtain ⟨hafter, hself⟩ := turn_block hcall
          obtain ⟨hafter', hself'⟩ := turn_block hcall'
          refine ⟨?_, ?_⟩
          · rw [hafter, hafter', hstate, hwrite]
          · intro k
            by_cases hk : k = i
            · subst hk
              rw [hself, hself', hstate]
              exact hnext _
            · rw [turn_other hk, turn_other hk]
              exact hcalls k

/-- **So do runs of them.** -/
theorem run_follows {place : V → S} {calls : ι → Call S} {calls' : ι → Call V}
    (h : ∀ i, Follows place (calls i) (calls' i)) (v : V) (turns : List ι) :
    (run calls (place v) turns).state = place (run calls' v turns).state ∧
      ∀ i, Follows place ((run calls (place v) turns).calls i) ((run calls' v turns).calls i) := by
  induction turns with
  | nil => exact ⟨rfl, h⟩
  | cons i earlier ih => exact turn_follows ih.1 ih.2 i

omit [DecidableEq ι] in
theorem finished_iff_of_follows {place : V → S} {running : Running ι S} {running' : Running ι V}
    (h : ∀ i, Follows place (running.calls i) (running'.calls i)) :
    Finished running ↔ Finished running' := by
  refine forall_congr' fun i => ?_
  have hi := h i
  constructor
  · intro hdone
    rw [hdone] at hi
    cases hrun : running'.calls i with
    | done => rfl
    | block write next =>
        rw [hrun] at hi
        cases hi
  · intro hdone
    rw [hdone] at hi
    cases hrun : running.calls i with
    | done => rfl
    | block write next =>
        rw [hrun] at hi
        cases hi

/-! ### Calls that change a value -/

/-- In one block; a call without a change only looks. -/
def atOnce (change : Option (V → V)) : Call V :=
  .block (fun v => change.elim v fun f => f v) fun _ => .done

/-- The change is made to the value that was read, and written over the value there is. -/
def readThenWrite (change : Option (V → V)) : Call V :=
  .block id fun seen => .block (fun v => change.elim v fun f => f seen) fun _ => .done

variable (changes : ι → Option (V → V))

/-- The next turn of `i` writes, if calls write in the turn that has `n` before it. -/
def Writes (n : Nat) (earlier : List ι) (i : ι) : Prop :=
  (changes i).isSome ∧ earlier.count i = n

instance (n : Nat) (earlier : List ι) (i : ι) : Decidable (Writes changes n earlier i) :=
  inferInstanceAs (Decidable (_ ∧ _))

/-- The calls that wrote, the latest first. -/
def writers (n : Nat) : List ι → List ι
  | [] => []
  | i :: earlier =>
      if Writes changes n earlier i then i :: writers n earlier else writers n earlier

/-- Since `i` read the value, another call has written. -/
def Stale : List ι → ι → Prop
  | [], _ => False
  | k :: earlier, i =>
      k ≠ i ∧ (Stale earlier i ∨ earlier.count i = 1 ∧ Writes changes 1 earlier k)

/-- No call writes what rests on a value that another has written over. -/
def Undisturbed : List ι → Prop
  | [] => True
  | i :: earlier =>
      Undisturbed earlier ∧ (Writes changes 1 earlier i → ¬ Stale changes earlier i)

/-- All the changes of these calls, the last in the list first. -/
def changed (v : V) (calls : List ι) : V :=
  calls.foldr (fun i value => (changes i).elim value fun f => f value) v

variable {changes}

theorem writers_subset {n : Nat} {turns : List ι} {i : ι} (h : i ∈ writers changes n turns) :
    (changes i).isSome ∧ n < turns.count i := by
  induction turns with
  | nil => exact absurd h List.not_mem_nil
  | cons k earlier ih =>
      unfold writers at h
      split at h
      · rename_i hwrites
        rcases List.mem_cons.mp h with rfl | hrest
        · refine ⟨hwrites.1, ?_⟩
          rw [List.count_cons_self, hwrites.2]
          exact Nat.lt_succ_self n
        · exact ⟨(ih hrest).1, Nat.lt_of_lt_of_le (ih hrest).2 List.count_le_count_cons⟩
      · exact ⟨(ih h).1, Nat.lt_of_lt_of_le (ih h).2 List.count_le_count_cons⟩

/-- No call writes twice. -/
theorem nodup_writers (n : Nat) (turns : List ι) : (writers changes n turns).Nodup := by
  induction turns with
  | nil => exact List.nodup_nil
  | cons i earlier ih =>
      unfold writers
      split
      · rename_i hwrites
        refine List.nodup_cons.mpr ⟨?_, ih⟩
        intro hmem
        have hlt := (writers_subset hmem).2
        rw [hwrites.2] at hlt
        exact Nat.lt_irrefl n hlt
      · exact ih

/-- A call that had its turn to write and had a change is among those that wrote. -/
theorem mem_writers {n : Nat} {turns : List ι} {i : ι} (hchange : (changes i).isSome)
    (hcount : n < turns.count i) : i ∈ writers changes n turns := by
  induction turns with
  | nil => exact absurd hcount (Nat.not_lt_zero n)
  | cons k earlier ih =>
      unfold writers
      by_cases hearlier : n < earlier.count i
      · have hmem := ih hearlier
        split
        · exact List.mem_cons_of_mem _ hmem
        · exact hmem
      · have hk : k = i := by
          by_contra hne
          rw [List.count_cons_of_ne hne] at hcount
          exact hearlier hcount
        subst hk
        rw [List.count_cons_self] at hcount
        have hnow : earlier.count k = n := by omega
        rw [if_pos ⟨hchange, hnow⟩]
        exact List.mem_cons_self

theorem not_writes_of_none {n : Nat} {earlier : List ι} {i : ι} (h : changes i = none) :
    ¬ Writes changes n earlier i := by
  intro hwrites
  rw [Writes, h] at hwrites
  exact Bool.false_ne_true hwrites.1

theorem writes_of_some {n : Nat} {earlier : List ι} {i : ι} {f : V → V} (h : changes i = some f)
    (hcount : earlier.count i = n) : Writes changes n earlier i := by
  refine ⟨?_, hcount⟩
  rw [h]
  rfl

/-- What a turn adds to the changes made. -/
theorem changed_writers_cons (v : V) {n : Nat} {earlier : List ι} {i : ι}
    (hcount : earlier.count i = n) :
    changed changes v (writers changes n (i :: earlier)) =
      (changes i).elim (changed changes v (writers changes n earlier)) fun f =>
        f (changed changes v (writers changes n earlier)) := by
  cases hchange : changes i with
  | none => rw [writers, if_neg (not_writes_of_none hchange), Option.elim_none]
  | some f =>
      rw [writers, if_pos (writes_of_some hchange hcount), Option.elim_some, changed,
        List.foldr_cons, hchange, Option.elim_some]
      rfl

theorem writers_cons_of_ne {n : Nat} {earlier : List ι} {i : ι} (hcount : earlier.count i ≠ n) :
    writers changes n (i :: earlier) = writers changes n earlier := by
  rw [writers, if_neg fun hwrites => hcount hwrites.2]

/-! ### In one block -/

/-- **Calls that change the value in one block lose nothing**, whatever the turns. -/
theorem run_atOnce (changes : ι → Option (V → V)) (v : V) (turns : List ι) :
    (run (fun i => atOnce (changes i)) v turns).state =
        changed changes v (writers changes 0 turns) ∧
      ∀ i, (run (fun i => atOnce (changes i)) v turns).calls i =
        if turns.count i = 0 then atOnce (changes i) else .done := by
  induction turns with
  | nil => exact ⟨rfl, fun i => rfl⟩
  | cons k earlier ih =>
      obtain ⟨hstate, hcalls⟩ := ih
      have hk := hcalls k
      have hother : ∀ i, i ≠ k → (run (fun i => atOnce (changes i)) v (k :: earlier)).calls i =
          if (k :: earlier).count i = 0 then atOnce (changes i) else .done := by
        intro i hi
        rw [List.count_cons_of_ne (Ne.symm hi), ← hcalls i]
        exact turn_other hi
      by_cases hfirst : earlier.count k = 0
      · rw [if_pos hfirst] at hk
        obtain ⟨hafter, hself⟩ := turn_block hk
        refine ⟨?_, ?_⟩
        · refine hafter.trans ?_
          rw [changed_writers_cons v hfirst, hstate]
        · intro i
          by_cases hi : i = k
          · subst hi
            refine hself.trans ?_
            rw [List.count_cons_self, if_neg (Nat.succ_ne_zero _)]
          · exact hother i hi
      · rw [if_neg hfirst] at hk
        have hsame : run (fun i => atOnce (changes i)) v (k :: earlier) =
            run (fun i => atOnce (changes i)) v earlier := turn_done hk
        refine ⟨?_, ?_⟩
        · rw [hsame, hstate, writers_cons_of_ne hfirst]
        · intro i
          by_cases hi : i = k
          · subst hi
            rw [hsame, hk, List.count_cons_self, if_neg (Nat.succ_ne_zero _)]
          · exact hother i hi

theorem finished_atOnce {changes : ι → Option (V → V)} {v : V} {turns : List ι}
    (h : Finished (run (fun i => atOnce (changes i)) v turns)) (i : ι) : 0 < turns.count i := by
  have hi := h i
  rw [(run_atOnce changes v turns).2 i] at hi
  by_contra hzero
  rw [if_pos (by omega)] at hi
  cases hi

/-! ### In two blocks -/

variable (changes) in
/-- The value the call has read, if it has had a turn. -/
def seenBy (v : V) : List ι → ι → V
  | [], _ => v
  | k :: earlier, i =>
      if k = i ∧ earlier.count i = 0 then (run (fun i => readThenWrite (changes i)) v earlier).state
      else seenBy v earlier i

theorem seenBy_other {v : V} {earlier : List ι} {i k : ι} (h : k ≠ i) :
    seenBy changes v (k :: earlier) i = seenBy changes v earlier i := by
  rw [seenBy, if_neg fun hboth => h hboth.1]

variable (changes) in
/-- Where a call is after a number of turns. -/
def remaining (v : V) (turns : List ι) (i : ι) : Call V :=
  match turns.count i with
  | 0 => readThenWrite (changes i)
  | 1 => .block (fun w => (changes i).elim w fun f => f (seenBy changes v turns i)) fun _ => .done
  | _ => .done

theorem run_readThenWrite (changes : ι → Option (V → V)) (v : V) (turns : List ι) (i : ι) :
    (run (fun i => readThenWrite (changes i)) v turns).calls i = remaining changes v turns i := by
  induction turns with
  | nil => rfl
  | cons k earlier ih =>
      by_cases hi : i = k
      · subst hi
        unfold remaining at ih ⊢
        rw [List.count_cons_self]
        rcases hcount : earlier.count i with _ | _ | n
        · rw [hcount] at ih
          refine (turn_block ih).2.trans ?_
          rw [seenBy, if_pos ⟨rfl, hcount⟩]
          rfl
        · rw [hcount] at ih
          exact (turn_block ih).2
        · rw [hcount] at ih
          show (turn (run _ v earlier) i).calls i = _
          rw [turn_done ih]
          exact ih
      · have hsame : (run (fun i => readThenWrite (changes i)) v (k :: earlier)).calls i =
            (run (fun i => readThenWrite (changes i)) v earlier).calls i := turn_other hi
        rw [hsame, ih]
        unfold remaining
        rw [List.count_cons_of_ne (Ne.symm hi), seenBy_other (Ne.symm hi)]

/-- What a turn does to the value. -/
theorem run_readThenWrite_cons (v : V) (i : ι) (earlier : List ι) :
    (run (fun i => readThenWrite (changes i)) v (i :: earlier)).state =
      if earlier.count i = 1 then
        (changes i).elim (run (fun i => readThenWrite (changes i)) v earlier).state fun f =>
          f (seenBy changes v earlier i)
      else (run (fun i => readThenWrite (changes i)) v earlier).state := by
  have hi := run_readThenWrite changes v earlier i
  unfold remaining at hi
  rcases hcount : earlier.count i with _ | _ | n
  · rw [hcount] at hi
    exact (turn_block hi).1
  · rw [hcount] at hi
    exact (turn_block hi).1
  · rw [hcount] at hi
    show (turn (run _ v earlier) i).state = _
    rw [turn_done hi]
    rfl

/-- A turn that does not write leaves the value. -/
theorem run_readThenWrite_quiet {v : V} {i : ι} {earlier : List ι}
    (h : ¬ Writes changes 1 earlier i) :
    (run (fun i => readThenWrite (changes i)) v (i :: earlier)).state =
      (run (fun i => readThenWrite (changes i)) v earlier).state := by
  rw [run_readThenWrite_cons]
  split
  · rename_i hcount
    cases hchange : changes i with
    | none => rfl
    | some f => exact absurd (writes_of_some hchange hcount) h
  · rfl

/-- **While nothing is disturbed the calls come to what they would one after the other**, and a
call whose reading is not stale has read the value there is. -/
theorem run_undisturbed {v : V} {turns : List ι} (h : Undisturbed changes turns) :
    (run (fun i => readThenWrite (changes i)) v turns).state =
        changed changes v (writers changes 1 turns) ∧
      ∀ i, turns.count i = 1 → ¬ Stale changes turns i →
        seenBy changes v turns i = (run (fun i => readThenWrite (changes i)) v turns).state := by
  induction turns with
  | nil => exact ⟨rfl, fun i hcount => absurd hcount (by simp)⟩
  | cons k earlier ih =>
      obtain ⟨hearlier, hfresh⟩ := h
      obtain ⟨hstate, hseen⟩ := ih hearlier
      refine ⟨?_, ?_⟩
      · by_cases hcount : earlier.count k = 1
        · rw [run_readThenWrite_cons, if_pos hcount, changed_writers_cons v hcount, ← hstate]
          cases hchange : changes k with
          | none => rfl
          | some f =>
              rw [Option.elim_some, Option.elim_some,
                hseen k hcount (hfresh (writes_of_some hchange hcount))]
        · rw [run_readThenWrite_cons, if_neg hcount, writers_cons_of_ne hcount, hstate]
      · intro i hcount hstale
        by_cases hk : k = i
        · subst hk
          rw [List.count_cons_self] at hcount
          have hfirst : earlier.count k = 0 := by omega
          have hquiet : ¬ Writes changes 1 earlier k := fun h => by
            have htwice := h.2
            omega
          rw [seenBy, if_pos ⟨rfl, hfirst⟩, run_readThenWrite_quiet hquiet]
        · rw [List.count_cons_of_ne hk] at hcount
          have hquiet : ¬ Writes changes 1 earlier k :=
            fun hwrites => hstale ⟨hk, Or.inr ⟨hcount, hwrites⟩⟩
          have hbefore : ¬ Stale changes earlier i := fun hs => hstale ⟨hk, Or.inl hs⟩
          rw [seenBy_other hk, run_readThenWrite_quiet hquiet]
          exact hseen i hcount hbefore

/-- **What was disturbed stays lost**: where every change adds one to a size, the value falls short
of what the writes add up to as soon as one of them rested on a stale reading. -/
theorem run_size {v : V} (size : V → Nat)
    (hsize : ∀ i f, changes i = some f → ∀ w, size (f w) = size w + 1) (turns : List ι) :
    let total := size v + (writers changes 1 turns).length
    let value := (run (fun i => readThenWrite (changes i)) v turns).state
    (size value ≤ total ∧ (¬ Undisturbed changes turns → size value < total)) ∧
      ∀ i, turns.count i = 1 → size (seenBy changes v turns i) ≤ total ∧
        (Stale changes turns i ∨ ¬ Undisturbed changes turns →
          size (seenBy changes v turns i) < total) := by
  induction turns with
  | nil => exact ⟨⟨Nat.le_refl _, fun h => absurd trivial h⟩, fun i hcount => absurd hcount (by simp)⟩
  | cons k earlier ih =>
      obtain ⟨⟨hle, hlt⟩, hseen⟩ := ih
      dsimp only at hle hlt hseen ⊢
      by_cases hwrites : Writes changes 1 earlier k
      · obtain ⟨f, hchange⟩ := Option.isSome_iff_exists.mp hwrites.1
        have hvalue : (run (fun i => readThenWrite (changes i)) v (k :: earlier)).state =
            f (seenBy changes v earlier k) := by
          rw [run_readThenWrite_cons, if_pos hwrites.2, hchange, Option.elim_some]
        have hlength : (writers changes 1 (k :: earlier)).length =
            (writers changes 1 earlier).length + 1 := by
          rw [writers, if_pos hwrites, List.length_cons]
        obtain ⟨hread, hshort⟩ := hseen k hwrites.2
        rw [hvalue, hlength, hsize k f hchange]
        refine ⟨⟨by omega, ?_⟩, ?_⟩
        · intro hdisturbed
          have hcase : Stale changes earlier k ∨ ¬ Undisturbed changes earlier := by
            by_contra hno
            rw [not_or, not_not] at hno
            exact hdisturbed ⟨hno.2, fun _ => hno.1⟩
          have hless := hshort hcase
          omega
        · intro i hcount
          by_cases hk : k = i
          · subst hk
            rw [List.count_cons_self, hwrites.2] at hcount
            omega
          · rw [List.count_cons_of_ne hk] at hcount
            rw [seenBy_other hk]
            have hold := (hseen i hcount).1
            exact ⟨by omega, fun _ => by omega⟩
      · have hsame : writers changes 1 (k :: earlier) = writers changes 1 earlier := by
          rw [writers, if_neg hwrites]
        have hdisturbed : ¬ Undisturbed changes (k :: earlier) → ¬ Undisturbed changes earlier :=
          fun h hearlier => h ⟨hearlier, fun hw => absurd hw hwrites⟩
        rw [run_readThenWrite_quiet hwrites, hsame]
        refine ⟨⟨hle, fun h => hlt (hdisturbed h)⟩, ?_⟩
        intro i hcount
        by_cases hk : k = i
        · subst hk
          rw [List.count_cons_self] at hcount
          have hfirst : earlier.count k = 0 := by omega
          rw [seenBy, if_pos ⟨rfl, hfirst⟩]
          refine ⟨hle, ?_⟩
          rintro (hstale | h)
          · exact absurd rfl hstale.1
          · exact hlt (hdisturbed h)
        · rw [List.count_cons_of_ne hk] at hcount
          rw [seenBy_other hk]
          refine ⟨(hseen i hcount).1, ?_⟩
          intro hcase
          refine (hseen i hcount).2 (hcase.imp ?_ hdisturbed)
          rintro ⟨-, hstale | ⟨-, hw⟩⟩
          · exact hstale
          · exact absurd hw hwrites

omit [DecidableEq ι] in
theorem size_changed {v : V} (size : V → Nat)
    (hsize : ∀ i f, changes i = some f → ∀ w, size (f w) = size w + 1) {calls : List ι}
    (h : ∀ i ∈ calls, (changes i).isSome) :
    size (changed changes v calls) = size v + calls.length := by
  induction calls with
  | nil => rfl
  | cons i rest ih =>
      obtain ⟨f, hchange⟩ := Option.isSome_iff_exists.mp (h i List.mem_cons_self)
      rw [changed, List.foldr_cons, hchange, Option.elim_some, hsize i f hchange,
        List.length_cons, ← Nat.add_assoc]
      exact congrArg (· + 1) (ih fun k hk => h k (List.mem_cons_of_mem _ hk))

/-- **Exactly the undisturbed runs keep every change.** -/
theorem undisturbed_iff_size {v : V} (size : V → Nat)
    (hsize : ∀ i f, changes i = some f → ∀ w, size (f w) = size w + 1) (turns : List ι) :
    Undisturbed changes turns ↔
      size (run (fun i => readThenWrite (changes i)) v turns).state =
        size v + (writers changes 1 turns).length := by
  obtain ⟨⟨-, hlt⟩, -⟩ := run_size size hsize turns (v := v)
  constructor
  · intro h
    rw [(run_undisturbed h).1]
    exact size_changed size hsize fun i hi => (writers_subset hi).1
  · intro heq
    by_contra h
    have hless := hlt h
    omega

theorem finished_readThenWrite {v : V} {turns : List ι}
    (h : Finished (run (fun i => readThenWrite (changes i)) v turns)) (i : ι) :
    1 < turns.count i := by
  have hi := h i
  rw [run_readThenWrite changes v turns i, remaining] at hi
  rcases hcount : turns.count i with _ | _ | n
  · rw [hcount] at hi
    cases hi
  · rw [hcount] at hi
    cases hi
  · omega

end Interleave
