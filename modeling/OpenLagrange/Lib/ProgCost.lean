/-
How many calls a program makes.

Some calls are counted, and of each call some answers are expected.  `Charges` says what comes of
a program on the paths where every call answers as expected: how it ends, and how many counted
calls it made.  It is proved along the text of the program and read off its runs.
-/
import OpenLagrange.Lib.Prog

namespace Prog

variable {E : Type} {R : E → Type} {S α β : Type}

/-- The counted calls of a trace. -/
def charge (counted : E → Bool) (trace : List (S × E)) : Nat :=
  trace.countP fun c => counted c.2

section Trace

variable {counted : E → Bool}

theorem charge_cons (c : S × E) (trace : List (S × E)) :
    charge counted (c :: trace) = charge counted trace + if counted c.2 then 1 else 0 :=
  List.countP_cons

theorem charge_append (front back : List (S × E)) :
    charge counted (front ++ back) = charge counted front + charge counted back :=
  List.countP_append

end Trace

/-- The calls of a trace are answered as expected. -/
def Answered (h : Handler E R S) (expected : (e : E) → Except String (R e) → Prop)
    (trace : List (S × E)) : Prop :=
  ∀ c ∈ trace, expected c.2 (h c.2 c.1).1

variable (counted : E → Bool) (expected : (e : E) → Except String (R e) → Prop)

/-- Where every call answers as expected, the end of the program and the number of its counted
calls meet `post`. -/
def Charges : Prog E R α → (Except String α → Nat → Prop) → Prop
  | .done a, post => post (.ok a) 0
  | .fail m, post => post (.error m) 0
  | .call e k, post =>
      ∀ r, expected e r → Charges (k r) fun out n => post out (n + if counted e then 1 else 0)

variable {counted expected}

theorem Charges.mono {p : Prog E R α} {post post' : Except String α → Nat → Prop}
    (hp : Charges counted expected p post) (h : ∀ out n, post out n → post' out n) :
    Charges counted expected p post' := by
  induction p generalizing post post' with
  | done a => exact h _ 0 hp
  | fail m => exact h _ 0 hp
  | call e k ih =>
      intro r hr
      exact ih r (hp r hr) fun out n => h out _

theorem charges_done {a : α} {post : Except String α → Nat → Prop} (h : post (.ok a) 0) :
    Charges counted expected (.done a : Prog E R α) post := h

theorem charges_fail {m : String} {post : Except String α → Nat → Prop} (h : post (.error m) 0) :
    Charges counted expected (.fail m : Prog E R α) post := h

theorem charges_perform {e : E} {post : Except String (R e) → Nat → Prop}
    (h : ∀ r, expected e r → post r (if counted e then 1 else 0)) :
    Charges counted expected (perform e : Prog E R (R e)) post := by
  intro r hr
  have hpost := h r hr
  cases r with
  | ok a =>
      show post (.ok a) (0 + _)
      rwa [Nat.zero_add]
  | error m =>
      show post (.error m) (0 + _)
      rwa [Nat.zero_add]

/-- What comes after `p` adds its calls; a throw of `p` ends the whole. -/
theorem charges_bind {p : Prog E R α} {f : α → Prog E R β} {post : Except String β → Nat → Prop}
    (hp : Charges counted expected p fun out n =>
      match out with
      | .ok a => Charges counted expected (f a) fun out' m => post out' (n + m)
      | .error m => post (.error m) n) :
    Charges counted expected (p.bind f) post := by
  induction p generalizing post with
  | done a =>
      have h : Charges counted expected (f a) fun out m => post out (0 + m) := hp
      simp only [Nat.zero_add] at h
      exact h
  | fail m => exact hp
  | call e k ih =>
      intro r hr
      refine ih r ((hp r hr).mono ?_)
      rintro (m | a) n hout
      · exact hout
      · refine hout.mono ?_
        intro out m h
        rwa [Nat.add_right_comm] at h

/-- What a throw is handed to adds its calls. -/
theorem charges_tryCatch {p : Prog E R α} {f : String → Prog E R α}
    {post : Except String α → Nat → Prop}
    (hp : Charges counted expected p fun out n =>
      match out with
      | .ok a => post (.ok a) n
      | .error m => Charges counted expected (f m) fun out' m => post out' (n + m)) :
    Charges counted expected (p.tryCatch f) post := by
  induction p generalizing post with
  | done a => exact hp
  | fail m =>
      have h : Charges counted expected (f m) fun out m => post out (0 + m) := hp
      simp only [Nat.zero_add] at h
      exact h
  | call e k ih =>
      intro r hr
      refine ih r ((hp r hr).mono ?_)
      rintro (m | a) n hout
      · refine hout.mono ?_
        intro out m h
        rwa [Nat.add_right_comm] at h
      · exact hout

/-- **A run that is answered as expected comes to what its program is charged.** -/
theorem Charges.exec (h : Handler E R S) {p : Prog E R α} {s : S}
    {post : Except String α → Nat → Prop} (hp : Charges counted expected p post)
    (hanswered : Answered h expected (exec h p s).trace) :
    post (Prog.exec h p s).outcome (charge counted (Prog.exec h p s).trace) := by
  induction p generalizing s post with
  | done a => exact hp
  | fail m => exact hp
  | call e k ih =>
      rw [exec_call] at hanswered ⊢
      rw [charge_cons]
      exact ih _ (hp _ (hanswered (s, e) List.mem_cons_self))
        fun c hc => hanswered c (List.mem_cons_of_mem _ hc)

/-! ### Programs whose throws do not matter -/

/-- The counted calls of a first part that may throw, and of what comes after it. -/
theorem charges_bind_le {p : Prog E R α} {f : α → Prog E R β} {n m : Nat}
    (hp : Charges counted expected p fun _ k => k ≤ n)
    (hf : ∀ a, Charges counted expected (f a) fun _ k => k ≤ m) :
    Charges counted expected (p.bind f) fun _ k => k ≤ n + m := by
  refine charges_bind (hp.mono ?_)
  rintro (message | a) k hk
  · exact Nat.le_add_right_of_le hk
  · exact (hf a).mono fun _ _ hj => Nat.add_le_add hk hj

theorem charges_tryCatch_le {p : Prog E R α} {f : String → Prog E R α} {n m : Nat}
    (hp : Charges counted expected p fun _ k => k ≤ n)
    (hf : ∀ message, Charges counted expected (f message) fun _ k => k ≤ m) :
    Charges counted expected (p.tryCatch f) fun _ k => k ≤ n + m := by
  refine charges_tryCatch (hp.mono ?_)
  rintro (message | a) k hk
  · exact (hf message).mono fun _ _ hj => Nat.add_le_add hk hj
  · exact Nat.le_add_right_of_le hk

end Prog
