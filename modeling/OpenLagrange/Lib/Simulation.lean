/-
Two machines that are given the same operations.

Each answers an operation and goes on from a new state.  A relation between their states
that every operation keeps carries over runs; where an operation is answered alike in
related states on some condition, a run that meets the condition at every operation is
answered alike throughout.
-/
import Mathlib.Data.List.Infix

namespace Simulation

variable {Op : Type} {Res : Op → Type} {σ τ : Type}

/-- The state a machine is left in by some operations. -/
def runs (perform : σ → (op : Op) → σ × Res op) (ops : List Op) (s : σ) : σ :=
  ops.foldl (fun s op => (perform s op).1) s

variable (f : σ → (op : Op) → σ × Res op) (g : τ → (op : Op) → τ × Res op)

/-- The condition holds at every operation of a run of both. -/
def Along (cond : σ → τ → Op → Prop) : List Op → σ → τ → Prop
  | [], _, _ => True
  | op :: rest, s, t => cond s t op ∧ Along cond rest (f s op).1 (g t op).1

/-- The relation is kept by every operation, and the answers agree on the condition. -/
structure Simulates (R : σ → τ → Prop) (cond : σ → τ → Op → Prop) : Prop where
  keeps : ∀ s t op, R s t → R (f s op).1 (g t op).1
  agrees : ∀ s t op, R s t → cond s t op → (f s op).2 = (g t op).2

variable {f g} {R : σ → τ → Prop} {cond : σ → τ → Op → Prop}

/-- **Along a run that meets the condition every operation is answered alike.** -/
theorem Simulates.answers (hsim : Simulates f g R cond) {ops : List Op} {s : σ} {t : τ}
    (hstart : R s t) (hcond : Along f g cond ops s t) {done : List Op} {op : Op}
    (hdone : done ++ [op] <+: ops) :
    (f (runs f done s) op).2 = (g (runs g done t) op).2 := by
  induction ops generalizing s t done with
  | nil =>
      have hnil := List.prefix_nil.mp hdone
      exact absurd hnil (by simp)
  | cons first rest ih =>
      cases done with
      | nil =>
          have hop : op = first := (List.cons_prefix_cons.mp hdone).1
          subst hop
          exact hsim.agrees s t op hstart hcond.1
      | cons first' done =>
          obtain ⟨hfirst, hrest⟩ := List.cons_prefix_cons.mp hdone
          subst hfirst
          exact ih (hsim.keeps s t first' hstart) hcond.2 hrest

end Simulation
