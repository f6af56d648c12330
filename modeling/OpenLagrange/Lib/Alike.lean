/-
Programs that do the same.

Two programs are alike when their calls correspond, one by one, and the programs stay alike
for whatever corresponding answers they are given.  The correspondence is a parameter: it
says which calls are the same but for data that is of no interest, and which of their answers
are.

Against handlers that answer corresponding calls alike, alike programs leave corresponding
traces behind.
-/
import OpenLagrange.Lib.Prog

namespace Prog

variable {E : Type} {R : E → Type} {S α α' β β' : Type}

/-- Which calls correspond, and which of their answers do. -/
structure Correspondence (E : Type) (R : E → Type) where
  call : E → E → Prop
  answer : (e e' : E) → R e → R e' → Prop

/-- Answers correspond when both calls throw, or both return what corresponds. -/
def Correspondence.Answers (c : Correspondence E R) (e e' : E) :
    Except String (R e) → Except String (R e') → Prop
  | .ok a, .ok a' => c.answer e e' a a'
  | .error m, .error m' => m = m'
  | _, _ => False

variable (c : Correspondence E R)

/-- The programs make corresponding calls and return what `Q` relates, or throw the same. -/
def Alike (Q : α → α' → Prop) : Prog E R α → Prog E R α' → Prop
  | .done a, .done a' => Q a a'
  | .fail m, .fail m' => m = m'
  | .call e k, .call e' k' =>
      c.call e e' ∧ ∀ r r', c.Answers e e' r r' → Alike Q (k r) (k' r')
  | _, _ => False

variable {c} {Q : α → α' → Prop} {Q' : β → β' → Prop}

theorem alike_done {a : α} {a' : α'} (h : Q a a') :
    Alike c Q (.done a : Prog E R α) (.done a') := h

theorem alike_fail {m : String} :
    Alike c Q (.fail m : Prog E R α) (.fail m : Prog E R α') := rfl

theorem alike_bind {p : Prog E R α} {p' : Prog E R α'} {f : α → Prog E R β} {f' : α' → Prog E R β'}
    (hp : Alike c Q p p')
    (hf : ∀ a a', Q a a' → Alike c Q' (f a) (f' a')) : Alike c Q' (p.bind f) (p'.bind f') := by
  induction p generalizing p' with
  | done a =>
      cases p' with
      | done a' => exact hf a a' hp
      | fail _ => cases hp
      | call _ _ => cases hp
  | fail m =>
      cases p' with
      | done _ => cases hp
      | fail m' => exact hp
      | call _ _ => cases hp
  | call e k ih =>
      cases p' with
      | done _ => cases hp
      | fail _ => cases hp
      | call e' k' => exact ⟨hp.1, fun r r' hr => ih r (hp.2 r r' hr)⟩

theorem alike_perform {e e' : E} {Q : R e → R e' → Prop} (he : c.call e e')
    (hQ : ∀ a a', c.answer e e' a a' → Q a a') : Alike c Q (perform e) (perform e') := by
  refine ⟨he, ?_⟩
  intro r r' hr
  cases r with
  | ok a =>
      cases r' with
      | ok a' => exact hQ a a' hr
      | error _ => cases hr
  | error m =>
      cases r' with
      | ok _ => cases hr
      | error m' => exact hr

/-- One awaited call on each side, followed by programs that are alike for corresponding answers. -/
theorem alike_perform_bind {e e' : E} {f : R e → Prog E R β} {f' : R e' → Prog E R β'}
    (he : c.call e e') (hf : ∀ a a', c.answer e e' a a' → Alike c Q' (f a) (f' a')) :
    Alike c Q' ((perform e).bind f) ((perform e').bind f') :=
  alike_bind (alike_perform he fun _ _ h => h) hf

/-- How runs correspond: they end alike, in related states, and every call corresponds. -/
structure Matching (c : Correspondence E R) (Q : α → α' → Prop) (rel : S → S → Prop)
    (run : Exec S E α) (run' : Exec S E α') : Prop where
  returned : ∀ a, run.outcome = .ok a → ∃ a', run'.outcome = .ok a' ∧ Q a a'
  thrown : ∀ m, run.outcome = .error m → run'.outcome = .error m
  state : rel run.state run'.state
  trace : List.Forall₂ (fun call call' => c.call call.2 call'.2) run.trace run'.trace

/-- **Alike programs leave corresponding traces.** -/
theorem alike_exec {h h' : Handler E R S} {rel : S → S → Prop}
    (hserve : ∀ e e' s s', c.call e e' → rel s s' →
      c.Answers e e' (h e s).1 (h' e' s').1 ∧ rel (h e s).2 (h' e' s').2)
    {p : Prog E R α} {p' : Prog E R α'} (hp : Alike c Q p p') {s s' : S} (hs : rel s s') :
    Matching c Q rel (exec h p s) (exec h' p' s') := by
  induction p generalizing p' s s' with
  | done a =>
      cases p' with
      | done a' =>
          refine ⟨?_, ?_, hs, .nil⟩
          · rintro _ ⟨⟩
            exact ⟨a', rfl, hp⟩
          · rintro _ ⟨⟩
      | fail _ => cases hp
      | call _ _ => cases hp
  | fail m =>
      cases p' with
      | done _ => cases hp
      | fail m' =>
          have hm : m = m' := hp
          refine ⟨?_, ?_, hs, .nil⟩
          · rintro _ ⟨⟩
          · rintro _ ⟨⟩
            rw [hm]
            rfl
      | call _ _ => cases hp
  | call e k ih =>
      cases p' with
      | done _ => cases hp
      | fail _ => cases hp
      | call e' k' =>
          obtain ⟨hcall, hk⟩ := hp
          obtain ⟨hanswers, hstate⟩ := hserve e e' s s' hcall hs
          have hrest := ih _ (hk _ _ hanswers) hstate
          exact ⟨hrest.returned, hrest.thrown, hrest.state, .cons hcall hrest.trace⟩

end Prog
