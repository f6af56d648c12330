/-
Texts that can be read back from the left.

A code is prefix free when no codeword begins another.  What is written with one, up to a
stop that begins no codeword, determines what was written and what follows.

The same holds for lists whose items are set off by a separator, as long as one item can
be told from what comes after it.  `Splits` is that property of a printer, relative to
what may follow.
-/
import Mathlib.Data.List.Basic

namespace PrefixCode

variable {α β : Type}

/-- No codeword begins another one. -/
def Free (code : α → List β) (a b : α) : Prop := code a <+: code b → a = b

/-- Two codewords with anything behind them are the same if the texts are. -/
theorem word_unique {code : α → List β} {a b : α} {s t : List β} (hab : Free code a b)
    (hba : Free code b a) (h : code a ++ s = code b ++ t) : a = b ∧ s = t := by
  have hpre : code a <+: code b ++ t := h ▸ List.prefix_append _ _
  have heq : a = b := by
    rcases List.prefix_or_prefix_of_prefix hpre (List.prefix_append (code b) t) with hle | hle
    · exact hab hle
    · exact (hba hle).symm
  subst heq
  exact ⟨rfl, List.append_cancel_left h⟩

/-- **What is written before a stop can be read back.** -/
theorem body_unique {code : α → List β} {stop : β} (hfree : ∀ a b, Free code a b)
    (hstop : ∀ a, ∃ c rest, code a = c :: rest ∧ c ≠ stop) :
    ∀ {as bs : List α} {s t : List β},
      as.flatMap code ++ stop :: s = bs.flatMap code ++ stop :: t → as = bs ∧ s = t := by
  intro as
  induction as with
  | nil =>
      intro bs s t h
      cases bs with
      | nil => exact ⟨rfl, List.cons.inj h |>.2⟩
      | cons b rest =>
          obtain ⟨c, cs, hcode, hne⟩ := hstop b
          rw [List.flatMap_cons, hcode] at h
          exact absurd (List.cons.inj h).1.symm hne
  | cons a rest ih =>
      intro bs s t h
      cases bs with
      | nil =>
          obtain ⟨c, cs, hcode, hne⟩ := hstop a
          rw [List.flatMap_cons, hcode] at h
          exact absurd (List.cons.inj h).1 hne
      | cons b others =>
          rw [List.flatMap_cons, List.flatMap_cons, List.append_assoc, List.append_assoc] at h
          obtain ⟨rfl, hrest⟩ := word_unique (hfree a b) (hfree b a) h
          obtain ⟨rfl, hst⟩ := ih hrest
          exact ⟨rfl, hst⟩

/-- An item and what follows it can be told apart, when what follows begins as `follows` says. -/
def Splits (follows : List β → Prop) (print : α → List β) (a b : α) : Prop :=
  ∀ s t, follows s → follows t → print a ++ s = print b ++ t → a = b ∧ s = t

/-- The items of a list, each behind a separator. -/
def separated (sep : β) (print : α → List β) (items : List α) : List β :=
  items.flatMap fun item => sep :: print item

/-- **A list closed off by something other than its separator can be read back.** -/
theorem separated_unique {follows : List β → Prop} {print : α → List β} {sep close : β}
    (hne : sep ≠ close) (hsep : ∀ s, follows (sep :: s)) (hclose : ∀ s, follows (close :: s)) :
    ∀ {as bs : List α} {s t : List β}, (∀ a ∈ as, ∀ b ∈ bs, Splits follows print a b) →
      separated sep print as ++ close :: s = separated sep print bs ++ close :: t →
      as = bs ∧ s = t := by
  have hnext : ∀ (items : List α) (s : List β), follows (separated sep print items ++ close :: s) := by
    intro items s
    cases items with
    | nil => exact hclose s
    | cons item rest => exact hsep _
  intro as
  induction as with
  | nil =>
      intro bs s t _ h
      cases bs with
      | nil => exact ⟨rfl, (List.cons.inj h).2⟩
      | cons b rest => exact absurd (List.cons.inj h).1.symm hne
  | cons a rest ih =>
      intro bs s t hsplits h
      cases bs with
      | nil => exact absurd (List.cons.inj h).1 hne
      | cons b others =>
          have hbody : print a ++ (separated sep print rest ++ close :: s) =
              print b ++ (separated sep print others ++ close :: t) := by
            simpa [separated] using h
          obtain ⟨rfl, hrest⟩ := hsplits a List.mem_cons_self b List.mem_cons_self _ _
            (hnext rest s) (hnext others t) hbody
          obtain ⟨rfl, hst⟩ := ih
            (fun x hx y hy => hsplits x (List.mem_cons_of_mem _ hx) y (List.mem_cons_of_mem _ hy)) hrest
          exact ⟨rfl, hst⟩

end PrefixCode
