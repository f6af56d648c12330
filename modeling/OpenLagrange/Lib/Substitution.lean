/-
Replacing the occurrences of a number of patterns, all together or one pattern after the other.

A rule says what a pattern is replaced by.  Replacing together goes through the text once: where a
pattern begins, its replacement is written and the pattern is passed over, and what stands between
is copied.  So the text is read as tokens, and a replacement fills the holes among them.

Replacing one pattern after the other searches what has been filled in already.  It comes to the
same, by `foldl_replace`, where no pass finds an occurrence that the text did not have.
-/
import Mathlib.Data.List.Induction
import Mathlib.Data.List.Perm.Basic
import Mathlib.Logic.Function.Basic
import Mathlib.Order.Basic

namespace Substitution

variable {α : Type} [DecidableEq α]

/-! ### Rules and tokens -/

/-- What a pattern is replaced by. -/
structure Rule (α : Type) where
  pattern : List α
  replacement : List α
  nonempty : pattern ≠ []
  deriving DecidableEq

inductive Token (α : Type) where
  | plain (c : α)
  | hole (rule : Rule α)
  deriving DecidableEq

/-- Whether the pattern of a rule begins the text. -/
def Rule.begins (rule : Rule α) (text : List α) : Bool := rule.pattern.isPrefixOf text

/-- The tokens of a text; `skip` characters belong to the hole before. -/
def tokens (rules : List (Rule α)) : Nat → List α → List (Token α)
  | _, [] => []
  | skip + 1, _ :: rest => tokens rules skip rest
  | 0, c :: rest =>
      match rules.find? (·.begins (c :: rest)) with
      | some rule => .hole rule :: tokens rules (rule.pattern.length - 1) rest
      | none => .plain c :: tokens rules 0 rest

/-- The tokens with their holes filled. -/
def fill (f : Rule α → List α) : List (Token α) → List α
  | [] => []
  | .plain c :: rest => c :: fill f rest
  | .hole rule :: rest => f rule ++ fill f rest

def replaceTogether (rules : List (Rule α)) (text : List α) : List α :=
  fill (·.replacement) (tokens rules 0 text)

/-- At how many places a part begins. -/
def occurrences (part : List α) : List α → Nat
  | [] => 0
  | c :: rest => (if part.isPrefixOf (c :: rest) then 1 else 0) + occurrences part rest

/-- At how many places of the first text a part of both begins. -/
def started (part : List α) : List α → List α → Nat
  | [], _ => 0
  | c :: rest, after =>
      (if part.isPrefixOf (c :: (rest ++ after)) then 1 else 0) + started part rest after

/-- How many holes there are for a rule. -/
def holes (rule : Rule α) (list : List (Token α)) : Nat := list.countP (· = .hole rule)

variable {rules rules' : List (Rule α)} {rule other : Rule α} {text rest after : List α}

theorem tokens_skip (skip : Nat) (text : List α) :
    tokens rules skip text = tokens rules 0 (text.drop skip) := by
  induction text generalizing skip with
  | nil => cases skip <;> rfl
  | cons c rest ih =>
      cases skip with
      | zero => rfl
      | succ skip => exact ih skip

theorem begins_iff : rule.begins text = true ↔ rule.pattern <+: text := List.isPrefixOf_iff_prefix

/-- Where a pattern begins, the text goes on after it. -/
theorem tokens_hole {c : α} (h : rules.find? (·.begins (c :: rest)) = some rule) :
    ∃ after, c :: rest = rule.pattern ++ after ∧
      tokens rules 0 (c :: rest) = .hole rule :: tokens rules 0 after := by
  have hbegins := List.find?_some h
  obtain ⟨after, hafter⟩ := begins_iff.mp hbegins
  refine ⟨after, hafter.symm, ?_⟩
  have hdrop : rest.drop (rule.pattern.length - 1) = after := by
    obtain ⟨d, others, hpattern⟩ := List.exists_cons_of_ne_nil rule.nonempty
    rw [hpattern] at hafter ⊢
    rw [← (List.cons.inj hafter).2]
    exact List.drop_left
  conv_lhs => unfold tokens
  rw [h]
  dsimp only
  rw [tokens_skip, hdrop]

theorem tokens_plain {c : α} (h : rules.find? (·.begins (c :: rest)) = none) :
    tokens rules 0 (c :: rest) = .plain c :: tokens rules 0 rest := by
  conv_lhs => unfold tokens
  rw [h]

/-- A text is read token by token. -/
@[elab_as_elim]
theorem text_induction {motive : List α → Prop} (rules : List (Rule α)) (nil : motive [])
    (plain : ∀ c rest, rules.find? (·.begins (c :: rest)) = none → motive rest → motive (c :: rest))
    (hole : ∀ rule after, rule ∈ rules → rules.find? (·.begins (rule.pattern ++ after)) = some rule →
      tokens rules 0 (rule.pattern ++ after) = .hole rule :: tokens rules 0 after →
      motive after → motive (rule.pattern ++ after)) (text : List α) : motive text := by
  induction h : text.length using Nat.strongRecOn generalizing text with
  | _ n ih =>
      cases text with
      | nil => exact nil
      | cons c rest =>
          rw [List.length_cons] at h
          cases hfind : rules.find? (·.begins (c :: rest)) with
          | none => exact plain c rest hfind (ih rest.length (by omega) rest rfl)
          | some rule =>
              obtain ⟨after, htext, htokens⟩ := tokens_hole hfind
              have hlength : 0 < rule.pattern.length := List.length_pos_iff.mpr rule.nonempty
              have hshort := congrArg List.length htext
              rw [List.length_cons, List.length_append] at hshort
              have hafter := ih after.length (by omega) after rfl
              rw [htext] at hfind htokens ⊢
              exact hole rule after (List.mem_of_find?_eq_some hfind) hfind htokens hafter

/-- Filled with the patterns, the tokens are the text. -/
theorem fill_tokens (rules : List (Rule α)) (text : List α) :
    fill (·.pattern) (tokens rules 0 text) = text := by
  refine text_induction rules rfl ?_ ?_ text
  · intro c rest hfind ih
    rw [tokens_plain hfind, fill, ih]
  · intro rule after _ _ htokens ih
    rw [htokens, fill, ih]

/-! ### One pass over what is filled in -/

theorem occurrences_append (part xs ys : List α) :
    occurrences part (xs ++ ys) = started part xs ys + occurrences part ys := by
  induction xs with
  | nil => exact (Nat.zero_add _).symm
  | cons c rest ih =>
      rw [List.cons_append, occurrences, ih, started]
      omega

/-- A pattern that does not begin in the first text is not replaced there. -/
theorem replaceTogether_unstarted (h : ∀ rule ∈ rules, started rule.pattern rest after = 0) :
    replaceTogether rules (rest ++ after) = rest ++ replaceTogether rules after := by
  unfold replaceTogether
  induction rest with
  | nil => rfl
  | cons c rest ih =>
      have hnone : rules.find? (·.begins (c :: (rest ++ after))) = none := by
        rw [List.find?_eq_none]
        intro rule hmem hbegins
        have hzero := h rule hmem
        have hbegins' : rule.pattern.isPrefixOf (c :: (rest ++ after)) = true := hbegins
        unfold started at hzero
        rw [if_pos hbegins'] at hzero
        omega
      have hrest : ∀ rule ∈ rules, started rule.pattern rest after = 0 := by
        intro rule hmem
        have hzero := h rule hmem
        unfold started at hzero
        omega
      rw [List.cons_append, tokens_plain hnone, fill, ih hrest, List.cons_append]

theorem holes_cons_plain (c : α) (list : List (Token α)) :
    holes rule (.plain c :: list) = holes rule list :=
  List.countP_cons_of_neg (by simp)

theorem holes_cons_self (list : List (Token α)) :
    holes rule (.hole rule :: list) = holes rule list + 1 :=
  List.countP_cons_of_pos (by simp)

theorem holes_cons_other (h : other ≠ rule) (list : List (Token α)) :
    holes rule (.hole other :: list) = holes rule list :=
  List.countP_cons_of_neg (by simpa using h)

theorem started_pattern_pos : 0 < started rule.pattern rule.pattern after := by
  obtain ⟨c, others, hpattern⟩ := List.exists_cons_of_ne_nil rule.nonempty
  have hbegins : rule.pattern.isPrefixOf (c :: (others ++ after)) = true := by
    rw [List.isPrefixOf_iff_prefix]
    exact ⟨after, by rw [hpattern]; rfl⟩
  have hstep : started rule.pattern (c :: others) after =
      (if rule.pattern.isPrefixOf (c :: (others ++ after)) then 1 else 0) +
        started rule.pattern others after := rfl
  rw [if_pos hbegins, ← hpattern] at hstep
  omega

/-- Each hole that holds its pattern is an occurrence. -/
theorem holes_le_occurrences {f : Rule α → List α} (hf : f rule = rule.pattern)
    (list : List (Token α)) : holes rule list ≤ occurrences rule.pattern (fill f list) := by
  induction list with
  | nil => exact Nat.zero_le _
  | cons token list ih =>
      cases token with
      | plain c =>
          rw [holes_cons_plain, fill, occurrences]
          omega
      | hole other =>
          rw [fill, occurrences_append]
          by_cases hother : other = rule
          · subst hother
            have hpos := @started_pattern_pos _ _ other (fill f list)
            rw [holes_cons_self, hf]
            omega
          · rw [holes_cons_other hother]
            omega

/-- **Where the occurrences are the holes, one pass fills them.** -/
theorem replaceTogether_fill {f : Rule α → List α} (hf : f rule = rule.pattern)
    {list : List (Token α)}
    (hcount : occurrences rule.pattern (fill f list) = holes rule list) :
    replaceTogether [rule] (fill f list) = fill (Function.update f rule rule.replacement) list := by
  induction list with
  | nil => rfl
  | cons token list ih =>
      have hle := holes_le_occurrences hf list
      cases token with
      | plain c =>
          rw [holes_cons_plain, fill, occurrences] at hcount
          have hnot : ¬ rule.pattern.isPrefixOf (c :: fill f list) = true := by
            intro hbegins
            rw [if_pos hbegins] at hcount
            omega
          rw [if_neg hnot, Nat.zero_add] at hcount
          have hnone : [rule].find? (·.begins (c :: fill f list)) = none := by
            rw [List.find?_eq_none]
            intro r hr
            rw [List.mem_singleton.mp hr]
            exact hnot
          have hrest := ih hcount
          unfold replaceTogether at hrest ⊢
          rw [fill, tokens_plain hnone, fill, fill, hrest]
      | hole other =>
          rw [fill, occurrences_append] at hcount
          by_cases hother : other = rule
          · subst hother
            rw [hf, holes_cons_self] at hcount
            have hpos := @started_pattern_pos _ _ other (fill f list)
            have hrest := ih (by omega)
            obtain ⟨c, others, hpattern⟩ := List.exists_cons_of_ne_nil other.nonempty
            have hfind : [other].find? (·.begins (c :: (others ++ fill f list))) = some other := by
              rw [List.find?_cons_of_pos]
              exact begins_iff.mpr ⟨fill f list, by rw [hpattern]; rfl⟩
            obtain ⟨after, hafter, htokens⟩ := tokens_hole hfind
            have hsame : after = fill f list := by
              rw [← List.cons_append, ← hpattern] at hafter
              exact (List.append_cancel_left hafter).symm
            unfold replaceTogether at hrest ⊢
            rw [fill, hf, hpattern, List.cons_append, htokens, fill, hsame, hrest, fill,
              Function.update_self]
          · rw [holes_cons_other hother] at hcount
            have hrest := ih (by omega)
            have hnone : ∀ r ∈ [rule], started r.pattern (f other) (fill f list) = 0 := by
              intro r hr
              rw [List.mem_singleton.mp hr]
              omega
            rw [fill, replaceTogether_unstarted hnone, hrest, fill, Function.update_of_ne hother]

/-! ### Patterns that are apart -/

/-- No two patterns begin at one place or overlap. -/
def Separate (rules : List (Rule α)) (text : List α) : Prop :=
  ∀ p ∈ rules, ∀ q ∈ rules, ∀ i j, p.pattern <+: text.drop i → q.pattern <+: text.drop j →
    i ≤ j → j < i + p.pattern.length → i = j ∧ p = q

omit [DecidableEq α] in
theorem Separate.perm (h : Separate rules text) (hperm : rules.Perm rules') :
    Separate rules' text :=
  fun p hp q hq => h p (hperm.symm.subset hp) q (hperm.symm.subset hq)

omit [DecidableEq α] in
theorem Separate.subset (h : Separate rules text) (hsub : rules' ⊆ rules) : Separate rules' text :=
  fun p hp q hq => h p (hsub hp) q (hsub hq)

omit [DecidableEq α] in
theorem Separate.drop (h : Separate rules text) (n : Nat) : Separate rules (text.drop n) := by
  intro p hp q hq i j hi hj hle hlt
  rw [List.drop_drop] at hi hj
  obtain ⟨heq, hsame⟩ := h p hp q hq (n + i) (n + j) hi hj (by omega) (by omega)
  exact ⟨by omega, hsame⟩

omit [DecidableEq α] in
theorem Separate.behind (h : Separate rules (rest ++ after)) : Separate rules after := by
  have hdrop := h.drop rest.length
  rwa [List.drop_left] at hdrop

theorem Separate.find (h : Separate rules text) (hrule : rule ∈ rules)
    (hbegins : rule.begins text = true) : rules.find? (·.begins text) = some rule := by
  cases hfind : rules.find? (·.begins text) with
  | none => exact absurd hbegins (List.find?_eq_none.mp hfind rule hrule)
  | some found =>
      have hfound := List.find?_some hfind
      have hlength : 0 < found.pattern.length := List.length_pos_iff.mpr found.nonempty
      obtain ⟨-, hsame⟩ := h found (List.mem_of_find?_eq_some hfind) rule hrule 0 0
        (begins_iff.mp hfound) (begins_iff.mp hbegins) (Nat.le_refl _) (by omega)
      rw [hsame]

/-- Inside a pattern no pattern begins. -/
theorem Separate.started_rest (h : Separate rules (rule.pattern ++ after)) (hrule : rule ∈ rules)
    (hother : other ∈ rules) (n : Nat) (hn : 0 < n) :
    started other.pattern (rule.pattern.drop n) after = 0 := by
  induction hlength : (rule.pattern.drop n).length generalizing n with
  | zero =>
      rw [List.length_eq_zero_iff.mp hlength]
      rfl
  | succ m ih =>
      obtain ⟨c, rest, hdrop⟩ := @List.exists_cons_of_ne_nil _ (rule.pattern.drop n) (by
        intro hnil
        rw [hnil] at hlength
        cases hlength)
      have hnext : rule.pattern.drop (n + 1) = rest := by
        rw [← List.drop_drop, hdrop]
        rfl
      have hshort : n < rule.pattern.length := by
        rw [List.length_drop] at hlength
        omega
      rw [hdrop, started, if_neg, ← hnext, ih (n + 1) (by omega)]
      · rw [hnext]
        rw [hdrop] at hlength
        exact Nat.succ.inj hlength
      · intro hbegins
        have hplace : (rule.pattern ++ after).drop n = c :: (rest ++ after) := by
          rw [List.drop_append_of_le_length (by omega), hdrop]
          rfl
        have hoverlap := h rule hrule other hother 0 n ⟨after, rfl⟩
          (by rw [hplace]; exact List.isPrefixOf_iff_prefix.mp hbegins) (by omega) (by omega)
        omega

/-- **Patterns that are apart are found in whatever order they are listed.** -/
theorem tokens_perm (h : Separate rules text) (hperm : rules.Perm rules') :
    tokens rules 0 text = tokens rules' 0 text := by
  revert h
  refine text_induction rules ?_ ?_ ?_ text
  · intro _
    rfl
  · intro c rest hfind ih h
    have hnone : rules'.find? (·.begins (c :: rest)) = none := by
      rw [List.find?_eq_none] at hfind ⊢
      exact fun r hr => hfind r (hperm.symm.subset hr)
    rw [tokens_plain hfind, tokens_plain hnone, ih (h.drop 1)]
  · intro rule after hmem hfind htokens ih h
    have hbegins : rule.begins (rule.pattern ++ after) = true :=
      @List.find?_some (Rule α) (·.begins (rule.pattern ++ after)) _ _ hfind
    have hfind' := (h.perm hperm).find (hperm.subset hmem) hbegins
    obtain ⟨c, others, hpattern⟩ := List.exists_cons_of_ne_nil rule.nonempty
    have hsplit : rule.pattern ++ after = c :: (others ++ after) := by rw [hpattern]; rfl
    rw [hsplit] at hfind'
    obtain ⟨after', htext, htokens'⟩ := tokens_hole hfind'
    rw [← hsplit] at htext htokens'
    rw [htokens, htokens', ih h.behind, ← List.append_cancel_left htext]

/-- Each occurrence of a pattern is a hole. -/
theorem holes_tokens (h : Separate rules text) (hrule : rule ∈ rules) :
    holes rule (tokens rules 0 text) = occurrences rule.pattern text := by
  revert h
  refine text_induction rules ?_ ?_ ?_ text
  · intro _
    rfl
  · intro c rest hfind ih h
    have hnot : ¬ rule.pattern.isPrefixOf (c :: rest) = true :=
      List.find?_eq_none.mp hfind rule hrule
    rw [tokens_plain hfind, holes_cons_plain, ih (h.drop 1), occurrences, if_neg hnot, Nat.zero_add]
  · intro found after hmem hfind htokens ih h
    obtain ⟨c, others, hpattern⟩ := List.exists_cons_of_ne_nil found.nonempty
    have hinside := h.started_rest hmem hrule 1 Nat.one_pos
    have hdrop : found.pattern.drop 1 = others := by
      rw [hpattern]
      rfl
    rw [hdrop] at hinside
    have hstart : started rule.pattern found.pattern after =
        if rule.begins (found.pattern ++ after) then 1 else 0 := by
      conv_lhs => rw [hpattern]
      rw [started, hinside, Nat.add_zero, hpattern]
      rfl
    rw [htokens, occurrences_append, hstart, ← ih h.behind]
    by_cases hsame : found = rule
    · subst hsame
      rw [holes_cons_self, if_pos (List.find?_some hfind)]
      omega
    · have hnot : ¬ rule.begins (found.pattern ++ after) = true := by
        intro hbegins
        have hfound := h.find hrule hbegins
        rw [hfind] at hfound
        exact hsame (Option.some.inj hfound)
      rw [holes_cons_other hsame, if_neg hnot, Nat.zero_add]

/-- What the rules that are done put into the holes; the others leave their patterns. -/
def filled (done : List (Rule α)) (rule : Rule α) : List α :=
  if rule ∈ done then rule.replacement else rule.pattern

/-- Replacing some of the patterns leaves the others where they are. -/
theorem replaceTogether_subset (h : Separate rules text) {done : List (Rule α)}
    (hdone : done ⊆ rules) :
    replaceTogether done text = fill (filled done) (tokens rules 0 text) := by
  revert h
  refine text_induction rules ?_ ?_ ?_ text
  · intro _
    rfl
  · intro c rest hfind ih h
    have hnone : done.find? (·.begins (c :: rest)) = none := by
      rw [List.find?_eq_none] at hfind ⊢
      exact fun r hr => hfind r (hdone hr)
    have hrest := ih (h.drop 1)
    unfold replaceTogether at hrest ⊢
    rw [tokens_plain hfind, tokens_plain hnone, fill, fill, hrest]
  · intro rule after hmem hfind htokens ih h
    have hrest := ih h.behind
    rw [htokens, fill]
    obtain ⟨c, others, hpattern⟩ := List.exists_cons_of_ne_nil rule.nonempty
    have hsplit : rule.pattern ++ after = c :: (others ++ after) := by rw [hpattern]; rfl
    by_cases hin : rule ∈ done
    · have hbegins : rule.begins (rule.pattern ++ after) = true :=
        @List.find?_some (Rule α) (·.begins (rule.pattern ++ after)) _ _ hfind
      have hfind' := (h.subset hdone).find hin hbegins
      rw [hsplit] at hfind'
      obtain ⟨after', htext, htokens'⟩ := tokens_hole hfind'
      rw [← hsplit] at htext htokens'
      rw [filled, if_pos hin, ← hrest]
      unfold replaceTogether
      rw [htokens', fill, ← List.append_cancel_left htext]
    · have hunstarted : ∀ r ∈ done, started r.pattern rule.pattern after = 0 := by
        intro r hr
        have hinside := h.started_rest hmem (hdone hr) 1 Nat.one_pos
        have hdrop : rule.pattern.drop 1 = others := by
          rw [hpattern]
          rfl
        have hnot : ¬ r.pattern.isPrefixOf (c :: (others ++ after)) = true := by
          intro hbegins
          rw [← hsplit] at hbegins
          have hfound := h.find (hdone hr) hbegins
          rw [hfind] at hfound
          exact hin (Option.some.inj hfound ▸ hr)
        rw [hdrop] at hinside
        rw [hpattern, started, if_neg hnot, hinside]
      rw [replaceTogether_unstarted hunstarted, filled, if_neg hin, hrest]

/-! ### One pattern after the other -/

/-- No pass finds what the text did not have: replacing the rules before it together leaves as many
occurrences of a pattern as the text has. -/
def Undisturbed (rules : List (Rule α)) (text : List α) : Prop :=
  ∀ done rule rest, rules = done ++ rule :: rest →
    occurrences rule.pattern (replaceTogether done text) = occurrences rule.pattern text

theorem undisturbed_iff : Undisturbed rules text ↔ ∀ n, ∀ h : n < rules.length,
    occurrences rules[n].pattern (replaceTogether (rules.take n) text) =
      occurrences rules[n].pattern text := by
  constructor
  · intro h n hn
    exact h (rules.take n) rules[n] (rules.drop (n + 1)) (by
      rw [← List.drop_eq_getElem_cons hn, List.take_append_drop])
  · intro h done rule rest hsplit
    have hshort : done.length < rules.length := by
      rw [hsplit, List.length_append, List.length_cons]
      omega
    have hfront : rules.take done.length = done := by rw [hsplit, List.take_left]
    have hplace := h done.length hshort
    rwa [hfront, List.getElem_of_append hsplit rfl] at hplace

instance : Decidable (Undisturbed rules text) := decidable_of_iff _ undisturbed_iff.symm

/-- **Then replacing the patterns one after the other is replacing them together.**  Each pass may
rely on finding as many occurrences as the text has. -/
theorem foldl_replace {pass : List α → Rule α → List α}
    (hpass : ∀ rule ∈ rules, ∀ text',
      occurrences rule.pattern text' = occurrences rule.pattern text →
        pass text' rule = replaceTogether [rule] text')
    (hseparate : Separate rules text) (hnodup : rules.Nodup) (h : Undisturbed rules text) :
    rules.foldl pass text = replaceTogether rules text := by
  have hsome : ∀ done rest, rules = done ++ rest →
      done.foldl pass text = replaceTogether done text := by
    intro done
    induction done using List.reverseRecOn with
    | nil =>
        intro rest _
        have hnone := @replaceTogether_subset _ _ rules text hseparate [] (List.nil_subset _)
        have hpatterns : filled ([] : List (Rule α)) = (·.pattern) :=
          funext fun rule => if_neg List.not_mem_nil
        rw [hnone, hpatterns, fill_tokens]
        rfl
    | append_singleton done rule ih =>
        intro rest hsplit
        rw [List.append_assoc, List.singleton_append] at hsplit
        have hfront := ih (rule :: rest) hsplit
        have hsub : done ⊆ rules := by
          rw [hsplit]
          exact List.subset_append_left _ _
        have hmem : rule ∈ rules := by
          rw [hsplit]
          exact List.mem_append_right _ List.mem_cons_self
        have hsub' : done ++ [rule] ⊆ rules :=
          List.append_subset.mpr ⟨hsub, List.cons_subset.mpr ⟨hmem, List.nil_subset _⟩⟩
        have hfresh : rule ∉ done := by
          rw [hsplit, List.nodup_append] at hnodup
          intro hmem
          exact hnodup.2.2 rule hmem rule List.mem_cons_self rfl
        have hsame := h done rule rest hsplit
        have hcount := hsame
        rw [replaceTogether_subset hseparate hsub, ← holes_tokens hseparate hmem] at hcount
        rw [List.foldl_append, hfront, List.foldl_cons, List.foldl_nil, hpass rule hmem _ hsame,
          replaceTogether_subset hseparate hsub, replaceTogether_subset hseparate hsub',
          replaceTogether_fill (if_neg hfresh) hcount]
        congr 1
        funext r
        by_cases hr : r = rule
        · subst hr
          rw [Function.update_self, filled, if_pos (List.mem_append_right _ List.mem_cons_self)]
        · rw [Function.update_of_ne hr]
          unfold filled
          simp only [List.mem_append, List.mem_singleton, hr, or_false]
  exact hsome rules [] (List.append_nil _).symm

/-- A pattern that does not occur is not replaced. -/
theorem replaceTogether_absent (h : occurrences rule.pattern text = 0) :
    replaceTogether [rule] text = text := by
  have hstarted := occurrences_append rule.pattern text []
  rw [List.append_nil, h] at hstarted
  have hnone : ∀ r ∈ [rule], started r.pattern text [] = 0 := by
    intro r hr
    rw [List.mem_singleton.mp hr]
    omega
  have hempty : replaceTogether [rule] [] = [] := rfl
  have hsame := replaceTogether_unstarted hnone
  rwa [hempty, List.append_nil] at hsame

end Substitution
