/-
What a template becomes when it is instantiated.

Parameters are put in one after the other, so that a value is searched for the placeholders of the
parameters behind it, and a value is read as a replacement text.  Where the values have no escapes
and no placeholder comes about that the template did not have, the result is the template with its
placeholders replaced together, whatever the order of the parameters.
-/
import OpenLagrange.Planning.PlanTemplateInstantiator
import Mathlib.Data.List.Infix
import Mathlib.Data.List.Permutation

namespace OpenLagrange.PlanTemplates

open Substitution

variable {params inserted : List Param} {template text value : List Char} {rule : Rule Char}

/-! ### Placeholders -/

def dollarRule (p : Param) : Rule Char := ⟨dollarForm p.1, p.2, by intro h; cases h⟩

def bracesRule (p : Param) : Rule Char := ⟨bracesForm p.1, p.2, by intro h; cases h⟩

/-- What the placeholders of the parameters are replaced by. -/
def placeholders (params : List Param) : List (Rule Char) :=
  params.flatMap fun p => [dollarRule p, bracesRule p]

theorem mem_placeholders :
    rule ∈ placeholders params ↔ ∃ p ∈ params, rule = dollarRule p ∨ rule = bracesRule p := by
  simp only [placeholders, List.mem_flatMap, List.mem_cons, List.not_mem_nil, or_false]

theorem dollarForm_injective {key key' : List Char} (h : dollarForm key = dollarForm key') :
    key = key' :=
  List.append_cancel_right (List.cons.inj (List.cons.inj h).2).2

theorem bracesForm_injective {key key' : List Char} (h : bracesForm key = bracesForm key') :
    key = key' :=
  List.append_cancel_right (List.cons.inj (List.cons.inj h).2).2

theorem dollarForm_ne_bracesForm (key key' : List Char) : dollarForm key ≠ bracesForm key' := by
  intro h
  exact absurd (List.cons.inj h).1 (by decide)

/-- With distinct keys, no two rules have one pattern. -/
theorem placeholders_nodup (hkeys : (params.map Prod.fst).Nodup) :
    ((placeholders params).map Rule.pattern).Nodup := by
  induction params with
  | nil => exact List.nodup_nil
  | cons p rest ih =>
      rw [List.map_cons, List.nodup_cons] at hkeys
      have hother : ∀ r ∈ placeholders rest,
          r.pattern ≠ dollarForm p.1 ∧ r.pattern ≠ bracesForm p.1 := by
        intro r hr
        obtain ⟨q, hq, hform⟩ := mem_placeholders.mp hr
        have hkey : q.1 ≠ p.1 := by
          intro heq
          exact hkeys.1 (heq ▸ List.mem_map_of_mem hq)
        rcases hform with hform | hform
        · rw [hform]
          exact ⟨fun h => hkey (dollarForm_injective h), dollarForm_ne_bracesForm _ _⟩
        · rw [hform]
          exact ⟨fun h => dollarForm_ne_bracesForm _ _ h.symm,
            fun h => hkey (bracesForm_injective h)⟩
      have hsplit : placeholders (p :: rest) = dollarRule p :: bracesRule p :: placeholders rest :=
        rfl
      rw [hsplit, List.map_cons, List.map_cons, List.nodup_cons, List.nodup_cons]
      refine ⟨?_, ?_, ih hkeys.2⟩
      · intro hmem
        rcases List.mem_cons.mp hmem with heq | hrest
        · exact dollarForm_ne_bracesForm _ _ heq
        · obtain ⟨r, hr, heq⟩ := List.mem_map.mp hrest
          exact (hother r hr).1 heq
      · intro hmem
        obtain ⟨r, hr, heq⟩ := List.mem_map.mp hmem
        exact (hother r hr).2 heq

/-! ### Keys without braces -/

def Braceless (key : List Char) : Prop := '\x7b' ∉ key ∧ '\x7d' ∉ key

instance (key : List Char) : Decidable (Braceless key) := inferInstanceAs (Decidable (_ ∧ _))

/-- A placeholder opens with two characters, goes on without an opening brace, and ends in a
closing one. -/
theorem placeholder_shape (hkeys : ∀ p ∈ params, Braceless p.1)
    (h : rule ∈ placeholders params) :
    ∃ first body, rule.pattern = first :: '\x7b' :: (body ++ ['\x7d']) ∧
      (first = '$' ∨ first = '\x7b') ∧ '\x7b' ∉ body := by
  obtain ⟨p, hp, hform⟩ := mem_placeholders.mp h
  rcases hform with rfl | rfl
  · exact ⟨'$', p.1, rfl, .inl rfl, (hkeys p hp).1⟩
  · refine ⟨'\x7b', p.1 ++ ['\x7d'], ?_, .inr rfl, ?_⟩
    · show bracesForm p.1 = _
      unfold bracesForm
      rw [List.append_assoc]
      rfl
    · intro hmem
      rcases List.mem_append.mp hmem with hkey | hlast
      · exact (hkeys p hp).1 hkey
      · exact absurd (List.mem_singleton.mp hlast) (by decide)

/-- No placeholder begins inside another. -/
theorem no_placeholder_inside {first c : Char} (hfirst : first = '$' ∨ first = '\x7b')
    {body others after : List Char} (hbody : '\x7b' ∉ body) (n : Nat) (hn : n ≤ body.length + 1) :
    ¬ first :: '\x7b' :: others <+: (c :: (body ++ '\x7d' :: after)).drop n := by
  induction body generalizing c n with
  | nil =>
      cases n with
      | zero =>
          intro h
          obtain ⟨rest, h⟩ := h
          exact absurd (List.cons.inj (List.cons.inj h).2).1 (by decide)
      | succ n =>
          intro h
          obtain ⟨rest, h⟩ := h
          have hzero : n = 0 := by
            rw [List.length_nil] at hn
            omega
          subst hzero
          have hclosing := (List.cons.inj h).1
          rcases hfirst with rfl | rfl
          · exact absurd hclosing (by decide)
          · exact absurd hclosing (by decide)
  | cons d body ih =>
      cases n with
      | zero =>
          intro h
          obtain ⟨rest, h⟩ := h
          have hopening := (List.cons.inj (List.cons.inj h).2).1
          exact hbody (hopening ▸ List.mem_cons_self)
      | succ n =>
          rw [List.length_cons] at hn
          exact @ih d (fun hmem => hbody (List.mem_cons_of_mem _ hmem)) n (by omega)

/-- What stands before the first closing brace. -/
theorem same_key {key key' rest rest' : List Char} (hkey : '\x7d' ∉ key) (hkey' : '\x7d' ∉ key')
    (h : key ++ '\x7d' :: rest = key' ++ '\x7d' :: rest') : key = key' := by
  induction key generalizing key' with
  | nil =>
      cases key' with
      | nil => rfl
      | cons c others =>
          have hclosing := (List.cons.inj h).1
          exact absurd (hclosing ▸ List.mem_cons_self) hkey'
  | cons c key ih =>
      cases key' with
      | nil =>
          have hclosing := (List.cons.inj h).1
          exact absurd (hclosing ▸ List.mem_cons_self) hkey
      | cons d others =>
          obtain ⟨hfirst, hothers⟩ := List.cons.inj h
          rw [hfirst, ih (fun hmem => hkey (List.mem_cons_of_mem _ hmem))
            (fun hmem => hkey' (List.mem_cons_of_mem _ hmem)) hothers]

theorem dollarForm_append (key rest : List Char) :
    dollarForm key ++ rest = '$' :: '\x7b' :: (key ++ '\x7d' :: rest) := by
  unfold dollarForm
  rw [List.cons_append, List.cons_append, List.append_assoc, List.singleton_append]

theorem bracesForm_append (key rest : List Char) :
    bracesForm key ++ rest = '\x7b' :: '\x7b' :: (key ++ '\x7d' :: '\x7d' :: rest) := by
  unfold bracesForm
  rw [List.cons_append, List.cons_append, List.append_assoc]
  rfl

/-- At one place there is one placeholder. -/
theorem placeholder_unique (hkeys : ∀ p ∈ params, Braceless p.1)
    (hdistinct : (params.map Prod.fst).Nodup) {other : Rule Char}
    (hrule : rule ∈ placeholders params) (hother : other ∈ placeholders params)
    (h : rule.pattern <+: text) (h' : other.pattern <+: text) : rule = other := by
  obtain ⟨p, hp, hform⟩ := mem_placeholders.mp hrule
  obtain ⟨q, hq, hform'⟩ := mem_placeholders.mp hother
  obtain ⟨rest, htext⟩ := h
  obtain ⟨rest', htext'⟩ := h'
  have heq := htext.trans htext'.symm
  have hparam : p.1 = q.1 → p = q := List.inj_on_of_nodup_map hdistinct hp hq
  rcases hform with rfl | rfl <;> rcases hform' with rfl | rfl
  · simp only [dollarRule, dollarForm_append] at heq
    have hkeyed := (List.cons.inj (List.cons.inj heq).2).2
    rw [hparam (same_key (hkeys p hp).2 (hkeys q hq).2 hkeyed)]
  · exact absurd (List.cons.inj heq).1 (by decide)
  · exact absurd (List.cons.inj heq).1 (by decide)
  · simp only [bracesRule, bracesForm_append] at heq
    have hkeyed := (List.cons.inj (List.cons.inj heq).2).2
    rw [hparam (same_key (hkeys p hp).2 (hkeys q hq).2 hkeyed)]

/-- **The placeholders of keys without braces are apart in every text.** -/
theorem placeholders_separate (hkeys : ∀ p ∈ params, Braceless p.1)
    (hdistinct : (params.map Prod.fst).Nodup) : Separate (placeholders params) text := by
  intro rule hrule other hother i j hi hj hle hlt
  by_cases hsame : i = j
  · subst hsame
    exact ⟨rfl, placeholder_unique hkeys hdistinct hrule hother hi hj⟩
  · obtain ⟨first, body, hshape, -, hbody⟩ := placeholder_shape hkeys hrule
    obtain ⟨first', body', hshape', hfirst', -⟩ := placeholder_shape hkeys hother
    obtain ⟨after, htext⟩ := hi
    obtain ⟨m, hm⟩ : ∃ m, j = i + (m + 1) := ⟨j - i - 1, by omega⟩
    subst hm
    rw [hshape] at htext hlt
    rw [← List.drop_drop, ← htext, hshape'] at hj
    have hlength : m ≤ body.length + 1 := by
      simp only [List.length_cons, List.length_append, List.length_nil] at hlt
      omega
    have hinside : ((first :: '\x7b' :: (body ++ ['\x7d'])) ++ after).drop (m + 1) =
        ('\x7b' :: (body ++ '\x7d' :: after)).drop m := by
      rw [List.cons_append, List.drop_succ_cons, List.cons_append, List.append_assoc,
        List.singleton_append]
    rw [hinside] at hj
    exact absurd hj (no_placeholder_inside hfirst' hbody m hlength)

/-! ### Values -/

/-- A replacement text that stands for nothing but itself. -/
def Verbatim (value : List Char) : Prop :=
  ∀ c ∈ ['$', '&', '\x60', '\x27'], ¬ ['$', c] <:+: value

instance (value : List Char) : Decidable (Verbatim value) :=
  List.decidableBAll (fun c => ¬ ['$', c] <:+: value) ['$', '&', '\x60', '\x27']

theorem Verbatim.tail {c : Char} (h : Verbatim (c :: value)) : Verbatim value :=
  fun d hd hpart => h d hd (hpart.trans (List.suffix_cons c value).isInfix)

theorem Verbatim.head {c : Char} {rest : List Char} (h : Verbatim ('$' :: c :: rest)) :
    c ∉ ['$', '&', '\x60', '\x27'] :=
  fun hc => h c hc ⟨[], rest, rfl⟩

theorem getSubstitution_verbatim (h : Verbatim value) (matched before after : List Char) :
    getSubstitution matched before after value = value := by
  fun_induction getSubstitution matched before after value with
  | case1 rest ih => exact absurd List.mem_cons_self h.head
  | case2 rest ih => exact absurd (by decide) h.head
  | case3 rest ih => exact absurd (by decide) h.head
  | case4 rest ih => exact absurd (by decide) h.head
  | case5 c rest _ _ _ _ ih => rw [ih h.tail]
  | case6 => rfl

/-- Replacing by such a text is replacing by a rule. -/
theorem replaceFrom_verbatim (h : Verbatim rule.replacement) (before : List Char) (skip : Nat)
    (text : List Char) :
    replaceFrom rule.pattern rule.replacement before skip text =
      fill (·.replacement) (tokens [rule] skip text) := by
  induction text generalizing before skip with
  | nil => cases skip <;> rfl
  | cons c rest ih =>
      cases skip with
      | succ skip => exact ih _ skip
      | zero =>
          by_cases hbegins : rule.pattern.isPrefixOf (c :: rest) = true
          · have hfind : [rule].find? (·.begins (c :: rest)) = some rule :=
              List.find?_cons_of_pos hbegins
            unfold replaceFrom tokens
            rw [if_pos hbegins, hfind, getSubstitution_verbatim h, ih]
            rfl
          · have hfind : [rule].find? (·.begins (c :: rest)) = none := by
              rw [List.find?_eq_none]
              intro r hr
              rw [List.mem_singleton.mp hr]
              exact hbegins
            unfold replaceFrom tokens
            rw [if_neg hbegins, hfind, ih]
            rfl

theorem replaceFrom_absent {search replacement : List Char} (h : occurrences search text = 0)
    (before : List Char) : replaceFrom search replacement before 0 text = text := by
  induction text generalizing before with
  | nil => rfl
  | cons c rest ih =>
      rw [occurrences] at h
      have hnot : ¬ search.isPrefixOf (c :: rest) = true := by
        intro hbegins
        rw [if_pos hbegins] at h
        omega
      rw [replaceFrom, if_neg hnot, ih (by omega)]

/-- A pass replaces as a rule does, if it replaces anything. -/
theorem replaceAll_rule (h : occurrences rule.pattern text = 0 ∨ Verbatim rule.replacement) :
    replaceAll rule.pattern rule.replacement text = replaceTogether [rule] text := by
  rcases h with habsent | hverbatim
  · rw [replaceTogether_absent habsent]
    exact replaceFrom_absent habsent []
  · exact replaceFrom_verbatim hverbatim [] 0 text

/-! ### Rendering -/

theorem renderTemplate_rules (content : List Char) (params : List Param) :
    renderTemplate content params =
      (placeholders (objectEntries params)).foldl
        (fun next r => replaceAll r.pattern r.replacement next) content := by
  unfold renderTemplate placeholders
  rw [List.foldl_flatMap]
  rfl

theorem objectEntries_perm (params : List Param) : (objectEntries params).Perm params := by
  unfold objectEntries
  have hsorted := List.perm_insertionSort
    (fun p q : Param => (arrayIndex? p.1).getD 0 ≤ (arrayIndex? q.1).getD 0)
    (params.filter fun p => (arrayIndex? p.1).isSome)
  have hsplit := List.filter_append_perm (fun p : Param => (arrayIndex? p.1).isSome) params
  have hnot : (fun p : Param => !(arrayIndex? p.1).isSome) = fun p => (arrayIndex? p.1).isNone :=
    funext fun p => by cases arrayIndex? p.1 <;> rfl
  rw [hnot] at hsplit
  exact (hsorted.append_right _).trans hsplit

theorem placeholders_perm (h : inserted.Perm params) :
    (placeholders inserted).Perm (placeholders params) :=
  h.flatMap_right _

/-- Instantiating the template gives its text with the placeholders of the parameters replaced
together, in whatever order the parameters were given. -/
def Simultaneous (template : List Char) (params : List Param) : Prop :=
  ∀ inserted, inserted.Perm params → ∀ files : Files, ∀ input : InstantiateInput,
    files input.templatePath = some template → input.params.getD [] = inserted →
      ∃ files' result, instantiatePlanTemplate files input = some (files', result) ∧
        result.content = replaceTogether (placeholders params) template ∧
          ∀ path, result.path = some path → files' path = some result.content

/-- The placeholders are apart, what is written is written as it is, and in no order of the
parameters does putting some of them in make up another placeholder. -/
structure Harmless (template : List Char) (params : List Param) : Prop where
  apart : Separate (placeholders params) template
  values : ∀ r ∈ placeholders params, occurrences r.pattern template = 0 ∨ Verbatim r.replacement
  undisturbed : ∀ inserted, inserted.Perm params →
    Undisturbed (placeholders (objectEntries inserted)) template

theorem renderTemplate_eq (hkeys : (params.map Prod.fst).Nodup) (h : Harmless template params)
    (hperm : inserted.Perm params) :
    renderTemplate template inserted = replaceTogether (placeholders params) template := by
  have hentries := placeholders_perm ((objectEntries_perm inserted).trans hperm)
  have hnodup := (hentries.nodup_iff).mpr (List.Nodup.of_map _ (placeholders_nodup hkeys))
  have hapart := h.apart.perm hentries.symm
  rw [renderTemplate_rules, foldl_replace ?_ hapart hnodup (h.undisturbed inserted hperm)]
  · unfold replaceTogether
    rw [tokens_perm hapart hentries]
  · intro r hr text' hsame
    refine replaceAll_rule ?_
    rw [hsame]
    exact h.values r (hentries.subset hr)

/-- What is written is what is returned. -/
theorem instantiatePlanTemplate_content {files : Files} {input : InstantiateInput}
    (h : files input.templatePath = some template) :
    ∃ files' result, instantiatePlanTemplate files input = some (files', result) ∧
      result.content = renderTemplate template (input.params.getD []) ∧
        ∀ path, result.path = some path → files' path = some result.content := by
  unfold instantiatePlanTemplate
  rw [h]
  cases hwrite : input.writePath with
  | none =>
      refine ⟨_, _, rfl, rfl, ?_⟩
      intro path hpath
      cases hpath
  | some path =>
      by_cases hempty : path = ""
      · subst hempty
        refine ⟨_, _, rfl, rfl, ?_⟩
        intro path hpath
        cases hpath
      · simp only [Option.bind_eq_bind, Option.bind_some, ne_eq, hempty, not_false_eq_true,
          if_true]
        refine ⟨_, _, rfl, rfl, ?_⟩
        intro path' hpath
        cases hpath
        exact Function.update_self ..

theorem Simultaneous.rendered (h : Simultaneous template params) (hperm : inserted.Perm params) :
    renderTemplate template inserted = replaceTogether (placeholders params) template := by
  obtain ⟨_, result, hrun, hcontent, -⟩ :=
    h inserted hperm (fun _ => some template) ⟨"", some inserted, none⟩ rfl rfl
  obtain ⟨_, result', hrun', hcontent', -⟩ :=
    @instantiatePlanTemplate_content template (fun _ => some template) ⟨"", some inserted, none⟩ rfl
  cases hrun.symm.trans hrun'
  exact hcontent'.symm.trans hcontent

/-- **A harmless template becomes its text with the placeholders replaced together.** -/
theorem instantiatePlanTemplate_simultaneous (hkeys : (params.map Prod.fst).Nodup)
    (h : Harmless template params) : Simultaneous template params := by
  intro inserted hperm files input hfile hparams
  obtain ⟨files', result, hrun, hcontent, hwritten⟩ := instantiatePlanTemplate_content hfile
  refine ⟨files', result, hrun, ?_, hwritten⟩
  rw [hcontent, hparams, renderTemplate_eq hkeys h hperm]

/-- Whatever order a parameter map lists its entries in, it is one of finitely many. -/
theorem undisturbed_of_orders
    (h : ∀ order ∈ params.permutations', Undisturbed (placeholders order) template)
    (hperm : inserted.Perm params) : Undisturbed (placeholders (objectEntries inserted)) template :=
  h _ (List.mem_permutations'.mpr ((objectEntries_perm inserted).trans hperm))

theorem twoPlaceholders_filled :
    Simultaneous ['$', '\x7b', 'a', '\x7d', '\x7b', '\x7b', 'b', '\x7d', '\x7d']
      [(['a'], ['$', '1']), (['b'], ['$', '\x7b', 'c', '\x7d'])] :=
  instantiatePlanTemplate_simultaneous (by decide)
    { apart := placeholders_separate (by decide) (by decide)
      values := by decide +kernel
      undisturbed := fun _ hperm => undisturbed_of_orders (by decide +kernel) hperm }

/-- A value that names another parameter is filled in as well, and two dollar signs become one. -/
theorem values_reread :
    ¬ Simultaneous ['$', '\x7b', 'a', '\x7d']
        [(['a'], ['$', '\x7b', 'b', '\x7d']), (['b'], ['x'])] ∧
      ¬ Simultaneous ['$', '\x7b', 'a', '\x7d'] [(['a'], ['$', '$'])] := by
  constructor
  · intro h
    have hrendered := h.rendered (List.Perm.refl _)
    revert hrendered
    decide +kernel
  · intro h
    have hrendered := h.rendered (List.Perm.refl _)
    revert hrendered
    decide +kernel

end OpenLagrange.PlanTemplates
