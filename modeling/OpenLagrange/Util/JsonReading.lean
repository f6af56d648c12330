/-
How `JSON.parse` reads a value, one step at a time.

What a value begins with says what it is: `Begins` lists the cases, each with what is read
behind the first character.  A value ends where its text does, so a text that goes on is read as
far as it was read alone (`readValue_append`); a number ends only where no number could go on.
-/
import OpenLagrange.Util.JsonParse

namespace OpenLagrange

variable {readNumber : List Char → String} {fuel : Nat} {text rest : List Char} {v : Value}

/-! ### One step -/

/-- What a text that begins a value is read as, when `fuel` is left for what is inside. -/
inductive Begins (readNumber : List Char → String) (fuel : Nat) :
    List Char → Value → List Char → Prop
  | str {inside rest : List Char} {s : String} (h : readString inside = some (s, rest)) :
      Begins readNumber fuel ('"' :: inside) (.str s) rest
  | emptyArr {inside rest : List Char} (h : skipSpace inside = ']' :: rest) :
      Begins readNumber fuel ('[' :: inside) (.arr []) rest
  | arr {inside rest : List Char} {items : List Value}
      (hopen : ∀ after, skipSpace inside ≠ ']' :: after)
      (h : readItems readNumber fuel inside = some (items, rest)) :
      Begins readNumber fuel ('[' :: inside) (.arr items) rest
  | emptyObj {inside rest : List Char} (h : skipSpace inside = '\x7d' :: rest) :
      Begins readNumber fuel ('\x7b' :: inside) (.obj []) rest
  | obj {inside rest : List Char} {fields : List (String × Value)}
      (hopen : ∀ after, skipSpace inside ≠ '\x7d' :: after)
      (h : readFields readNumber fuel inside = some (fields, rest)) :
      Begins readNumber fuel ('\x7b' :: inside) (.obj (properties fields)) rest
  | null {rest : List Char} : Begins readNumber fuel ('n' :: 'u' :: 'l' :: 'l' :: rest) .null rest
  | yes {rest : List Char} :
      Begins readNumber fuel ('t' :: 'r' :: 'u' :: 'e' :: rest) (.bool true) rest
  | no {rest : List Char} :
      Begins readNumber fuel ('f' :: 'a' :: 'l' :: 's' :: 'e' :: rest) (.bool false) rest
  | num {text rest : List Char} {v : Value} (h : readLiteral readNumber text = some (v, rest)) :
      Begins readNumber fuel text v rest

/-- A number begins with a character that numbers are written with. -/
theorem readLiteral_lead (h : readLiteral readNumber text = some (v, rest)) :
    ∃ c others, text = c :: others ∧ literalChar c = true := by
  unfold readLiteral at h
  cases text with
  | nil => cases h
  | cons c others =>
      refine ⟨c, others, rfl, ?_⟩
      cases hc : literalChar c with
      | true => rfl
      | false =>
          rw [List.takeWhile_cons_of_neg (by rw [hc]; exact Bool.false_ne_true)] at h
          cases h

theorem begins_of_readValue (h : readValue readNumber (fuel + 1) text = some (v, rest)) :
    Begins readNumber fuel (skipSpace text) v rest := by
  rw [readValue] at h
  split at h
  · rename_i inside heq
    obtain ⟨found, hfound, hpair⟩ := Option.map_eq_some_iff.mp h
    obtain ⟨rfl, rfl⟩ := Prod.mk.inj hpair
    rw [heq]
    exact .str hfound
  · rename_i inside heq
    rw [heq]
    split at h
    · rename_i after hclose
      obtain ⟨rfl, rfl⟩ := Prod.mk.inj (Option.some.inj h)
      exact .emptyArr hclose
    · rename_i hopen
      obtain ⟨found, hfound, hpair⟩ := Option.map_eq_some_iff.mp h
      obtain ⟨rfl, rfl⟩ := Prod.mk.inj hpair
      exact .arr hopen hfound
  · rename_i inside heq
    rw [heq]
    split at h
    · rename_i after hclose
      obtain ⟨rfl, rfl⟩ := Prod.mk.inj (Option.some.inj h)
      exact .emptyObj hclose
    · rename_i hopen
      obtain ⟨found, hfound, hpair⟩ := Option.map_eq_some_iff.mp h
      obtain ⟨rfl, rfl⟩ := Prod.mk.inj hpair
      exact .obj hopen hfound
  · rename_i heq
    obtain ⟨rfl, rfl⟩ := Prod.mk.inj (Option.some.inj h)
    rw [heq]
    exact .null
  · rename_i heq
    obtain ⟨rfl, rfl⟩ := Prod.mk.inj (Option.some.inj h)
    rw [heq]
    exact .yes
  · rename_i heq
    obtain ⟨rfl, rfl⟩ := Prod.mk.inj (Option.some.inj h)
    rw [heq]
    exact .no
  · exact .num h

theorem readValue_of_begins (h : Begins readNumber fuel (skipSpace text) v rest) :
    readValue readNumber (fuel + 1) text = some (v, rest) := by
  rw [readValue]
  generalize skipSpace text = begun at h
  cases h with
  | str h => simp only [h, Option.map_some]
  | emptyArr h => simp only [h]
  | arr hopen h =>
      simp only [h]
      rfl
  | emptyObj h => simp only [h]
  | obj hopen h =>
      simp only [h]
      rfl
  | null => rfl
  | yes => rfl
  | no => rfl
  | num h =>
      obtain ⟨c, others, rfl, hc⟩ := readLiteral_lead h
      have hne : ∀ d, literalChar d = false → c ≠ d := by
        rintro d hd rfl
        rw [hc] at hd
        cases hd
      split
      · rename_i heq
        exact absurd (List.cons.inj heq).1 (hne _ (by decide))
      · rename_i heq
        exact absurd (List.cons.inj heq).1 (hne _ (by decide))
      · rename_i heq
        exact absurd (List.cons.inj heq).1 (hne _ (by decide))
      · rename_i heq
        exact absurd (List.cons.inj heq).1 (hne _ (by decide))
      · rename_i heq
        exact absurd (List.cons.inj heq).1 (hne _ (by decide))
      · rename_i heq
        exact absurd (List.cons.inj heq).1 (hne _ (by decide))
      · exact h

/-- **A value is read as what its first character begins.** -/
theorem readValue_iff : readValue readNumber (fuel + 1) text = some (v, rest) ↔
    Begins readNumber fuel (skipSpace text) v rest :=
  ⟨begins_of_readValue, readValue_of_begins⟩

/-- What items are read as, up to the closing bracket. -/
inductive Lists (readNumber : List Char → String) (fuel : Nat) (text : List Char) :
    List Value → List Char → Prop
  | more {item : Value} {others : List Value} {after inside rest : List Char}
      (hitem : readValue readNumber fuel text = some (item, after))
      (hcomma : skipSpace after = ',' :: inside)
      (hothers : readItems readNumber fuel inside = some (others, rest)) :
      Lists readNumber fuel text (item :: others) rest
  | last {item : Value} {after rest : List Char}
      (hitem : readValue readNumber fuel text = some (item, after))
      (hclose : skipSpace after = ']' :: rest) : Lists readNumber fuel text [item] rest

theorem readItems_iff {items : List Value} :
    readItems readNumber (fuel + 1) text = some (items, rest) ↔
      Lists readNumber fuel text items rest := by
  refine ⟨fun h => ?_, fun h => ?_⟩
  · rw [readItems] at h
    obtain ⟨⟨item, after⟩, hitem, h⟩ := Option.bind_eq_some_iff.mp h
    split at h
    · rename_i inside hcomma
      obtain ⟨others, hothers, hpair⟩ := Option.map_eq_some_iff.mp h
      obtain ⟨rfl, rfl⟩ := Prod.mk.inj hpair
      exact .more hitem hcomma hothers
    · rename_i after hclose
      obtain ⟨rfl, rfl⟩ := Prod.mk.inj (Option.some.inj h)
      exact .last hitem hclose
    · cases h
  · cases h with
    | more hitem hcomma hothers =>
        rw [readItems, hitem, Option.bind_some]
        simp only [hcomma, hothers, Option.map_some]
    | last hitem hclose =>
        rw [readItems, hitem, Option.bind_some]
        simp only [hclose]

/-- What properties are read as, up to the closing brace. -/
inductive Fields (readNumber : List Char → String) (fuel : Nat) (text : List Char) :
    List (String × Value) → List Char → Prop
  | more {key : String} {value : Value} {others : List (String × Value)}
      {behind after inside rest : List Char} (hkey : readKey text = some (key, behind))
      (hvalue : readValue readNumber fuel behind = some (value, after))
      (hcomma : skipSpace after = ',' :: inside)
      (hothers : readFields readNumber fuel inside = some (others, rest)) :
      Fields readNumber fuel text ((key, value) :: others) rest
  | last {key : String} {value : Value} {behind after rest : List Char}
      (hkey : readKey text = some (key, behind))
      (hvalue : readValue readNumber fuel behind = some (value, after))
      (hclose : skipSpace after = '\x7d' :: rest) :
      Fields readNumber fuel text [(key, value)] rest

theorem readFields_iff {fields : List (String × Value)} :
    readFields readNumber (fuel + 1) text = some (fields, rest) ↔
      Fields readNumber fuel text fields rest := by
  refine ⟨fun h => ?_, fun h => ?_⟩
  · rw [readFields] at h
    obtain ⟨⟨key, behind⟩, hkey, h⟩ := Option.bind_eq_some_iff.mp h
    obtain ⟨⟨value, after⟩, hvalue, h⟩ := Option.bind_eq_some_iff.mp h
    split at h
    · rename_i inside hcomma
      obtain ⟨others, hothers, hpair⟩ := Option.map_eq_some_iff.mp h
      obtain ⟨rfl, rfl⟩ := Prod.mk.inj hpair
      exact .more hkey hvalue hcomma hothers
    · rename_i after hclose
      obtain ⟨rfl, rfl⟩ := Prod.mk.inj (Option.some.inj h)
      exact .last hkey hvalue hclose
    · cases h
  · cases h with
    | more hkey hvalue hcomma hothers =>
        rw [readFields, hkey, Option.bind_some, hvalue, Option.bind_some]
        simp only [hcomma, hothers, Option.map_some]
    | last hkey hvalue hclose =>
        rw [readFields, hkey, Option.bind_some, hvalue, Option.bind_some]
        simp only [hclose]

/-! ### What follows a value -/

/-- What follows does not go on with a number that ends the text. -/
def Parts (v : Value) (rest more : List Char) : Prop :=
  (∀ text, v ≠ .num text) ∨ rest ≠ [] ∨ Ends more

theorem skipSpace_append {c : Char} {others : List Char} (h : skipSpace text = c :: others)
    (more : List Char) : skipSpace (text ++ more) = c :: (others ++ more) := by
  unfold skipSpace at h ⊢
  rw [List.dropWhile_append, h]
  rfl

theorem readUnits_append {units : List Nat} (h : readUnits text = some (units, rest))
    (more : List Char) : readUnits (text ++ more) = some (units, rest ++ more) := by
  induction text using readUnits.induct generalizing units with
  | case1 => cases h
  | case2 inside =>
      rw [readUnits] at h
      obtain ⟨rfl, rfl⟩ := Prod.mk.inj (Option.some.inj h)
      rw [List.cons_append, readUnits]
  | case3 a b c d inside ih =>
      rw [readUnits] at h
      obtain ⟨unit, hunit, h⟩ := Option.bind_eq_some_iff.mp h
      obtain ⟨found, hfound, hpair⟩ := Option.map_eq_some_iff.mp h
      obtain ⟨rfl, rfl⟩ := Prod.mk.inj hpair
      simp only [List.cons_append]
      rw [readUnits, hunit, Option.bind_some, withUnits, ih hfound]
      rfl
  | case4 c inside hnot ih =>
      rw [readUnits] at h
      · obtain ⟨unit, hunit, h⟩ := Option.bind_eq_some_iff.mp h
        obtain ⟨found, hfound, hpair⟩ := Option.map_eq_some_iff.mp h
        obtain ⟨rfl, rfl⟩ := Prod.mk.inj hpair
        have hu : c ≠ 'u' := by
          rintro rfl
          cases hunit
        simp only [List.cons_append]
        rw [readUnits, hunit, Option.bind_some, withUnits, ih hfound]
        · rfl
        · intro a b c' d rest' heq
          exact absurd heq hu
      · exact hnot
  | case5 c inside hquote hslash hescape hbad =>
      rw [readUnits, if_pos hbad] at h
      · cases h
      · exact hquote
      · exact hslash
      · exact hescape
  | case6 c inside hquote hslash hescape hgood ih =>
      rw [readUnits, if_neg hgood] at h
      · obtain ⟨found, hfound, hpair⟩ := Option.map_eq_some_iff.mp h
        obtain ⟨rfl, rfl⟩ := Prod.mk.inj hpair
        have hc : c ≠ '\\' := fun heq => hgood (Or.inl heq)
        rw [List.cons_append, readUnits, if_neg hgood, withUnits, ih hfound]
        · rfl
        · exact hquote
        · intro a b c' d rest' heq
          exact absurd heq hc
        · intro c' rest' heq
          exact absurd heq hc
      · exact hquote
      · exact hslash
      · exact hescape

theorem readString_append {s : String} (h : readString text = some (s, rest)) (more : List Char) :
    readString (text ++ more) = some (s, rest ++ more) := by
  unfold readString at h ⊢
  simp only [Option.bind_eq_bind, Option.bind_eq_some_iff] at h
  obtain ⟨found, hfound, chars, hchars, hpair⟩ := h
  obtain ⟨rfl, rfl⟩ := Prod.mk.inj (Option.some.inj hpair)
  simp only [Option.bind_eq_bind, readUnits_append hfound more, Option.bind_some, hchars]

theorem readLiteral_append (h : readLiteral readNumber text = some (v, rest)) {more : List Char}
    (hmore : rest ≠ [] ∨ Ends more) :
    readLiteral readNumber (text ++ more) = some (v, rest ++ more) := by
  unfold readLiteral at h
  split at h
  · rename_i hliteral
    obtain ⟨rfl, rfl⟩ := Prod.mk.inj (Option.some.inj h)
    have hrun : (text.takeWhile literalChar).all literalChar = true :=
      List.all_eq_true.mpr fun c hc => List.mem_takeWhile_imp hc
    have hends : Ends (text.dropWhile literalChar ++ more) := by
      cases hdrop : text.dropWhile literalChar with
      | nil => exact hmore.resolve_left fun hne => hne hdrop
      | cons c others =>
          have hhead := List.head?_dropWhile_not literalChar text
          rw [hdrop] at hhead
          exact ends_cons (by simpa using hhead)
    have hsplit : text ++ more =
        text.takeWhile literalChar ++ (text.dropWhile literalChar ++ more) := by
      rw [← List.append_assoc, List.takeWhile_append_dropWhile]
    obtain ⟨htake, hdrop⟩ := takeWhile_append_ends hrun hends
    unfold readLiteral
    rw [hsplit, htake, hdrop, if_pos hliteral]
  · cases h

theorem readKey_append {key : String} (h : readKey text = some (key, rest)) (more : List Char) :
    readKey (text ++ more) = some (key, rest ++ more) := by
  unfold readKey at h
  split at h
  · rename_i inside heq
    obtain ⟨found, hfound, h⟩ := Option.bind_eq_some_iff.mp h
    split at h
    · rename_i after hcolon
      obtain ⟨rfl, rfl⟩ := Prod.mk.inj (Option.some.inj h)
      unfold readKey
      rw [skipSpace_append heq]
      simp only [readString_append hfound, Option.bind_some, skipSpace_append hcolon]
    · cases h
  · cases h

theorem ne_nil_of_skipSpace {c : Char} {others : List Char} (h : skipSpace text = c :: others) :
    text ≠ [] := by
  rintro rfl
  cases h

/-- There is no value in spaces. -/
theorem readValue_lead (h : readValue readNumber fuel text = some (v, rest)) :
    ∃ c others, skipSpace text = c :: others := by
  cases fuel with
  | zero => cases h
  | succ fuel =>
      cases hskip : skipSpace text with
      | cons c others => exact ⟨c, others, rfl⟩
      | nil =>
          have hbegins := readValue_iff.mp h
          rw [hskip] at hbegins
          cases hbegins with
          | num hliteral =>
              obtain ⟨c, others, hcons, -⟩ := readLiteral_lead hliteral
              cases hcons

theorem readItems_lead {items : List Value}
    (h : readItems readNumber fuel text = some (items, rest)) :
    ∃ c others, skipSpace text = c :: others := by
  cases fuel with
  | zero => cases h
  | succ fuel =>
      cases readItems_iff.mp h with
      | more hitem _ _ => exact readValue_lead hitem
      | last hitem _ => exact readValue_lead hitem

theorem readKey_lead {key : String} (h : readKey text = some (key, rest)) :
    ∃ others, skipSpace text = '"' :: others := by
  unfold readKey at h
  split at h
  · rename_i inside heq
    exact ⟨inside, heq⟩
  · cases h

theorem readFields_lead {fields : List (String × Value)}
    (h : readFields readNumber fuel text = some (fields, rest)) :
    ∃ others, skipSpace text = '"' :: others := by
  cases fuel with
  | zero => cases h
  | succ fuel =>
      cases readFields_iff.mp h with
      | more hkey _ _ _ => exact readKey_lead hkey
      | last hkey _ _ => exact readKey_lead hkey

/-- Whatever follows, a text is read as it is read alone. -/
structure ReadsOn (readNumber : List Char → String) (fuel : Nat) : Prop where
  value : ∀ {text v rest}, readValue readNumber fuel text = some (v, rest) →
    ∀ {fuel' more}, fuel ≤ fuel' → Parts v rest more →
      readValue readNumber fuel' (text ++ more) = some (v, rest ++ more)
  items : ∀ {text items rest}, readItems readNumber fuel text = some (items, rest) →
    ∀ {fuel' more}, fuel ≤ fuel' →
      readItems readNumber fuel' (text ++ more) = some (items, rest ++ more)
  fields : ∀ {text fields rest}, readFields readNumber fuel text = some (fields, rest) →
    ∀ {fuel' more}, fuel ≤ fuel' →
      readFields readNumber fuel' (text ++ more) = some (fields, rest ++ more)

theorem Begins.append (hon : ReadsOn readNumber fuel) (h : Begins readNumber fuel text v rest)
    {fuel' : Nat} {more : List Char} (hfuel : fuel ≤ fuel') (hparts : Parts v rest more) :
    Begins readNumber fuel' (text ++ more) v (rest ++ more) := by
  cases h with
  | str h => exact .str (readString_append h more)
  | emptyArr h => exact .emptyArr (skipSpace_append h more)
  | arr hopen h =>
      obtain ⟨c, others, hskip⟩ := readItems_lead h
      refine .arr ?_ (hon.items h hfuel)
      intro after heq
      have hhead := (skipSpace_append hskip more).symm.trans heq
      rw [(List.cons.inj hhead).1] at hskip
      exact hopen others hskip
  | emptyObj h => exact .emptyObj (skipSpace_append h more)
  | obj hopen h =>
      obtain ⟨others, hskip⟩ := readFields_lead h
      refine .obj ?_ (hon.fields h hfuel)
      intro after heq
      have hhead := (skipSpace_append hskip more).symm.trans heq
      cases (List.cons.inj hhead).1
  | null => exact .null
  | yes => exact .yes
  | no => exact .no
  | num h =>
      have hnum : ∃ number, v = .num number := by
        unfold readLiteral at h
        split at h
        · exact ⟨_, (Prod.mk.inj (Option.some.inj h)).1.symm⟩
        · cases h
      obtain ⟨number, rfl⟩ := hnum
      refine .num (readLiteral_append h ?_)
      exact hparts.resolve_left fun hne => hne number rfl

theorem readsOn : ∀ fuel, ReadsOn readNumber fuel := by
  intro fuel
  induction fuel with
  | zero =>
      refine ⟨?_, ?_, ?_⟩
      · intro text v rest h
        cases h
      · intro text items rest h
        cases h
      · intro text fields rest h
        cases h
  | succ fuel ih =>
      refine ⟨?_, ?_, ?_⟩
      · intro text v rest h fuel' more hfuel hparts
        obtain ⟨n, rfl⟩ : ∃ n, fuel' = n + 1 := ⟨fuel' - 1, by omega⟩
        have hbegins := (readValue_iff.mp h).append ih (Nat.le_of_succ_le_succ hfuel) hparts
        obtain ⟨c, others, hskip⟩ := readValue_lead h
        rw [hskip] at hbegins
        refine readValue_iff.mpr ?_
        rw [skipSpace_append hskip]
        exact hbegins
      · intro text items rest h fuel' more hfuel
        obtain ⟨n, rfl⟩ : ∃ n, fuel' = n + 1 := ⟨fuel' - 1, by omega⟩
        have hle := Nat.le_of_succ_le_succ hfuel
        refine readItems_iff.mpr ?_
        cases readItems_iff.mp h with
        | more hitem hcomma hothers =>
            exact .more (ih.value hitem hle (Or.inr (Or.inl (ne_nil_of_skipSpace hcomma))))
              (skipSpace_append hcomma more) (ih.items hothers hle)
        | last hitem hclose =>
            exact .last (ih.value hitem hle (Or.inr (Or.inl (ne_nil_of_skipSpace hclose))))
              (skipSpace_append hclose more)
      · intro text fields rest h fuel' more hfuel
        obtain ⟨n, rfl⟩ : ∃ n, fuel' = n + 1 := ⟨fuel' - 1, by omega⟩
        have hle := Nat.le_of_succ_le_succ hfuel
        refine readFields_iff.mpr ?_
        cases readFields_iff.mp h with
        | more hkey hvalue hcomma hothers =>
            exact .more (readKey_append hkey more)
              (ih.value hvalue hle (Or.inr (Or.inl (ne_nil_of_skipSpace hcomma))))
              (skipSpace_append hcomma more) (ih.fields hothers hle)
        | last hkey hvalue hclose =>
            exact .last (readKey_append hkey more)
              (ih.value hvalue hle (Or.inr (Or.inl (ne_nil_of_skipSpace hclose))))
              (skipSpace_append hclose more)

/-- **A value is read as far as it was read alone**, whatever follows it. -/
theorem readValue_append (h : readValue readNumber fuel text = some (v, rest)) {fuel' : Nat}
    {more : List Char} (hfuel : fuel ≤ fuel') (hparts : Parts v rest more) :
    readValue readNumber fuel' (text ++ more) = some (v, rest ++ more) :=
  (readsOn fuel).value h hfuel hparts

end OpenLagrange
