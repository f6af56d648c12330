/-
The JSON value in an answer is found.

The scan knows nothing of JSON but brackets, quotes and backslashes.  What it needs to know is
`Passes`: the text of a value, as `JSON.parse` reads it, brings the depth back to where it was, so
the scan of an object or array ends at its own bracket and nowhere else.  That is an induction on
what is read, string by string and value by value.

Before the value there may be anything without an opening bracket that is counted and indexed
alike.  After a character of two code units the scan starts too early, and then no object is found
at all.
-/
import OpenLagrange.Models.ModelText
import OpenLagrange.Util.JsonReading

namespace OpenLagrange.ModelText

variable {readNumber : List Char → String}

/-! ### What the scan passes over -/

/-- The brackets of objects and of arrays. -/
inductive Bracket where
  | curly | square

def Bracket.opener : Bracket → Char
  | .curly => '\x7b'
  | .square => '['

def Bracket.closer : Bracket → Char
  | .curly => '\x7d'
  | .square => ']'

def scanFor (b : Bracket) : Scan → List Nat → Option (List Nat) :=
  scan b.opener.toNat b.closer.toNat

/-- The scan comes to the end of the text as it came to its start. -/
def Passes (inString : Bool) (text : List Char) : Prop :=
  ∀ (b : Bracket) (depth : Int), 1 ≤ depth → ∀ units,
    scanFor b ⟨depth, inString, false⟩ (text.flatMap charUnits ++ units) =
      (scanFor b ⟨depth, inString, false⟩ units).map (text.flatMap charUnits ++ ·)

theorem passes_nil {inString : Bool} : Passes inString [] := by
  intro b depth _ units
  simp only [List.flatMap_nil, List.nil_append, Option.map_id']

theorem Passes.append {inString : Bool} {front back : List Char} (hfront : Passes inString front)
    (hback : Passes inString back) : Passes inString (front ++ back) := by
  intro b depth hdepth units
  rw [List.flatMap_append, List.append_assoc, hfront b depth hdepth, hback b depth hdepth,
    Option.map_map]
  congr 1
  funext found
  exact (List.append_assoc _ _ _).symm

/-- A unit that is passed over leaves the scan as it is. -/
theorem passes_cons {inString : Bool} {c : Char} {text : List Char}
    (hc : Passes inString [c]) (htext : Passes inString text) : Passes inString (c :: text) :=
  hc.append htext

theorem charUnits_ne {c : Char} {n : Nat} (hn : n < 0xD800) (hne : c.toNat ≠ n) :
    ∀ unit ∈ charUnits c, unit ≠ n := by
  intro unit hunit
  unfold charUnits at hunit
  split at hunit
  · rw [List.mem_singleton.mp hunit]
    exact hne
  · rcases List.mem_cons.mp hunit with rfl | hunit
    · omega
    · rw [List.mem_singleton.mp hunit]
      omega

theorem scan_inString {opener closer unit : Nat} {depth : Int} {rest : List Nat}
    (hslash : unit ≠ 92) (hquote : unit ≠ 34) :
    scan opener closer ⟨depth, true, false⟩ (unit :: rest) =
      (scan opener closer ⟨depth, true, false⟩ rest).map (unit :: ·) := by
  rw [scan, if_neg Bool.false_ne_true, if_neg hslash, if_neg hquote, if_pos rfl]

theorem scan_outside {opener closer unit : Nat} {depth : Int} {rest : List Nat}
    (hslash : unit ≠ 92) (hquote : unit ≠ 34) (hopener : unit ≠ opener) (hcloser : unit ≠ closer)
    (hdepth : 1 ≤ depth) : scan opener closer ⟨depth, false, false⟩ (unit :: rest) =
      (scan opener closer ⟨depth, false, false⟩ rest).map (unit :: ·) := by
  rw [scan, if_neg Bool.false_ne_true, if_neg hslash, if_neg hquote, if_neg Bool.false_ne_true]
  simp only [if_neg hopener, if_neg hcloser]
  rw [if_neg (by omega)]

/-- Units in a string, none of them a quote or a backslash. -/
theorem scan_units {opener closer : Nat} {depth : Int} {front rest : List Nat}
    (hslash : ∀ unit ∈ front, unit ≠ 92) (hquote : ∀ unit ∈ front, unit ≠ 34) :
    scan opener closer ⟨depth, true, false⟩ (front ++ rest) =
      (scan opener closer ⟨depth, true, false⟩ rest).map (front ++ ·) := by
  induction front with
  | nil => simp only [List.nil_append, Option.map_id']
  | cons unit front ih =>
      rw [List.cons_append, scan_inString (hslash unit List.mem_cons_self)
        (hquote unit List.mem_cons_self),
        ih (fun u hu => hslash u (List.mem_cons_of_mem _ hu))
          (fun u hu => hquote u (List.mem_cons_of_mem _ hu)), Option.map_map]
      rfl

theorem char_toNat_ne {c d : Char} (h : c ≠ d) : c.toNat ≠ d.toNat :=
  fun heq => h (Char.toNat_inj.mp heq)

/-- A character of a string that is neither a quote nor a backslash. -/
theorem passes_inside {c : Char} (hslash : c ≠ '\\') (hquote : c ≠ '"') : Passes true [c] := by
  intro b depth _ units
  rw [List.flatMap_singleton]
  exact scan_units (charUnits_ne (by decide) (char_toNat_ne hslash))
    (charUnits_ne (by decide) (char_toNat_ne hquote))

/-- A character that means nothing to the scan. -/
def idle (c : Char) : Bool :=
  c.toNat < 0x10000 && c ≠ '\\' && c ≠ '"' && c ≠ '\x7b' && c ≠ '\x7d' && c ≠ '[' && c ≠ ']'

theorem passes_idle {text : List Char} (h : ∀ c ∈ text, idle c = true) : Passes false text := by
  induction text with
  | nil => exact passes_nil
  | cons c text ih =>
      refine passes_cons ?_ (ih fun d hd => h d (List.mem_cons_of_mem _ hd))
      have hc := h c List.mem_cons_self
      simp only [idle, Bool.and_eq_true, decide_eq_true_eq] at hc
      obtain ⟨⟨⟨⟨⟨⟨hsmall, hslash⟩, hquote⟩, hcurly⟩, hcurly'⟩, hsquare⟩, hsquare'⟩ := hc
      intro b depth hdepth units
      rw [List.flatMap_singleton, charUnits_small hsmall]
      cases b with
      | curly =>
          exact scan_outside (char_toNat_ne hslash) (char_toNat_ne hquote) (char_toNat_ne hcurly)
            (char_toNat_ne hcurly') hdepth
      | square =>
          exact scan_outside (char_toNat_ne hslash) (char_toNat_ne hquote) (char_toNat_ne hsquare)
            (char_toNat_ne hsquare') hdepth

/-! ### Strings -/

/-- An escape of two characters. -/
theorem passes_escape {c : Char} (hc : c.toNat < 0x10000) : Passes true ['\\', c] := by
  intro b depth _ units
  have hunits : ['\\', c].flatMap charUnits = [92, c.toNat] := by
    rw [List.flatMap_cons, List.flatMap_singleton, charUnits_small hc, charUnits_small (by decide)]
    rfl
  rw [hunits]
  simp only [List.cons_append, List.nil_append, scanFor]
  rw [scan, if_neg Bool.false_ne_true, if_pos rfl, scan, if_pos rfl, Option.map_map]
  rfl

theorem hexValue?_ascii {c : Char} {n : Nat} (h : hexValue? c = some n) :
    c.toNat < 0x10000 ∧ c ≠ '\\' ∧ c ≠ '"' := by
  have hbounds : ∀ d : Char, d ≤ 'f' → d.toNat < 0x10000 := by
    intro d hd
    have hle : d.toNat ≤ ('f' : Char).toNat := hd
    have hf : ('f' : Char).toNat = 102 := rfl
    omega
  refine ⟨?_, ?_, ?_⟩
  · unfold hexValue? at h
    split at h
    · rename_i hdigit
      exact hbounds c (hdigit.2.trans (by decide))
    · split at h
      · rename_i hlower
        exact hbounds c hlower.2
      · split at h
        · rename_i hupper
          exact hbounds c (hupper.2.trans (by decide))
        · cases h
  · rintro rfl
    cases h
  · rintro rfl
    cases h

theorem hexUnit?_ascii {a b c d : Char} {unit : Nat} (h : hexUnit? a b c d = some unit) :
    (∃ n, hexValue? a = some n) ∧ (∃ n, hexValue? b = some n) ∧ (∃ n, hexValue? c = some n) ∧
      ∃ n, hexValue? d = some n := by
  unfold hexUnit? at h
  simp only [Option.bind_eq_bind, Option.bind_eq_some_iff] at h
  obtain ⟨w, hw, x, hx, y, hy, z, hz, -⟩ := h
  exact ⟨⟨w, hw⟩, ⟨x, hx⟩, ⟨y, hy⟩, ⟨z, hz⟩⟩

theorem escapedUnit?_ascii {c : Char} {unit : Nat} (h : escapedUnit? c = some unit) :
    c.toNat < 0x10000 := by
  unfold escapedUnit? at h
  split at h <;> first | decide | cases h

/-- **A string is passed over up to its closing quote.** -/
theorem passes_readUnits {text rest : List Char} {units : List Nat}
    (h : readUnits text = some (units, rest)) :
    ∃ body, text = body ++ '"' :: rest ∧ Passes true body := by
  induction text using readUnits.induct generalizing units with
  | case1 => cases h
  | case2 inside =>
      rw [readUnits] at h
      obtain ⟨rfl, rfl⟩ := Prod.mk.inj (Option.some.inj h)
      exact ⟨[], rfl, passes_nil⟩
  | case3 a b c d inside ih =>
      rw [readUnits] at h
      obtain ⟨unit, hunit, h⟩ := Option.bind_eq_some_iff.mp h
      obtain ⟨found, hfound, hpair⟩ := Option.map_eq_some_iff.mp h
      obtain ⟨rfl, rfl⟩ := Prod.mk.inj hpair
      obtain ⟨body, rfl, hbody⟩ := ih hfound
      obtain ⟨⟨_, ha⟩, ⟨_, hb⟩, ⟨_, hc⟩, ⟨_, hd⟩⟩ := hexUnit?_ascii hunit
      refine ⟨'\\' :: 'u' :: a :: b :: c :: d :: body, rfl, ?_⟩
      have hdigits : Passes true (a :: b :: c :: d :: body) :=
        passes_cons (passes_inside (hexValue?_ascii ha).2.1 (hexValue?_ascii ha).2.2)
          (passes_cons (passes_inside (hexValue?_ascii hb).2.1 (hexValue?_ascii hb).2.2)
            (passes_cons (passes_inside (hexValue?_ascii hc).2.1 (hexValue?_ascii hc).2.2)
              (passes_cons (passes_inside (hexValue?_ascii hd).2.1 (hexValue?_ascii hd).2.2)
                hbody)))
      exact (passes_escape (c := 'u') (by decide)).append hdigits
  | case4 c inside hnot ih =>
      rw [readUnits] at h
      · obtain ⟨unit, hunit, h⟩ := Option.bind_eq_some_iff.mp h
        obtain ⟨found, hfound, hpair⟩ := Option.map_eq_some_iff.mp h
        obtain ⟨rfl, rfl⟩ := Prod.mk.inj hpair
        obtain ⟨body, rfl, hbody⟩ := ih hfound
        exact ⟨'\\' :: c :: body, rfl, (passes_escape (escapedUnit?_ascii hunit)).append hbody⟩
      · exact hnot
  | case5 c inside hquote hslash hescape hbad =>
      rw [readUnits, if_pos hbad] at h
      · cases h
      · exact hquote
      · exact hslash
      · exact hescape
  | case6 c inside hquote hslash hescape hgood ih =>
      rw [readUnits, if_neg hgood] at h
      · obtain ⟨found, hfound, hpair⟩ := Option.map_eq_some_iff.mp h
        obtain ⟨rfl, rfl⟩ := Prod.mk.inj hpair
        obtain ⟨body, rfl, hbody⟩ := ih hfound
        refine ⟨c :: body, rfl, passes_cons (passes_inside ?_ hquote) hbody⟩
        exact fun heq => hgood (Or.inl heq)
      · exact hquote
      · exact hslash
      · exact hescape

theorem scan_quote {opener closer : Nat} {depth : Int} {inString : Bool} {rest : List Nat} :
    scan opener closer ⟨depth, inString, false⟩ (34 :: rest) =
      (scan opener closer ⟨depth, !inString, false⟩ rest).map (34 :: ·) := by
  rw [scan, if_neg Bool.false_ne_true, if_neg (by decide), if_pos rfl]

theorem passes_string {body : List Char} (h : Passes true body) :
    Passes false ('"' :: (body ++ ['"'])) := by
  intro b depth hdepth units
  have hquote : charUnits '"' = [34] := rfl
  rw [List.flatMap_cons, List.flatMap_append, List.flatMap_singleton, hquote]
  simp only [List.cons_append, List.nil_append, List.append_assoc, scanFor]
  have hbody := h b depth hdepth (34 :: units)
  unfold scanFor at hbody
  rw [scan_quote, Bool.not_false, hbody, scan_quote, Bool.not_true, Option.map_map, Option.map_map]
  rfl

/-! ### Brackets -/

/-- A unit outside strings that is neither a quote nor a backslash. -/
theorem scan_plain {opener closer unit : Nat} {depth : Int} {rest : List Nat} (hslash : unit ≠ 92)
    (hquote : unit ≠ 34) : scan opener closer ⟨depth, false, false⟩ (unit :: rest) =
      let opened := if unit = opener then depth + 1 else depth
      let closed := if unit = closer then opened - 1 else opened
      if closed = 0 then some [unit]
      else (scan opener closer ⟨closed, false, false⟩ rest).map (unit :: ·) := by
  rw [scan, if_neg Bool.false_ne_true, if_neg hslash, if_neg hquote, if_neg Bool.false_ne_true]

theorem Bracket.opener_ne (b : Bracket) :
    b.opener.toNat ≠ 92 ∧ b.opener.toNat ≠ 34 ∧ b.opener.toNat ≠ b.closer.toNat := by
  cases b <;> decide

theorem Bracket.closer_ne (b : Bracket) :
    b.closer.toNat ≠ 92 ∧ b.closer.toNat ≠ 34 ∧ b.closer.toNat ≠ b.opener.toNat := by
  cases b <;> decide

theorem Bracket.units (b : Bracket) :
    charUnits b.opener = [b.opener.toNat] ∧ charUnits b.closer = [b.closer.toNat] := by
  cases b <;> decide

theorem scan_opener {b : Bracket} {depth : Int} {rest : List Nat} (hdepth : 0 ≤ depth) :
    scanFor b ⟨depth, false, false⟩ (b.opener.toNat :: rest) =
      (scanFor b ⟨depth + 1, false, false⟩ rest).map (b.opener.toNat :: ·) := by
  unfold scanFor
  rw [scan_plain b.opener_ne.1 b.opener_ne.2.1]
  simp only [if_pos, if_neg b.opener_ne.2.2]
  rw [if_neg (by omega)]

theorem scan_closer {b : Bracket} {depth : Int} {rest : List Nat} :
    scanFor b ⟨depth, false, false⟩ (b.closer.toNat :: rest) =
      if depth - 1 = 0 then some [b.closer.toNat]
      else (scanFor b ⟨depth - 1, false, false⟩ rest).map (b.closer.toNat :: ·) := by
  unfold scanFor
  rw [scan_plain b.closer_ne.1 b.closer_ne.2.1]
  simp only [if_pos, if_neg b.closer_ne.2.2]

/-- Brackets of the other kind are not counted. -/
theorem scan_other {b k : Bracket} (hne : b ≠ k) {depth : Int} (hdepth : 1 ≤ depth)
    {rest : List Nat} :
    scanFor b ⟨depth, false, false⟩ (k.opener.toNat :: rest) =
        (scanFor b ⟨depth, false, false⟩ rest).map (k.opener.toNat :: ·) ∧
      scanFor b ⟨depth, false, false⟩ (k.closer.toNat :: rest) =
        (scanFor b ⟨depth, false, false⟩ rest).map (k.closer.toNat :: ·) := by
  have hmarks : k.opener.toNat ≠ b.opener.toNat ∧ k.opener.toNat ≠ b.closer.toNat ∧
      k.closer.toNat ≠ b.opener.toNat ∧ k.closer.toNat ≠ b.closer.toNat := by
    cases b <;> cases k <;> first | exact absurd rfl hne | decide
  obtain ⟨hoo, hoc, hco, hcc⟩ := hmarks
  exact ⟨scan_outside k.opener_ne.1 k.opener_ne.2.1 hoo hoc hdepth,
    scan_outside k.closer_ne.1 k.closer_ne.2.1 hco hcc hdepth⟩

/-- **What is in brackets is passed over with them.** -/
theorem passes_bracketed (k : Bracket) {inner : List Char} (h : Passes false inner) :
    Passes false (k.opener :: (inner ++ [k.closer])) := by
  intro b depth hdepth units
  rw [List.flatMap_cons, List.flatMap_append, List.flatMap_singleton, k.units.1, k.units.2]
  simp only [List.cons_append, List.nil_append, List.append_assoc]
  by_cases hsame : b = k
  · subst hsame
    rw [scan_opener (by omega), h b (depth + 1) (by omega), scan_closer, if_neg (by omega),
      Int.add_sub_cancel, Option.map_map, Option.map_map]
    rfl
  · rw [(scan_other hsame hdepth).1, h b depth hdepth, (scan_other hsame hdepth).2,
      Option.map_map, Option.map_map]
    rfl

/-- **The scan of a bracket ends at the one that closes it.** -/
theorem scan_bracketed (b : Bracket) {inner : List Char} (h : Passes false inner)
    (units : List Nat) : scanFor b ⟨0, false, false⟩
        ((b.opener :: (inner ++ [b.closer])).flatMap charUnits ++ units) =
      some ((b.opener :: (inner ++ [b.closer])).flatMap charUnits) := by
  rw [List.flatMap_cons, List.flatMap_append, List.flatMap_singleton, b.units.1, b.units.2]
  simp only [List.cons_append, List.nil_append, List.append_assoc]
  rw [scan_opener (by omega), h b (0 + 1) (by omega), scan_closer, if_pos (by omega)]
  rfl

/-! ### Values -/

theorem skipSpace_splits (text : List Char) :
    ∃ spaces, text = spaces ++ skipSpace text ∧ ∀ c ∈ spaces, jsonSpace c = true :=
  ⟨text.takeWhile jsonSpace, (List.takeWhile_append_dropWhile).symm,
    fun _ hc => List.mem_takeWhile_imp hc⟩

theorem idle_space {c : Char} (h : jsonSpace c = true) : idle c = true := by
  unfold jsonSpace at h
  simp only [Bool.or_eq_true, decide_eq_true_eq] at h
  rcases h with ((rfl | rfl) | rfl) | rfl <;> decide

theorem idle_literal {c : Char} (h : literalChar c = true) : idle c = true := by
  unfold literalChar numberChar at h
  simp only [Bool.or_eq_true, decide_eq_true_eq, Char.isDigit_iff_toNat] at h
  rcases h with ((((h | rfl) | rfl) | rfl) | rfl) | rfl
  · have hne : ∀ d : Char, ¬ (48 ≤ d.toNat ∧ d.toNat ≤ 57) → c ≠ d := by
      rintro d hd rfl
      exact hd h
    unfold idle
    have hnine : ('9' : Char).toNat = 57 := rfl
    have hsmall : c.toNat < 0x10000 := by omega
    simp only [Bool.and_eq_true, decide_eq_true_eq]
    exact ⟨⟨⟨⟨⟨⟨hsmall, hne _ (by decide)⟩, hne _ (by decide)⟩, hne _ (by decide)⟩,
      hne _ (by decide)⟩, hne _ (by decide)⟩, hne _ (by decide)⟩
  all_goals decide

/-- What is read is passed over. -/
def Covers (text rest : List Char) : Prop := ∃ read, text = read ++ rest ∧ Passes false read

theorem Covers.spaces {text rest : List Char} (h : Covers (skipSpace text) rest) :
    Covers text rest := by
  obtain ⟨read, hread, hpasses⟩ := h
  obtain ⟨spaces, htext, hspaces⟩ := skipSpace_splits text
  refine ⟨spaces ++ read, ?_, (passes_idle fun c hc => idle_space (hspaces c hc)).append hpasses⟩
  rw [htext, hread, List.append_assoc]

theorem Covers.trans {text inside rest : List Char} (h : Covers text inside)
    (hinside : Covers inside rest) : Covers text rest := by
  obtain ⟨front, rfl, hfront⟩ := h
  obtain ⟨back, rfl, hback⟩ := hinside
  exact ⟨front ++ back, (List.append_assoc _ _ _).symm, hfront.append hback⟩

theorem covers_idle (read : List Char) {rest : List Char} (h : ∀ c ∈ read, idle c = true) :
    Covers (read ++ rest) rest := ⟨read, rfl, passes_idle h⟩

/-- A mark between values, with the space before it. -/
theorem covers_mark {c : Char} {text inside : List Char} (hc : idle c = true)
    (h : skipSpace text = c :: inside) : Covers text inside := by
  refine Covers.spaces ?_
  rw [h]
  exact covers_idle [c] fun d hd => List.mem_singleton.mp hd ▸ hc

theorem covers_string {text rest : List Char} {s : String} (h : readString text = some (s, rest)) :
    Covers ('"' :: text) rest := by
  unfold readString at h
  simp only [Option.bind_eq_bind, Option.bind_eq_some_iff] at h
  obtain ⟨⟨units, after⟩, hfound, chars, hchars, hpair⟩ := h
  obtain ⟨rfl, rfl⟩ := Prod.mk.inj (Option.some.inj hpair)
  obtain ⟨body, rfl, hbody⟩ := passes_readUnits hfound
  refine ⟨'"' :: (body ++ ['"']), ?_, passes_string hbody⟩
  simp only [List.cons_append, List.append_assoc, List.nil_append]

theorem covers_key {text rest : List Char} {key : String} (h : readKey text = some (key, rest)) :
    Covers text rest := by
  unfold readKey at h
  split at h
  · rename_i inside hquote
    obtain ⟨⟨found, after⟩, hfound, h⟩ := Option.bind_eq_some_iff.mp h
    split at h
    · rename_i behind hcolon
      obtain ⟨rfl, rfl⟩ := Prod.mk.inj (Option.some.inj h)
      refine Covers.spaces ?_
      rw [hquote]
      exact (covers_string hfound).trans (covers_mark (by decide) hcolon)
    · cases h
  · cases h

theorem covers_literal {text rest : List Char} {v : Value}
    (h : readLiteral readNumber text = some (v, rest)) : Covers text rest := by
  unfold readLiteral at h
  split at h
  · obtain ⟨rfl, rfl⟩ := Prod.mk.inj (Option.some.inj h)
    refine ⟨text.takeWhile literalChar, (List.takeWhile_append_dropWhile).symm, ?_⟩
    exact passes_idle fun c hc => idle_literal (List.mem_takeWhile_imp hc)
  · cases h

/-- What is between a bracket and the one that closes it. -/
def Encloses (k : Bracket) (text rest : List Char) : Prop :=
  ∃ inner, text = inner ++ k.closer :: rest ∧ Passes false inner

theorem Encloses.covers {k : Bracket} {text rest : List Char} (h : Encloses k text rest) :
    Covers (k.opener :: text) rest := by
  obtain ⟨inner, rfl, hinner⟩ := h
  refine ⟨k.opener :: (inner ++ [k.closer]), ?_, passes_bracketed k hinner⟩
  simp only [List.cons_append, List.append_assoc, List.nil_append]

theorem Covers.encloses {k : Bracket} {text inside rest : List Char} (h : Covers text inside)
    (hinside : Encloses k inside rest) : Encloses k text rest := by
  obtain ⟨front, rfl, hfront⟩ := h
  obtain ⟨inner, rfl, hinner⟩ := hinside
  exact ⟨front ++ inner, (List.append_assoc _ _ _).symm, hfront.append hinner⟩

/-- A closing bracket, with the space before it. -/
theorem encloses_close {k : Bracket} {text rest : List Char}
    (h : skipSpace text = k.closer :: rest) : Encloses k text rest := by
  obtain ⟨spaces, htext, hspaces⟩ := skipSpace_splits text
  rw [h] at htext
  exact ⟨spaces, htext, passes_idle fun c hc => idle_space (hspaces c hc)⟩

structure Covered (readNumber : List Char → String) (fuel : Nat) : Prop where
  value : ∀ {text v rest}, readValue readNumber fuel text = some (v, rest) → Covers text rest
  items : ∀ {text items rest}, readItems readNumber fuel text = some (items, rest) →
    Encloses .square text rest
  fields : ∀ {text fields rest}, readFields readNumber fuel text = some (fields, rest) →
    Encloses .curly text rest

theorem Covered.begins {fuel : Nat} (h : Covered readNumber fuel) {text rest : List Char}
    {v : Value} (hbegins : Begins readNumber fuel text v rest) : Covers text rest := by
  cases hbegins with
  | str hread => exact covers_string hread
  | emptyArr hclose => exact (encloses_close (k := .square) hclose).covers
  | arr _ hread => exact (h.items hread).covers
  | emptyObj hclose => exact (encloses_close (k := .curly) hclose).covers
  | obj _ hread => exact (h.fields hread).covers
  | null => exact covers_idle ['n', 'u', 'l', 'l'] (List.all_eq_true.mp (by decide))
  | yes => exact covers_idle ['t', 'r', 'u', 'e'] (List.all_eq_true.mp (by decide))
  | no => exact covers_idle ['f', 'a', 'l', 's', 'e'] (List.all_eq_true.mp (by decide))
  | num hread => exact covers_literal hread

/-- **Whatever is read as a value is passed over.** -/
theorem covered : ∀ fuel, Covered readNumber fuel := by
  intro fuel
  induction fuel with
  | zero =>
      refine ⟨?_, ?_, ?_⟩
      · intro text v rest h
        cases h
      · intro text items rest h
        cases h
      · intro text fields rest h
        cases h
  | succ fuel ih =>
      refine ⟨?_, ?_, ?_⟩
      · intro text v rest h
        exact (ih.begins (readValue_iff.mp h)).spaces
      · intro text items rest h
        cases readItems_iff.mp h with
        | more hitem hcomma hothers =>
            exact ((ih.value hitem).trans (covers_mark (by decide) hcomma)).encloses
              (ih.items hothers)
        | last hitem hclose => exact (ih.value hitem).encloses (encloses_close hclose)
      · intro text fields rest h
        cases readFields_iff.mp h with
        | more hkey hvalue hcomma hothers =>
            exact (((covers_key hkey).trans (ih.value hvalue)).trans
              (covers_mark (by decide) hcomma)).encloses (ih.fields hothers)
        | last hkey hvalue hclose =>
            exact ((covers_key hkey).trans (ih.value hvalue)).encloses (encloses_close hclose)

/-! ### Texts of objects and arrays -/

/-- An object or array as it is written, in whatever way, without space around it. -/
structure Written (readNumber : List Char → String) (text : List Char) (v : Value) : Prop where
  read : parseJson readNumber text = some v
  container : (∃ items, v = .arr items) ∨ ∃ fields, v = .obj fields
  front : skipSpace text = text
  back : skipSpace text.reverse = text.reverse

theorem parseJson_some {text : List Char} {v : Value} (h : parseJson readNumber text = some v) :
    ∃ rest, readValue readNumber (2 * text.length + 2) text = some (v, rest) ∧
      skipSpace rest = [] := by
  unfold parseJson at h
  obtain ⟨⟨found, rest⟩, hread, h⟩ := Option.bind_eq_some_iff.mp h
  split at h
  · rename_i hrest
    rw [← Option.some.inj h]
    exact ⟨rest, hread, hrest⟩
  · cases h

theorem spaces_of_skipSpace {text : List Char} (h : skipSpace text = []) :
    ∀ c ∈ text, jsonSpace c = true :=
  List.dropWhile_eq_nil_iff.mp h

/-- An array or object is read from its bracket to the one that closes it. -/
theorem begins_bracketed {fuel : Nat} {text rest : List Char} {v : Value}
    (h : Begins readNumber fuel text v rest)
    (hv : (∃ items, v = .arr items) ∨ ∃ fields, v = .obj fields) :
    ∃ (b : Bracket) (inner : List Char), text = b.opener :: (inner ++ b.closer :: rest) ∧
      Passes false inner ∧ ((∃ fields, v = .obj fields) → b = .curly) := by
  have harr : ∀ items, ¬ ∃ fields, Value.arr items = .obj fields := by
    rintro items ⟨fields, h⟩
    cases h
  cases h with
  | str _ | null | yes | no => rcases hv with ⟨_, h⟩ | ⟨_, h⟩ <;> cases h
  | emptyArr hclose =>
      obtain ⟨inner, rfl, hinner⟩ := encloses_close (k := .square) hclose
      exact ⟨.square, inner, rfl, hinner, fun h => absurd h (harr _)⟩
  | arr _ hread =>
      obtain ⟨inner, rfl, hinner⟩ := (covered fuel).items hread
      exact ⟨.square, inner, rfl, hinner, fun h => absurd h (harr _)⟩
  | emptyObj hclose =>
      obtain ⟨inner, rfl, hinner⟩ := encloses_close (k := .curly) hclose
      exact ⟨.curly, inner, rfl, hinner, fun _ => rfl⟩
  | obj _ hread =>
      obtain ⟨inner, rfl, hinner⟩ := (covered fuel).fields hread
      exact ⟨.curly, inner, rfl, hinner, fun _ => rfl⟩
  | num hread =>
      unfold readLiteral at hread
      split at hread
      · rw [← (Prod.mk.inj (Option.some.inj hread)).1] at hv
        rcases hv with ⟨_, h⟩ | ⟨_, h⟩ <;> cases h
      · cases hread

variable {text : List Char} {v : Value}

/-- All of a text that has no space at its end is read. -/
theorem Written.readValue (h : Written readNumber text v) :
    readValue readNumber (2 * text.length + 2) text = some (v, []) := by
  obtain ⟨rest, hread, hrest⟩ := parseJson_some h.read
  have hspaces := spaces_of_skipSpace hrest
  obtain ⟨read, htext, -⟩ := (covered _).value hread
  cases hlast : rest.reverse with
  | nil =>
      rw [List.reverse_eq_nil_iff.mp hlast] at hread
      exact hread
  | cons c others =>
      have hmem : c ∈ rest := List.mem_reverse.mp (hlast ▸ List.mem_cons_self)
      have hback := h.back
      rw [htext, List.reverse_append, hlast, List.cons_append, skipSpace,
        List.dropWhile_cons_of_pos (hspaces c hmem)] at hback
      have hlength := congrArg List.length hback
      have hle := (List.dropWhile_sublist jsonSpace (l := others ++ read.reverse)).length_le
      rw [List.length_cons] at hlength
      omega

theorem Written.bracketed (h : Written readNumber text v) :
    ∃ (b : Bracket) (inner : List Char), text = b.opener :: (inner ++ [b.closer]) ∧
      Passes false inner := by
  have hbegins := readValue_iff.mp h.readValue
  rw [h.front] at hbegins
  obtain ⟨b, inner, htext, hinner, -⟩ := begins_bracketed hbegins h.container
  exact ⟨b, inner, htext, hinner⟩

/-- What follows an object or array is not read with it. -/
theorem Written.parse_append (h : Written readNumber text v) (behind : List Char) :
    parseJson readNumber (text ++ behind) = if skipSpace behind = [] then some v else none := by
  have hnum : ∀ number, v ≠ .num number := by
    rintro number rfl
    rcases h.container with ⟨_, h⟩ | ⟨_, h⟩ <;> cases h
  have hfuel : 2 * text.length + 2 ≤ 2 * (text ++ behind).length + 2 := by
    rw [List.length_append]
    omega
  have hparts : Parts v [] behind := Or.inl hnum
  have hread := readValue_append h.readValue hfuel hparts
  unfold parseJson
  rw [hread, Option.bind_some, List.nil_append]

/-- **What begins otherwise and holds an opening bracket is a string, if it is JSON at all.** -/
theorem parseJson_str {c : Char} {others : List Char} (hspace : jsonSpace c = false)
    (hc : opensValue c = false) {d : Char} (hd : opensValue d = true) (hmem : d ∈ c :: others)
    (h : parseJson readNumber (c :: others) = some v) : ∃ s, v = .str s := by
  obtain ⟨rest, hread, hrest⟩ := parseJson_some h
  have hspaces := spaces_of_skipSpace hrest
  -- the bracket is in what was read, since only spaces are left
  have hfound : ∀ read : List Char, c :: others = read ++ rest → d ∈ read := by
    intro read htext
    rw [htext] at hmem
    refine (List.mem_append.mp hmem).resolve_right fun hin => ?_
    have hblank := hspaces d hin
    unfold jsonSpace at hblank
    simp only [Bool.or_eq_true, decide_eq_true_eq] at hblank
    rcases hblank with ((rfl | rfl) | rfl) | rfl <;> cases hd
  have hbegins := readValue_iff.mp hread
  rw [skipSpace_cons hspace] at hbegins
  generalize hwhole : c :: others = whole at hbegins hfound
  cases hbegins with
  | str _ => exact ⟨_, rfl⟩
  | emptyArr _ | arr _ _ | emptyObj _ | obj _ _ =>
      rw [(List.cons.inj hwhole).1] at hc
      cases hc
  | null =>
      have hin := hfound ['n', 'u', 'l', 'l'] rfl
      simp only [List.mem_cons, List.not_mem_nil, or_false] at hin
      rcases hin with rfl | rfl | rfl | rfl <;> cases hd
  | yes =>
      have hin := hfound ['t', 'r', 'u', 'e'] rfl
      simp only [List.mem_cons, List.not_mem_nil, or_false] at hin
      rcases hin with rfl | rfl | rfl | rfl <;> cases hd
  | no =>
      have hin := hfound ['f', 'a', 'l', 's', 'e'] rfl
      simp only [List.mem_cons, List.not_mem_nil, or_false] at hin
      rcases hin with rfl | rfl | rfl | rfl | rfl <;> cases hd
  | num hliteral =>
      unfold readLiteral at hliteral
      split at hliteral
      · obtain ⟨-, rfl⟩ := Prod.mk.inj (Option.some.inj hliteral)
        have hin := hfound (whole.takeWhile literalChar) (List.takeWhile_append_dropWhile).symm
        have hidle := idle_literal (List.mem_takeWhile_imp hin)
        unfold opensValue at hd
        simp only [Bool.or_eq_true, decide_eq_true_eq] at hd
        rcases hd with rfl | rfl <;> cases hidle
      · cases hliteral

/-! ### What is stripped off -/

theorem dropWhile_append_stop {p : Char → Bool} {c : Char} (hc : p c = false)
    (front rest : List Char) :
    (front ++ c :: rest).dropWhile p = front.dropWhile p ++ c :: rest := by
  rw [List.dropWhile_append]
  split
  · rename_i hempty
    rw [List.isEmpty_iff.mp hempty, List.nil_append,
      List.dropWhile_cons_of_neg (by rw [hc]; exact Bool.false_ne_true)]
  · rfl

theorem isPrefixOf_append_stop {c : Char} {mark : List Char} (hc : c ∉ mark)
    (front rest : List Char) :
    mark.isPrefixOf (front ++ c :: rest) = mark.isPrefixOf front := by
  induction mark generalizing front with
  | nil => simp only [List.isPrefixOf]
  | cons m mark ih =>
      cases front with
      | nil =>
          have hne : (m == c) = false := beq_false_of_ne fun heq => hc (heq ▸ List.mem_cons_self)
          simp only [List.nil_append, List.isPrefixOf, hne, Bool.false_and]
      | cons d front =>
          have hrest := ih (fun h => hc (List.mem_cons_of_mem _ h)) front
          simp only [List.cons_append, List.isPrefixOf, hrest]

/-- What is left in front: the rest, behind characters of one unit that are gone. -/
def Left (front left : List Char) : Prop :=
  ∃ gone, front = gone ++ left ∧ ∀ c ∈ gone, c.toNat < 0x10000

theorem Left.refl (front : List Char) : Left front front :=
  ⟨[], rfl, fun _ h => absurd h List.not_mem_nil⟩

theorem Left.trans {front middle left : List Char} (h : Left front middle) (h' : Left middle left) :
    Left front left := by
  obtain ⟨gone, rfl, hgone⟩ := h
  obtain ⟨gone', rfl, hgone'⟩ := h'
  refine ⟨gone ++ gone', (List.append_assoc _ _ _).symm, ?_⟩
  intro c hc
  exact (List.mem_append.mp hc).elim (hgone c) (hgone' c)

theorem Left.mem {front left : List Char} (h : Left front left) {c : Char} (hc : c ∈ left) :
    c ∈ front := by
  obtain ⟨gone, rfl, -⟩ := h
  exact List.mem_append_right _ hc

theorem Left.wide {front left : List Char} (h : Left front left) {c : Char} (hc : c ∈ front)
    (hwide : 0x10000 ≤ c.toNat) : c ∈ left := by
  obtain ⟨gone, rfl, hgone⟩ := h
  refine (List.mem_append.mp hc).resolve_left fun hin => ?_
  have hsmall := hgone c hin
  omega

theorem jsSpace_small {c : Char} (h : jsSpace c = true) : c.toNat < 0x10000 := by
  unfold jsSpace at h
  simp only [decide_eq_true_eq] at h
  omega

theorem left_dropWhile (front : List Char) : Left front (front.dropWhile jsSpace) :=
  ⟨front.takeWhile jsSpace, (List.takeWhile_append_dropWhile).symm,
    fun _ hc => jsSpace_small (List.mem_takeWhile_imp hc)⟩

theorem toLower_small {c : Char} (h : c.toLower.toNat < 0x10000) : c.toNat < 0x10000 := by
  unfold Char.toLower at h
  split at h
  · rename_i hupper
    have hz : c.val ≤ 90 := hupper.2
    have hle : c.toNat ≤ 90 := hz
    omega
  · exact h

theorem left_drop {mark front : List Char} (hmark : ∀ c ∈ mark, c.toNat < 0x10000)
    (h : mark.isPrefixOf (front.map Char.toLower) = true) :
    Left front (front.drop mark.length) := by
  refine ⟨front.take mark.length, (List.take_append_drop _ _).symm, ?_⟩
  intro c hc
  obtain ⟨tail, htail⟩ := List.isPrefixOf_iff_prefix.mp h
  have htake : (front.take mark.length).map Char.toLower = mark := by
    rw [List.map_take, ← htail, List.take_left]
  have hin : c.toLower ∈ mark := htake ▸ List.mem_map_of_mem hc
  exact toLower_small (hmark _ hin)

/-- A bracket in the text, which nothing that is stripped off holds. -/
structure Stop (c : Char) : Prop where
  space : jsSpace c = false
  tick : c ∉ fence
  lower : c.toLower ∉ ['j', 's', 'o', 'n']

theorem Bracket.stop (b : Bracket) : Stop b.opener ∧ Stop b.closer := by
  cases b
  · exact ⟨⟨by decide, by decide, by decide⟩, ⟨by decide, by decide, by decide⟩⟩
  · exact ⟨⟨by decide, by decide, by decide⟩, ⟨by decide, by decide, by decide⟩⟩

theorem word_small : ∀ c ∈ ['j', 's', 'o', 'n'], c.toNat < 0x10000 := by
  intro c hc
  simp only [List.mem_cons, List.not_mem_nil, or_false] at hc
  rcases hc with rfl | rfl | rfl | rfl <;> decide

theorem drop_append_stop {mark front rest : List Char} (h : mark.length ≤ front.length) :
    (front ++ rest).drop mark.length = front.drop mark.length ++ rest :=
  List.drop_append_of_le_length h

theorem dropMark_stop {c : Char} (hc : Stop c) (front rest : List Char) :
    ∃ left, dropMark ['j', 's', 'o', 'n'] (front ++ c :: rest) = left ++ c :: rest ∧
      Left front left := by
  unfold dropMark
  rw [List.map_append, List.map_cons, isPrefixOf_append_stop hc.lower]
  split
  · rename_i h
    have hlength := (List.isPrefixOf_iff_prefix.mp h).length_le
    rw [List.length_map] at hlength
    exact ⟨_, drop_append_stop hlength, left_drop word_small h⟩
  · exact ⟨front, rfl, Left.refl front⟩

theorem dropFence_stop {c : Char} (hc : Stop c) (front rest : List Char) :
    ∃ left, dropFence (front ++ c :: rest) = left ++ c :: rest ∧ Left front left := by
  unfold dropFence
  rw [isPrefixOf_append_stop hc.tick]
  split
  · rename_i h
    obtain ⟨tail, rfl⟩ := List.isPrefixOf_iff_prefix.mp h
    have htail : Left (fence ++ tail) tail := by
      refine ⟨fence, rfl, ?_⟩
      intro d hd
      simp only [fence, List.mem_cons, List.not_mem_nil, or_false] at hd
      rcases hd with rfl | rfl | rfl <;> decide
    obtain ⟨left, hleft, hword⟩ := dropMark_stop hc tail rest
    rw [List.append_assoc, List.drop_left, hleft, dropWhile_append_stop hc.space]
    exact ⟨_, rfl, (htail.trans hword).trans (left_dropWhile left)⟩
  · exact ⟨front, rfl, Left.refl front⟩

theorem trimEndChars_stop {c : Char} (hc : Stop c) (front rest : List Char) :
    ∃ more, trimEndChars (front ++ c :: rest) = front ++ c :: more := by
  refine ⟨(rest.reverse.dropWhile jsSpace).reverse, ?_⟩
  unfold trimEndChars
  have hreverse : (front ++ c :: rest).reverse = rest.reverse ++ c :: front.reverse := by
    rw [List.reverse_append, List.reverse_cons, List.append_assoc, List.singleton_append]
  rw [hreverse, dropWhile_append_stop hc.space, List.reverse_append, List.reverse_cons,
    List.reverse_reverse, List.append_assoc, List.singleton_append]

theorem dropEndFence_stop {c : Char} (hc : Stop c) (front rest : List Char) :
    ∃ more, dropEndFence (front ++ c :: rest) = front ++ c :: more := by
  unfold dropEndFence
  have hreverse : (front ++ c :: rest).reverse = rest.reverse ++ c :: front.reverse := by
    rw [List.reverse_append, List.reverse_cons, List.append_assoc, List.singleton_append]
  rw [hreverse, isPrefixOf_append_stop hc.tick]
  split
  · rename_i h
    have hlength := (List.isPrefixOf_iff_prefix.mp h).length_le
    refine ⟨((rest.reverse.drop fence.length).dropWhile jsSpace).reverse, ?_⟩
    rw [drop_append_stop hlength, dropWhile_append_stop hc.space, List.reverse_append,
      List.reverse_cons, List.reverse_reverse, List.append_assoc, List.singleton_append]
  · exact ⟨rest, rfl⟩

/-- **What is stripped off is around the value**, and is made of characters of one unit. -/
theorem stripped_splits (b : Bracket) (inner front behind : List Char) :
    ∃ left more, stripped (front ++ (b.opener :: (inner ++ [b.closer])) ++ behind) =
        left ++ (b.opener :: (inner ++ [b.closer])) ++ more ∧ Left front left ∧
      ∀ c others, left = c :: others → jsSpace c = false := by
  have hsplit : ∀ left more : List Char, left ++ (b.opener :: (inner ++ [b.closer])) ++ more =
      left ++ b.opener :: (inner ++ b.closer :: more) := by
    intro left more
    simp only [List.append_assoc, List.cons_append, List.nil_append]
  have hclose : ∀ left more : List Char, left ++ b.opener :: (inner ++ b.closer :: more) =
      (left ++ b.opener :: inner) ++ b.closer :: more := by
    intro left more
    simp only [List.append_assoc, List.cons_append]
  unfold stripped trimChars trimStartChars
  rw [hsplit, dropWhile_append_stop b.stop.1.space, hclose]
  obtain ⟨more₁, h₁⟩ := trimEndChars_stop b.stop.2 (front.dropWhile jsSpace ++ b.opener :: inner)
    behind
  rw [h₁, ← hclose]
  obtain ⟨left, h₂, hleft⟩ := dropFence_stop b.stop.1 (front.dropWhile jsSpace)
    (inner ++ b.closer :: more₁)
  rw [h₂, hclose]
  obtain ⟨more₂, h₃⟩ := dropEndFence_stop b.stop.2 (left ++ b.opener :: inner) more₁
  rw [h₃, ← hclose, dropWhile_append_stop b.stop.1.space, hclose]
  obtain ⟨more₃, h₄⟩ := trimEndChars_stop b.stop.2 (left.dropWhile jsSpace ++ b.opener :: inner)
    more₂
  rw [h₄, ← hclose]
  refine ⟨left.dropWhile jsSpace, more₃, (hsplit _ _).symm,
    ((left_dropWhile front).trans hleft).trans (left_dropWhile left), ?_⟩
  intro c others hcons
  have hhead := List.head?_dropWhile_not jsSpace left
  rw [hcons] at hhead
  simpa using hhead

/-! ### Where the scan starts -/

theorem findIdx?_opener (b : Bracket) {front : List Char}
    (hfront : ∀ c ∈ front, opensValue c = false) (rest : List Char) :
    (front ++ b.opener :: rest).findIdx? opensValue = some front.length := by
  have hopens : opensValue b.opener = true := by cases b <;> decide
  induction front with
  | nil => rw [List.nil_append, List.findIdx?_cons, hopens]; rfl
  | cons c front ih =>
      rw [List.cons_append, List.findIdx?_cons, hfront c List.mem_cons_self,
        ih fun d hd => hfront d (List.mem_cons_of_mem _ hd)]
      rfl

theorem length_units_small {front : List Char} (h : ∀ c ∈ front, c.toNat < 0x10000) :
    (front.flatMap charUnits).length = front.length := by
  induction front with
  | nil => rfl
  | cons c front ih =>
      rw [List.flatMap_cons, charUnits_small (h c List.mem_cons_self), List.length_append,
        ih fun d hd => h d (List.mem_cons_of_mem _ hd), List.length_cons]
      exact Nat.add_comm _ _

theorem length_charUnits_pos (c : Char) : 1 ≤ (charUnits c).length := by
  unfold charUnits
  split
  · exact Nat.le_refl 1
  · exact Nat.le_succ 1

theorem length_units_le (front : List Char) :
    front.length ≤ (front.flatMap charUnits).length := by
  induction front with
  | nil => exact Nat.le_refl 0
  | cons c front ih =>
      have hc := length_charUnits_pos c
      rw [List.flatMap_cons, List.length_append, List.length_cons]
      omega

theorem length_units_wide {front : List Char} {c : Char} (hmem : c ∈ front)
    (hwide : 0x10000 ≤ c.toNat) : front.length < (front.flatMap charUnits).length := by
  obtain ⟨before, after, rfl⟩ := List.append_of_mem hmem
  have hbefore := length_units_le before
  have hafter := length_units_le after
  have hc : (charUnits c).length = 2 := by
    unfold charUnits
    rw [if_neg (by omega)]
    rfl
  rw [List.flatMap_append, List.flatMap_cons, List.length_append, List.length_append,
    List.length_append, List.length_cons, hc]
  omega

/-- **The value is cut out**, when everything before it is counted as it is indexed. -/
theorem extract_value (b : Bracket) {front inner : List Char} (hinner : Passes false inner)
    (hfront : ∀ c ∈ front, opensValue c = false) (hsmall : ∀ c ∈ front, c.toNat < 0x10000)
    (more : List Char) :
    extractFirstJsonValue (front ++ (b.opener :: (inner ++ [b.closer])) ++ more) =
      some ((b.opener :: (inner ++ [b.closer])).flatMap charUnits) := by
  have hsplit : front ++ (b.opener :: (inner ++ [b.closer])) ++ more =
      front ++ b.opener :: (inner ++ b.closer :: more) := by
    simp only [List.append_assoc, List.cons_append, List.nil_append]
  have hdrop : ((front ++ (b.opener :: (inner ++ [b.closer])) ++ more).flatMap charUnits).drop
      front.length = (b.opener :: (inner ++ [b.closer])).flatMap charUnits ++
        more.flatMap charUnits := by
    rw [List.append_assoc, List.flatMap_append, ← length_units_small hsmall, List.drop_left,
      List.flatMap_append]
  have hhead : ((b.opener :: (inner ++ [b.closer])).flatMap charUnits ++
      more.flatMap charUnits).head? = some b.opener.toNat := by
    rw [List.flatMap_cons, b.units.1]
    rfl
  have hcloser : closerOf b.opener.toNat = b.closer.toNat := by cases b <;> rfl
  have hstart : (front ++ (b.opener :: (inner ++ [b.closer])) ++ more).findIdx? opensValue =
      some front.length := by
    rw [hsplit]
    exact findIdx?_opener b hfront _
  unfold extractFirstJsonValue
  simp only [Option.bind_eq_bind, hstart, Option.bind_some, hdrop, hhead, hcloser]
  exact scan_bracketed b hinner (more.flatMap charUnits)

theorem parseUnits_chars (chars : List Char) :
    parseUnits readNumber (chars.flatMap charUnits) = parseJson readNumber chars := by
  unfold parseUnits
  rw [decodeUnits_utf16, Option.bind_some]

/-! ### A start in front of the value -/

/-- One step of a scan that is inside: it goes on inside, or ends at a closer. -/
theorem scan_step {opener closer unit : Nat} {s : Scan} {rest found : List Nat}
    (hs : 1 ≤ s.depth) (h : scan opener closer s (unit :: rest) = some found) :
    (∃ s' cut, 1 ≤ s'.depth ∧ scan opener closer s' rest = some cut ∧ found = unit :: cut) ∨
      (unit = closer ∧ found = [unit]) := by
  have hput : ∀ s' : Scan, (scan opener closer s' rest).map (unit :: ·) = some found →
      1 ≤ s'.depth →
        ∃ s' cut, 1 ≤ s'.depth ∧ scan opener closer s' rest = some cut ∧ found = unit :: cut := by
    intro s' hmap hs'
    obtain ⟨cut, hcut, rfl⟩ := Option.map_eq_some_iff.mp hmap
    exact ⟨s', cut, hs', hcut, rfl⟩
  rw [scan] at h
  split at h
  · exact Or.inl (hput _ h hs)
  · split at h
    · exact Or.inl (hput _ h hs)
    · split at h
      · exact Or.inl (hput _ h hs)
      · split at h
        · exact Or.inl (hput _ h hs)
        · have hopened : 1 ≤ if unit = opener then s.depth + 1 else s.depth := by
            split <;> omega
          dsimp only at h
          generalize (if unit = opener then s.depth + 1 else s.depth) = opened at h hopened
          by_cases hcloser : unit = closer
          · rw [if_pos hcloser] at h
            split at h
            · exact Or.inr ⟨hcloser, (Option.some.inj h).symm⟩
            · exact Or.inl (hput _ h (show 1 ≤ opened - 1 by omega))
          · rw [if_neg hcloser, if_neg (by omega)] at h
            exact Or.inl (hput _ h hopened)

/-- A scan that is inside ends with a closer. -/
theorem scan_last {opener closer : Nat} {s : Scan} {units found : List Nat} (hs : 1 ≤ s.depth)
    (h : scan opener closer s units = some found) : ∃ before, found = before ++ [closer] := by
  induction units generalizing s found with
  | nil => cases h
  | cons unit rest ih =>
      rcases scan_step hs h with ⟨s', cut, hs', hcut, rfl⟩ | ⟨rfl, rfl⟩
      · obtain ⟨before, rfl⟩ := ih hs' hcut
        exact ⟨unit :: before, rfl⟩
      · exact ⟨[], rfl⟩

/-- What is cut out begins with the unit that the scan starts at. -/
theorem scan_head {opener closer unit : Nat} {s : Scan} {rest found : List Nat}
    (h : scan opener closer s (unit :: rest) = some found) : ∃ cut, found = unit :: cut := by
  have hput : ∀ s' : Scan, (scan opener closer s' rest).map (unit :: ·) = some found →
      ∃ cut, found = unit :: cut := by
    intro s' hmap
    obtain ⟨cut, -, rfl⟩ := Option.map_eq_some_iff.mp hmap
    exact ⟨cut, rfl⟩
  rw [scan] at h
  split at h
  · exact hput _ h
  · split at h
    · exact hput _ h
    · split at h
      · exact hput _ h
      · split at h
        · exact hput _ h
        · dsimp only at h
          generalize (if unit = opener then s.depth + 1 else s.depth) = opened at h
          generalize (if unit = closer then opened - 1 else opened) = closed at h
          split at h
          · exact ⟨[], (Option.some.inj h).symm⟩
          · exact hput _ h

theorem decodeUnits_head {unit : Nat} (hunit : unit < 0xD800) {rest : List Nat} {chars : List Char}
    (h : decodeUnits (unit :: rest) = some chars) :
    ∃ others, chars = Char.ofNat unit :: others := by
  rw [decodeUnits_single (by omega)] at h
  obtain ⟨others, -, rfl⟩ := Option.map_eq_some_iff.mp h
  exact ⟨others, rfl⟩

theorem decodeUnits_last {before : List Nat} {chars : List Char}
    (h : decodeUnits (before ++ [93]) = some chars) : ∃ front, chars = front ++ [']'] := by
  induction before using decodeUnits.induct generalizing chars with
  | case1 =>
      refine ⟨[], ?_⟩
      rw [List.nil_append, decodeUnits, if_neg (by omega)] at h
      exact (Option.some.inj h).symm
  | case2 unit hunit =>
      rw [List.singleton_append, decodeUnits, if_neg (by omega), if_pos (by omega)] at h
      cases h
  | case3 unit hunit =>
      rw [List.singleton_append, decodeUnits_single (by omega)] at h
      obtain ⟨others, hothers, rfl⟩ := Option.map_eq_some_iff.mp h
      rw [decodeUnits, if_neg (by omega)] at hothers
      exact ⟨[Char.ofNat unit], congrArg (Char.ofNat unit :: ·) (Option.some.inj hothers).symm⟩
  | case4 high low rest hpair ih =>
      rw [List.cons_append, List.cons_append, decodeUnits, if_pos hpair] at h
      obtain ⟨others, hothers, rfl⟩ := Option.map_eq_some_iff.mp h
      obtain ⟨front, rfl⟩ := ih hothers
      exact ⟨_ :: front, rfl⟩
  | case5 high low rest hpair hhigh =>
      rw [List.cons_append, List.cons_append, decodeUnits, if_neg hpair, if_pos hhigh] at h
      cases h
  | case6 high low rest hpair hhigh ih =>
      rw [List.cons_append, List.cons_append, decodeUnits, if_neg hpair, if_neg hhigh] at h
      obtain ⟨others, hothers, rfl⟩ := Option.map_eq_some_iff.mp h
      obtain ⟨front, rfl⟩ := ih hothers
      exact ⟨_ :: front, rfl⟩

/-- An object is read from its brace to the one that closes it, up to spaces. -/
theorem parseJson_obj {text : List Char} {fields : List (String × Value)}
    (h : parseJson readNumber text = some (.obj fields)) :
    ∃ inner rest, skipSpace text = '\x7b' :: (inner ++ '\x7d' :: rest) ∧
      ∀ c ∈ rest, jsonSpace c = true := by
  obtain ⟨rest, hread, hrest⟩ := parseJson_some h
  obtain ⟨b, inner, htext, -, hcurly⟩ :=
    begins_bracketed (readValue_iff.mp hread) (Or.inr ⟨fields, rfl⟩)
  rw [hcurly ⟨fields, rfl⟩] at htext
  exact ⟨inner, rest, htext, spaces_of_skipSpace hrest⟩

/-- What the text of an object ends with is a brace or a space. -/
theorem parseJson_obj_last {front : List Char} {fields : List (String × Value)} :
    parseJson readNumber (front ++ [']']) ≠ some (.obj fields) := by
  intro h
  obtain ⟨inner, rest, htext, hrest⟩ := parseJson_obj h
  obtain ⟨spaces, hsplit, -⟩ := skipSpace_splits (front ++ [']'])
  rw [htext] at hsplit
  have hlast := congrArg List.getLast? hsplit
  rw [List.getLast?_append, List.getLast?_singleton, Option.some_or] at hlast
  cases hend : rest.reverse with
  | nil =>
      rw [List.reverse_eq_nil_iff.mp hend, ← List.cons_append, ← List.append_assoc,
        List.getLast?_append, List.getLast?_singleton, Option.some_or] at hlast
      cases hlast
  | cons c others =>
      have hcons : rest = others.reverse ++ [c] := by
        rw [← List.reverse_reverse rest, hend, List.reverse_cons]
      have hspace := hrest c (by rw [hcons]; exact List.mem_append_right _ List.mem_cons_self)
      rw [hcons, ← List.cons_append, ← List.append_assoc, ← List.cons_append, ← List.append_assoc,
        List.getLast?_append, List.getLast?_singleton, Option.some_or] at hlast
      rw [← Option.some.inj hlast] at hspace
      cases hspace

/-- **From a unit that opens nothing, no object is found.** -/
theorem scan_no_object {unit : Nat} {rest found : List Nat} (hcurly : unit ≠ 123)
    (h : scan unit (closerOf unit) ⟨0, false, false⟩ (unit :: rest) = some found)
    {fields : List (String × Value)} : parseUnits readNumber found ≠ some (.obj fields) := by
  intro hparse
  obtain ⟨chars, hchars, hjson⟩ := Option.bind_eq_some_iff.mp hparse
  have hcloser : closerOf unit = 93 := if_neg hcurly
  rw [hcloser] at h
  have hstarts : ∀ c others, chars = c :: others → jsonSpace c = false → c = '\x7b' := by
    rintro c others rfl hc
    obtain ⟨inner, after, htext, -⟩ := parseJson_obj hjson
    rw [skipSpace_cons hc] at htext
    exact (List.cons.inj htext).1
  obtain ⟨cut, rfl⟩ := scan_head h
  by_cases hslash : unit = 92
  · obtain ⟨others, hcons⟩ := decodeUnits_head (by omega) hchars
    rw [hslash] at hcons
    cases hstarts _ others hcons (by decide)
  by_cases hquote : unit = 34
  · obtain ⟨others, hcons⟩ := decodeUnits_head (by omega) hchars
    rw [hquote] at hcons
    cases hstarts _ others hcons (by decide)
  rw [scan_plain hslash hquote] at h
  simp only [if_pos] at h
  have hends : ∃ before, unit :: cut = before ++ [93] := by
    split at h
    · rename_i hsquare
      rw [if_pos (by omega)] at h
      exact ⟨[], by rw [← Option.some.inj h, hsquare]; rfl⟩
    · rw [if_neg (by omega)] at h
      obtain ⟨tail, htail, hcons⟩ := Option.map_eq_some_iff.mp h
      obtain ⟨before, rfl⟩ := scan_last (by decide) htail
      exact ⟨unit :: before, hcons.symm⟩
  obtain ⟨before, hbefore⟩ := hends
  rw [hbefore] at hchars
  obtain ⟨front, rfl⟩ := decodeUnits_last hchars
  exact parseJson_obj_last hjson

theorem unit_ne_opener {c : Char} (hc : opensValue c = false) :
    ∀ unit ∈ charUnits c, unit ≠ 123 ∧ unit ≠ 91 := by
  unfold opensValue at hc
  simp only [Bool.or_eq_false_iff, decide_eq_false_iff_not] at hc
  intro unit hunit
  exact ⟨charUnits_ne (by decide) (char_toNat_ne hc.1) unit hunit,
    charUnits_ne (by decide) (char_toNat_ne hc.2) unit hunit⟩

/-- Behind a character of two units the scan starts in front of the value, and finds no object. -/
theorem extract_no_object (b : Bracket) {front : List Char}
    (hfront : ∀ c ∈ front, opensValue c = false) {c : Char} (hmem : c ∈ front)
    (hwide : 0x10000 ≤ c.toNat) (rest : List Char) (fields : List (String × Value)) :
    (extractFirstJsonValue (front ++ b.opener :: rest)).bind (parseUnits readNumber) ≠
      some (.obj fields) := by
  intro h
  obtain ⟨found, hfound, hparse⟩ := Option.bind_eq_some_iff.mp h
  have hlength := length_units_wide hmem hwide
  obtain ⟨unit, others, hunits⟩ := List.exists_cons_of_ne_nil
    (fun hnil => absurd (List.drop_eq_nil_iff.mp hnil) (by omega) :
      (front.flatMap charUnits).drop front.length ≠ [])
  have hunit : unit ≠ 123 ∧ unit ≠ 91 := by
    have hin : unit ∈ front.flatMap charUnits :=
      List.mem_of_mem_drop (hunits ▸ List.mem_cons_self)
    obtain ⟨d, hd, hdunit⟩ := List.mem_flatMap.mp hin
    exact unit_ne_opener (hfront d hd) unit hdunit
  have hdrop : ((front ++ b.opener :: rest).flatMap charUnits).drop front.length =
      unit :: (others ++ (b.opener :: rest).flatMap charUnits) := by
    rw [List.flatMap_append, List.drop_append_of_le_length (by omega), hunits, List.cons_append]
  unfold extractFirstJsonValue at hfound
  simp only [Option.bind_eq_bind, findIdx?_opener b hfront, Option.bind_some, hdrop,
    List.head?_cons] at hfound
  exact scan_no_object hunit.1 hfound hparse

/-- What `JSON.stringify` writes for an object or array is a text of it. -/
theorem written_chars (hv : v.IsJson (printedNumber readNumber))
    (hcontainer : (∃ items, v = .arr items) ∨ ∃ fields, v = .obj fields) :
    Written readNumber v.chars v where
  read := parseJson_chars hv
  container := hcontainer
  front := by
    have hskip := skipSpace_chars (hv.mono printedNumber.text).plain []
    rwa [List.append_nil] at hskip
  back := by
    rcases hcontainer with ⟨items, rfl⟩ | ⟨fields, rfl⟩
    · cases items with
      | nil => rfl
      | cons item items =>
          rw [Value.chars, List.reverse_cons, List.reverse_append, List.reverse_singleton,
            List.singleton_append, List.cons_append]
          exact skipSpace_cons (by decide)
    · cases fields with
      | nil => rfl
      | cons field fields =>
          rw [Value.chars, List.reverse_cons, List.reverse_append, List.reverse_singleton,
            List.singleton_append, List.cons_append]
          exact skipSpace_cons (by decide)

/-! ### The value is found -/

/-- **The value in an answer.**  Before it there is no opening bracket, and it is written in any
way that `JSON.parse` reads.  When every character before it is one code unit, it is found unless
the answer as a whole is a JSON string; otherwise no object is found. -/
theorem modelText_read (readNumber : List Char → String) {front text : List Char} {v : Value}
    (h : Written readNumber text v) (hfront : ∀ c ∈ front, opensValue c = false)
    (behind : List Char) :
    ((∀ c ∈ front, c.toNat < 0x10000) →
      (parseJsonFromModelText readNumber (front ++ text ++ behind) = some v ↔
        ∀ s, parseJson readNumber (stripped (front ++ text ++ behind)) ≠ some (.str s))) ∧
    ((∃ c ∈ front, 0x10000 ≤ c.toNat) → ∀ fields,
      parseJsonFromModelText readNumber (front ++ text ++ behind) ≠ some (.obj fields)) := by
  obtain ⟨b, inner, rfl, hinner⟩ := h.bracketed
  obtain ⟨left, more, hstripped, hleft, hlead⟩ := stripped_splits b inner front behind
  have hopens : opensValue b.opener = true := by cases b <;> decide
  have hleftFront : ∀ c ∈ left, opensValue c = false := fun c hc => hfront c (hleft.mem hc)
  have hspace : ∀ {c : Char}, jsSpace c = false → jsonSpace c = false := by
    intro c hc
    cases hblank : jsonSpace c with
    | false => rfl
    | true =>
        unfold jsonSpace at hblank
        simp only [Bool.or_eq_true, decide_eq_true_eq] at hblank
        rcases hblank with ((rfl | rfl) | rfl) | rfl <;> cases hc
  -- what the whole is read as, if it is JSON
  have hwhole : ∀ w, parseJson readNumber (stripped (front ++ (b.opener :: (inner ++ [b.closer])) ++
      behind)) = some w → (left = [] ∧ w = v) ∨ (left ≠ [] ∧ ∃ s, w = .str s) := by
    intro w hw
    rw [hstripped] at hw
    cases left with
    | nil =>
        rw [List.nil_append, h.parse_append] at hw
        split at hw
        · exact Or.inl ⟨rfl, (Option.some.inj hw).symm⟩
        · cases hw
    | cons c others =>
        refine Or.inr ⟨List.cons_ne_nil _ _, ?_⟩
        have hmem : b.opener ∈ c :: (others ++ (b.opener :: (inner ++ [b.closer])) ++ more) :=
          List.mem_cons_of_mem _ (List.mem_append_left _
            (List.mem_append_right _ List.mem_cons_self))
        exact parseJson_str (hspace (hlead c others rfl)) (hleftFront c List.mem_cons_self)
          hopens hmem hw
  refine ⟨fun hsmall => ?_, ?_⟩
  · have hleftSmall : ∀ c ∈ left, c.toNat < 0x10000 := fun c hc => hsmall c (hleft.mem hc)
    constructor
    · intro hparse s hstr
      unfold parseJsonFromModelText at hparse
      rw [hstr] at hparse
      have hv : Value.str s = v := Option.some.inj hparse
      rcases h.container with ⟨_, hc⟩ | ⟨_, hc⟩ <;> rw [← hv] at hc <;> cases hc
    · intro hnot
      unfold parseJsonFromModelText
      cases hjson : parseJson readNumber (stripped (front ++ (b.opener :: (inner ++ [b.closer])) ++
          behind)) with
      | some w =>
          rcases hwhole w hjson with ⟨-, rfl⟩ | ⟨-, s, rfl⟩
          · rfl
          · exact absurd hjson (hnot s)
      | none =>
          rw [hstripped, extract_value b hinner hleftFront hleftSmall, Option.bind_some,
            parseUnits_chars]
          exact h.read
  · rintro ⟨c, hmem, hwide⟩ fields hparse
    have hin : c ∈ left := hleft.wide hmem hwide
    unfold parseJsonFromModelText at hparse
    cases hjson : parseJson readNumber (stripped (front ++ (b.opener :: (inner ++ [b.closer])) ++
        behind)) with
    | some w =>
        rw [hjson] at hparse
        rcases hwhole w hjson with ⟨hnil, -⟩ | ⟨-, s, rfl⟩
        · rw [hnil] at hin
          exact absurd hin List.not_mem_nil
        · cases Option.some.inj hparse
    | none =>
        rw [hjson, hstripped] at hparse
        have hsplit : left ++ (b.opener :: (inner ++ [b.closer])) ++ more =
            left ++ b.opener :: (inner ++ b.closer :: more) := by
          simp only [List.append_assoc, List.cons_append, List.nil_append]
        rw [hsplit] at hparse
        exact extract_no_object b hleftFront hin hwide _ fields hparse

/-- An object with a brace in a string. -/
def braced : Value := .obj [("a", .arr [.str "\x7d"])]

theorem braced_json : braced.IsJson (printedNumber String.ofList) := by
  refine .obj _ (List.nodup_singleton _) fun field hfield => ?_
  rw [List.mem_singleton.mp hfield]
  refine .arr _ fun item hitem => ?_
  rw [List.mem_singleton.mp hitem]
  exact .str _

def word : List Char := ['S', 'u', 'r', 'e', ' ']

def grin : Char := Char.ofNat 0x1f600

/-- It is found behind a word, and not behind a character of two units. -/
theorem braced_read :
    parseJsonFromModelText String.ofList (word ++ braced.chars ++ word) = some braced ∧
      ∀ fields, parseJsonFromModelText String.ofList ([grin] ++ braced.chars ++ word) ≠
        some (.obj fields) := by
  have hwritten : Written String.ofList braced.chars braced :=
    written_chars braced_json (Or.inr ⟨_, rfl⟩)
  have hword : ∀ c ∈ word, opensValue c = false := by
    intro c hc
    simp only [word, List.mem_cons, List.not_mem_nil, or_false] at hc
    rcases hc with rfl | rfl | rfl | rfl | rfl <;> rfl
  have hgrin : ∀ c ∈ [grin], opensValue c = false := by
    intro c hc
    rw [List.mem_singleton.mp hc]
    rfl
  refine ⟨?_, ?_⟩
  · refine ((modelText_read String.ofList hwritten hword word).1 ?_).mpr ?_
    · intro c hc
      simp only [word, List.mem_cons, List.not_mem_nil, or_false] at hc
      rcases hc with rfl | rfl | rfl | rfl | rfl <;> decide
    · intro s hs
      cases hs
  · exact (modelText_read String.ofList hwritten hgrin word).2
      ⟨grin, List.mem_cons_self, by decide⟩

end OpenLagrange.ModelText
