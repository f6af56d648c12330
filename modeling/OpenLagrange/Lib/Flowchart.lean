/-
Flowcharts as text.

A diagram is a line that says it is one, and then a statement a line.  A statement is a vertex, or
vertices with arrows between them; a vertex is an id, and may declare what is written in it.  A
text in quotes goes on until the next quote, and a text between bars until the next bar; a text
between bars holds no brackets.

Ids are words, and some words are not ids: which those are is a parameter.  What else may be
written in such a diagram is left out: no line here is anything but a statement of this kind.
-/
import Mathlib.Data.List.TakeWhile
import Mathlib.Data.List.Infix

namespace Flowchart

/-! ### Diagrams and how they are read -/

structure Vertex where
  id : List Char
  /-- What it is declared to show. -/
  text : Option (List Char)

structure Arrow where
  source : List Char
  text : Option (List Char)
  target : List Char

structure Diagram where
  vertices : List Vertex
  arrows : List Arrow

/-- The vertices that are declared, and what they show. -/
def Diagram.declarations (d : Diagram) : List (List Char × List Char) :=
  d.vertices.filterMap fun vertex => vertex.text.map fun text => (vertex.id, text)

def Diagram.append (d d' : Diagram) : Diagram := ⟨d.vertices ++ d'.vertices, d.arrows ++ d'.arrows⟩

def idChar (c : Char) : Bool := c.isAlphanum || c = '_'

def skipBlanks (text : List Char) : List Char := text.dropWhile (· = ' ')

/-- The text before the next `stop`, and what comes behind it. -/
def readUpTo (stop : Char) : List Char → Option (List Char × List Char)
  | [] => none
  | c :: rest =>
      if c = stop then some ([], rest)
      else (readUpTo stop rest).map fun found => (c :: found.1, found.2)

def readText : List Char → Option (Option (List Char) × List Char)
  | '[' :: '"' :: quoted =>
      match readUpTo '"' quoted with
      | some (text, ']' :: rest) => some (some text, rest)
      | _ => none
  | rest => some (none, rest)

/-- A vertex, unless it is one of the words that are `reserved`. -/
def readVertex (reserved : List Char → Bool) (text : List Char) : Option (Vertex × List Char) :=
  if text.takeWhile idChar = [] ∨ reserved (text.takeWhile idChar) = true then none
  else
    (readText (text.dropWhile idChar)).map fun found =>
      (⟨text.takeWhile idChar, found.1⟩, found.2)

def bracket (c : Char) : Bool := ['(', ')', '[', ']', '{', '}'].contains c

/-- The text between bars, without brackets. -/
def readBars (rest : List Char) : Option (Option (List Char) × List Char) :=
  (readUpTo '|' rest).bind fun found =>
    if found.1.any bracket then none else some (some found.1, found.2)

/-- An arrow, and the text on it. -/
def readArrow : List Char → Option (Option (List Char) × List Char)
  | '-' :: '-' :: '>' :: '|' :: rest => readBars rest
  | '-' :: '-' :: '>' :: rest => some (none, rest)
  | _ => none

/-- The arrows that go on from a vertex. -/
def readLinks (reserved : List Char → Bool) : Nat → List Char → List Char → Option Diagram
  | 0, _, text => if skipBlanks text = [] then some ⟨[], []⟩ else none
  | fuel + 1, source, text =>
      if skipBlanks text = [] then some ⟨[], []⟩
      else
        match readArrow (skipBlanks text) with
        | none => none
        | some (label, rest) =>
            match readVertex reserved (skipBlanks rest) with
            | none => none
            | some (vertex, rest) =>
                (readLinks reserved fuel vertex.id rest).map fun more =>
                  ⟨vertex :: more.vertices, ⟨source, label, vertex.id⟩ :: more.arrows⟩

def readStatement (reserved : List Char → Bool) (line : List Char) : Option Diagram :=
  match readVertex reserved (skipBlanks line) with
  | none => none
  | some (vertex, rest) =>
      (readLinks reserved rest.length vertex.id rest).map fun links =>
        ⟨vertex :: links.vertices, links.arrows⟩

def readStatements (reserved : List Char → Bool) : List (List Char) → Option Diagram
  | [] => some ⟨[], []⟩
  | line :: rest =>
      match readStatement reserved line, readStatements reserved rest with
      | some d, some d' => some (d.append d')
      | _, _ => none

def read (reserved : List Char → Bool) (header text : List Char) : Option Diagram :=
  match text.splitOn '\n' with
  | first :: lines => if first = header then readStatements reserved lines else none
  | [] => none

example : (read (· = "end".toList) "flowchart TD".toList
    "flowchart TD\n  a[\"A\"]\n  a -->|then| b".toList).map
    (fun d => (d.declarations, d.arrows.map fun arrow => (arrow.source, arrow.target))) =
      some ([(['a'], ['A'])], [(['a'], ['b'])]) := by decide +kernel

/-! ### Texts that end where they should -/

/-- A text goes on until its stop, whatever follows. -/
theorem readUpTo_append {stop : Char} {text : List Char} (h : stop ∉ text) (rest : List Char) :
    readUpTo stop (text ++ stop :: rest) = some (text, rest) := by
  induction text with
  | nil => exact if_pos rfl
  | cons c text ih =>
      have hne : c ≠ stop := fun heq => h (heq ▸ List.mem_cons_self)
      rw [List.cons_append, readUpTo, if_neg hne, ih fun hmem => h (List.mem_cons_of_mem _ hmem)]
      rfl

/-- A text that holds its stop ends there, and the rest of it is read as something else. -/
theorem readUpTo_cut {stop : Char} {text : List Char} (h : stop ∈ text) :
    ∃ front back, text = front ++ stop :: back ∧
      ∀ rest, readUpTo stop (text ++ rest) = some (front, back ++ rest) := by
  obtain ⟨front, back, hsplit, hfront⟩ := List.eq_append_cons_of_mem h
  refine ⟨front, back, hsplit, ?_⟩
  intro rest
  rw [hsplit, List.append_assoc, List.cons_append]
  exact readUpTo_append hfront (back ++ rest)

/-! ### Ids -/

def IsWord (id : List Char) : Prop := id ≠ [] ∧ ∀ c ∈ id, idChar c = true

/-- An id is a word that is not reserved. -/
structure IsId (reserved : List Char → Bool) (id : List Char) : Prop where
  word : IsWord id
  free : reserved id = false

variable {reserved : List Char → Bool} {id source target : List Char}

theorem skipBlanks_id (h : IsWord id) (rest : List Char) :
    skipBlanks (' ' :: ' ' :: (id ++ rest)) = id ++ rest ∧
      skipBlanks (' ' :: (id ++ rest)) = id ++ rest := by
  obtain ⟨hne, hid⟩ := h
  cases id with
  | nil => exact absurd rfl hne
  | cons c id =>
      have hc : c ≠ ' ' := by
        rintro rfl
        exact absurd (hid ' ' List.mem_cons_self) (by decide)
      have hstop : skipBlanks (c :: id ++ rest) = c :: id ++ rest := by
        unfold skipBlanks
        rw [List.cons_append, List.dropWhile_cons_of_neg (by rw [decide_eq_true_eq]; exact hc)]
      exact ⟨hstop, hstop⟩

theorem takeWhile_id (h : IsWord id) {rest : List Char}
    (hrest : ∀ c ∈ rest.head?, idChar c = false) :
    (id ++ rest).takeWhile idChar = id ∧ (id ++ rest).dropWhile idChar = rest := by
  have hstop : rest.takeWhile idChar = [] ∧ rest.dropWhile idChar = rest := by
    cases rest with
    | nil => exact ⟨rfl, rfl⟩
    | cons c rest =>
        have hc : ¬ idChar c = true := by
          rw [hrest c rfl]
          decide
        exact ⟨List.takeWhile_cons_of_neg hc, List.dropWhile_cons_of_neg hc⟩
  rw [List.takeWhile_append_of_pos h.2, List.dropWhile_append_of_pos h.2, hstop.1, hstop.2,
    List.append_nil]
  exact ⟨rfl, rfl⟩

/-! ### Statements -/

theorem IsId.stays (h : IsId reserved id) : ¬ (id = [] ∨ reserved id = true) := by
  rintro (hnil | hword)
  · exact h.word.1 hnil
  · rw [h.free] at hword
    cases hword

/-- A reserved word is not read as an id. -/
theorem readVertex_reserved (h : IsWord id) (hword : reserved id = true) {rest : List Char}
    (hrest : ∀ c ∈ rest.head?, idChar c = false) : readVertex reserved (id ++ rest) = none := by
  obtain ⟨htake, -⟩ := takeWhile_id h hrest
  unfold readVertex
  rw [htake, if_pos (Or.inr hword)]

theorem readVertex_declared (h : IsId reserved id) {text : List Char} (htext : '"' ∉ text) :
    readVertex reserved (id ++ '[' :: '"' :: (text ++ ['"', ']'])) =
      some (⟨id, some text⟩, []) := by
  have hhead : ∀ c ∈ ('[' :: '"' :: (text ++ ['"', ']'])).head?, idChar c = false := by
    intro c hc
    obtain rfl : '[' = c := Option.some.inj hc
    decide
  obtain ⟨htake, hdrop⟩ := takeWhile_id h.word hhead
  have hread : readText ('[' :: '"' :: (text ++ ['"', ']'])) = some (some text, []) := by
    have hquoted : readText ('[' :: '"' :: (text ++ ['"', ']'])) =
        match readUpTo '"' (text ++ ['"', ']']) with
        | some (text, ']' :: rest) => some (some text, rest)
        | _ => none := rfl
    rw [hquoted, readUpTo_append htext]
    rfl
  unfold readVertex
  rw [htake, hdrop, if_neg h.stays, hread]
  rfl

theorem readVertex_bare (h : IsId reserved id) {rest : List Char}
    (hrest : rest = [] ∨ rest.head? = some ' ') :
    readVertex reserved (id ++ rest) = some (⟨id, none⟩, rest) := by
  have hhead : ∀ c ∈ rest.head?, idChar c = false := by
    intro c hc
    rcases hrest with rfl | hblank
    · cases hc
    · obtain rfl : ' ' = c := Option.some.inj (hblank.symm.trans hc)
      decide
  obtain ⟨htake, hdrop⟩ := takeWhile_id h.word hhead
  have hread : readText rest = some (none, rest) := by
    cases rest with
    | nil => rfl
    | cons c rest =>
        rcases hrest with hnil | hblank
        · cases hnil
        · obtain rfl : c = ' ' := Option.some.inj hblank
          rfl
  unfold readVertex
  rw [htake, hdrop, if_neg h.stays, hread]
  rfl

/-- **A declaration is read as one, whatever it shows.** -/
theorem readStatement_declaration (h : IsId reserved id) {text : List Char} (htext : '"' ∉ text) :
    readStatement reserved (' ' :: ' ' :: (id ++ '[' :: '"' :: (text ++ ['"', ']']))) =
      some ⟨[⟨id, some text⟩], []⟩ := by
  unfold readStatement
  rw [(skipBlanks_id h.word _).1, readVertex_declared h htext]
  rfl

theorem readStatement_reserved (h : IsWord id) (hword : reserved id = true) {rest : List Char}
    (hrest : ∀ c ∈ rest.head?, idChar c = false) :
    readStatement reserved (' ' :: ' ' :: (id ++ rest)) = none := by
  unfold readStatement
  rw [(skipBlanks_id h _).1, readVertex_reserved h hword hrest]

theorem readLinks_end (fuel : Nat) (source : List Char) {text : List Char}
    (h : skipBlanks text = []) : readLinks reserved fuel source text = some ⟨[], []⟩ := by
  cases fuel with
  | zero => exact if_pos h
  | succ fuel => exact if_pos h

/-- An arrow, and what is read behind it. -/
theorem readLinks_succ {fuel : Nat} {text rest rest' : List Char} {label : Option (List Char)}
    {vertex : Vertex} (hne : skipBlanks text ≠ [])
    (harrow : readArrow (skipBlanks text) = some (label, rest))
    (hvertex : readVertex reserved (skipBlanks rest) = some (vertex, rest')) :
    readLinks reserved (fuel + 1) source text =
      (readLinks reserved fuel vertex.id rest').map fun more =>
        ⟨vertex :: more.vertices, ⟨source, label, vertex.id⟩ :: more.arrows⟩ := by
  rw [readLinks, if_neg hne, harrow]
  dsimp only
  rw [hvertex]

/-- What a statement with an arrow is, but for the vertex it starts from. -/
theorem readStatement_arrow (hsource : IsId reserved source) {text rest rest' : List Char}
    {label : Option (List Char)} {vertex : Vertex}
    (harrow : readArrow ('-' :: text) = some (label, rest))
    (hvertex : readVertex reserved (skipBlanks rest) = some (vertex, rest')) :
    readStatement reserved (' ' :: ' ' :: (source ++ ' ' :: '-' :: text)) =
      (readLinks reserved (text.length + 1) vertex.id rest').map fun more =>
        ⟨⟨source, none⟩ :: vertex :: more.vertices, ⟨source, label, vertex.id⟩ :: more.arrows⟩ := by
  have hskip : skipBlanks (' ' :: '-' :: text) = '-' :: text := rfl
  have hlength : (' ' :: '-' :: text).length = text.length + 1 + 1 := rfl
  unfold readStatement
  rw [(skipBlanks_id hsource.word _).1, readVertex_bare hsource (Or.inr rfl)]
  dsimp only
  rw [hlength, readLinks_succ (by rw [hskip]; exact List.cons_ne_nil _ _) (hskip ▸ harrow) hvertex,
    Option.map_map]
  rfl

/-- **An arrow without a text is read as one.** -/
theorem readStatement_link (hsource : IsId reserved source) (htarget : IsId reserved target) :
    readStatement reserved (' ' :: ' ' :: (source ++ ' ' :: '-' :: '-' :: '>' :: ' ' :: target)) =
      some ⟨[⟨source, none⟩, ⟨target, none⟩], [⟨source, none, target⟩]⟩ := by
  have hskip := (skipBlanks_id htarget.word []).2
  rw [List.append_nil] at hskip
  have hvertex : readVertex reserved (target ++ []) = some (⟨target, none⟩, []) :=
    readVertex_bare htarget (Or.inl rfl)
  rw [List.append_nil] at hvertex
  rw [readStatement_arrow hsource rfl (by rw [hskip]; exact hvertex), readLinks_end _ _ rfl]
  rfl

theorem readBars_append {label : List Char} (hlabel : '|' ∉ label) (rest : List Char) :
    readBars (label ++ '|' :: rest) =
      if label.any bracket then none else some (some label, rest) := by
  unfold readBars
  rw [readUpTo_append hlabel]
  rfl

/-- **An arrow with a text that holds neither bars nor brackets is read as one.** -/
theorem readStatement_labelled (hsource : IsId reserved source) (htarget : IsId reserved target)
    {label : List Char} (hlabel : '|' ∉ label) (hplain : label.any bracket = false) :
    readStatement reserved (' ' :: ' ' :: (source ++ ' ' :: '-' :: '-' :: '>' :: '|' ::
        (label ++ '|' :: ' ' :: target))) =
      some ⟨[⟨source, none⟩, ⟨target, none⟩], [⟨source, some label, target⟩]⟩ := by
  have hskip := (skipBlanks_id htarget.word []).2
  rw [List.append_nil] at hskip
  have hvertex : readVertex reserved (target ++ []) = some (⟨target, none⟩, []) :=
    readVertex_bare htarget (Or.inl rfl)
  rw [List.append_nil] at hvertex
  have harrow : readArrow ('-' :: '-' :: '>' :: '|' :: (label ++ '|' :: ' ' :: target)) =
      some (some label, ' ' :: target) := by
    have hread : readArrow ('-' :: '-' :: '>' :: '|' :: (label ++ '|' :: ' ' :: target)) =
        readBars (label ++ '|' :: ' ' :: target) := rfl
    rw [hread, readBars_append hlabel, hplain]
    rfl
  rw [readStatement_arrow hsource harrow (by rw [hskip]; exact hvertex), readLinks_end _ _ rfl]
  rfl

/-! ### Texts with bars and brackets in them -/

/-- An arrow that is not read. -/
theorem readStatement_stuck (hsource : IsId reserved source) {text : List Char}
    (harrow : readArrow ('-' :: text) = none) :
    readStatement reserved (' ' :: ' ' :: (source ++ ' ' :: '-' :: text)) = none := by
  have hskip : skipBlanks (' ' :: '-' :: text) = '-' :: text := rfl
  unfold readStatement
  rw [(skipBlanks_id hsource.word _).1, readVertex_bare hsource (Or.inr rfl)]
  dsimp only
  rw [List.length_cons, readLinks, hskip, if_neg (List.cons_ne_nil _ _), harrow]
  rfl

/-- **An arrow whose text holds a bracket and no bar is not read.** -/
theorem readStatement_bracketed (hsource : IsId reserved source) {label : List Char}
    (hlabel : '|' ∉ label) (hbracket : label.any bracket = true) (rest : List Char) :
    readStatement reserved (' ' :: ' ' :: (source ++ ' ' :: '-' :: '-' :: '>' :: '|' ::
      (label ++ '|' :: rest))) = none := by
  have hread : readArrow ('-' :: '-' :: '>' :: '|' :: (label ++ '|' :: rest)) =
      readBars (label ++ '|' :: rest) := rfl
  refine readStatement_stuck hsource ?_
  rw [hread, readBars_append hlabel, hbracket]
  rfl

theorem mem_dropWhile {p : Char → Bool} {c : Char} {text : List Char} (h : c ∈ text)
    (hc : p c = false) : c ∈ text.dropWhile p := by
  have hsplit := List.takeWhile_append_dropWhile (p := p) (l := text)
  rw [← hsplit] at h
  rcases List.mem_append.mp h with htake | hdrop
  · have hp := List.mem_takeWhile_imp htake
    rw [hc] at hp
    cases hp
  · exact hdrop

/-- Where something other than blanks is left, an arrow is read or nothing. -/
theorem readLinks_some {fuel : Nat} {text : List Char} {d : Diagram}
    (h : readLinks reserved fuel source text = some d) (hne : skipBlanks text ≠ []) :
    1 ≤ d.arrows.length := by
  cases fuel with
  | zero =>
      rw [readLinks, if_neg hne] at h
      cases h
  | succ fuel =>
      rw [readLinks, if_neg hne] at h
      split at h
      · cases h
      · split at h
        · cases h
        · obtain ⟨more, -, rfl⟩ := Option.map_eq_some_iff.mp h
          exact Nat.succ_le_succ (Nat.zero_le _)

/-- A bar that is left behind a vertex without quotes is not read with it. -/
theorem readVertex_bar {text rest : List Char} {vertex : Vertex} (hquote : '"' ∉ text)
    (hbar : '|' ∈ text) (h : readVertex reserved (skipBlanks text) = some (vertex, rest)) :
    '|' ∈ rest := by
  have hleft : '|' ∈ (skipBlanks text).dropWhile idChar :=
    mem_dropWhile (mem_dropWhile hbar (by decide)) (by decide)
  have hnone : '"' ∉ (skipBlanks text).dropWhile idChar := fun hmem =>
    hquote ((List.dropWhile_sublist _).mem ((List.dropWhile_sublist _).mem hmem))
  unfold readVertex at h
  split at h
  · cases h
  · obtain ⟨found, hfound, heq⟩ := Option.map_eq_some_iff.mp h
    obtain ⟨-, rfl⟩ := Prod.mk.inj heq
    unfold readText at hfound
    split at hfound
    · rename_i hquoted
      rw [hquoted] at hnone
      exact absurd (List.mem_cons_of_mem _ List.mem_cons_self) hnone
    · rw [← Option.some.inj hfound]
      exact hleft

/-- **An arrow whose text holds a bar is read as more than one arrow, or not at all.** -/
theorem readStatement_barred (hsource : IsId reserved source) {label rest : List Char}
    (hbar : '|' ∈ label) (hquote : '"' ∉ label ++ '|' :: rest) {d : Diagram}
    (h : readStatement reserved (' ' :: ' ' :: (source ++ ' ' :: '-' :: '-' :: '>' :: '|' ::
      (label ++ '|' :: rest))) = some d) : 2 ≤ d.arrows.length := by
  obtain ⟨front, back, hsplit, hcut⟩ := readUpTo_cut hbar
  have hread : readArrow ('-' :: '-' :: '>' :: '|' :: (label ++ '|' :: rest)) =
      if front.any bracket then none else some (some front, back ++ '|' :: rest) := by
    show readBars (label ++ '|' :: rest) = _
    unfold readBars
    rw [hcut]
    rfl
  have hbehind : '"' ∉ back ++ '|' :: rest := by
    intro hmem
    refine hquote ?_
    rw [hsplit, List.append_assoc]
    exact List.mem_append_right _ (List.mem_cons_of_mem _ hmem)
  by_cases hbracket : front.any bracket = true
  · rw [if_pos hbracket] at hread
    rw [readStatement_stuck hsource hread] at h
    cases h
  rw [if_neg hbracket] at hread
  cases hvertex : readVertex reserved (skipBlanks (back ++ '|' :: rest)) with
  | none =>
      exfalso
      have hskip : skipBlanks (' ' :: '-' :: '-' :: '>' :: '|' :: (label ++ '|' :: rest)) =
          '-' :: '-' :: '>' :: '|' :: (label ++ '|' :: rest) := rfl
      unfold readStatement at h
      rw [(skipBlanks_id hsource.word _).1, readVertex_bare hsource (Or.inr rfl)] at h
      dsimp only at h
      rw [List.length_cons, readLinks, hskip, if_neg (List.cons_ne_nil _ _), hread] at h
      dsimp only at h
      rw [hvertex] at h
      cases h
  | some found =>
      obtain ⟨vertex, left⟩ := found
      have hleft := readVertex_bar hbehind
        (List.mem_append_right _ List.mem_cons_self) hvertex
      rw [readStatement_arrow hsource hread hvertex] at h
      obtain ⟨more, hmore, rfl⟩ := Option.map_eq_some_iff.mp h
      have hne : skipBlanks left ≠ [] :=
        List.ne_nil_of_mem (mem_dropWhile hleft (by decide))
      have hone := readLinks_some hmore hne
      show 2 ≤ more.arrows.length + 1
      omega

/-! ### Diagrams -/

theorem readStatements_append {lines more : List (List Char)} {d d' : Diagram}
    (h : readStatements reserved lines = some d) (h' : readStatements reserved more = some d') :
    readStatements reserved (lines ++ more) = some (d.append d') := by
  induction lines generalizing d with
  | nil =>
      obtain rfl := Option.some.inj h
      exact h'
  | cons line rest ih =>
      rw [readStatements] at h
      split at h
      · rename_i d₁ d₂ hline hrest
        obtain rfl := Option.some.inj h
        rw [List.cons_append, readStatements, hline, ih hrest]
        simp only [Diagram.append, List.append_assoc]
      · cases h

/-- What is read is read in each of its parts. -/
theorem readStatements_split {lines more : List (List Char)} {d : Diagram}
    (h : readStatements reserved (lines ++ more) = some d) : ∃ d₁ d₂,
      readStatements reserved lines = some d₁ ∧ readStatements reserved more = some d₂ ∧
        d = d₁.append d₂ := by
  induction lines generalizing d with
  | nil => exact ⟨⟨[], []⟩, d, rfl, h, rfl⟩
  | cons line rest ih =>
      rw [List.cons_append, readStatements] at h
      split at h
      · rename_i d₁ d₂ hline hrest
        obtain rfl := Option.some.inj h
        obtain ⟨d₃, d₄, hfront, hback, rfl⟩ := ih hrest
        refine ⟨d₁.append d₃, d₄, ?_, hback, ?_⟩
        · rw [readStatements, hline, hfront]
        · simp only [Diagram.append, List.append_assoc]
      · cases h

theorem readStatement_of_mem {lines : List (List Char)} {d : Diagram}
    (h : readStatements reserved lines = some d) {line : List Char} (hline : line ∈ lines) :
    ∃ d', readStatement reserved line = some d' := by
  obtain ⟨front, back, rfl⟩ := List.append_of_mem hline
  obtain ⟨-, d₂, -, hback, -⟩ := readStatements_split h
  rw [readStatements] at hback
  split at hback
  · rename_i d' _ hread _
    exact ⟨d', hread⟩
  · cases hback

/-- The statements of a number of things, each of which is read. -/
theorem readStatements_map {α : Type} {line : α → List Char} {statement : α → Diagram}
    {items : List α}
    (h : ∀ item ∈ items, readStatement reserved (line item) = some (statement item)) :
    readStatements reserved (items.map line) =
      some ⟨items.flatMap fun item => (statement item).vertices,
        items.flatMap fun item => (statement item).arrows⟩ := by
  induction items with
  | nil => rfl
  | cons item rest ih =>
      rw [List.map_cons, readStatements, h item List.mem_cons_self,
        ih fun item hitem => h item (List.mem_cons_of_mem _ hitem)]
      rfl

/-- How many arrows are read, where each thing has one and one of them has more. -/
theorem length_arrows_lt {α : Type} {line : α → List Char} {items : List α}
    (hone : ∀ item ∈ items, ∀ d, readStatement reserved (line item) = some d → 1 ≤ d.arrows.length)
    {d : Diagram} (h : readStatements reserved (items.map line) = some d) :
    items.length ≤ d.arrows.length ∧
      ((∃ item ∈ items, ∀ d, readStatement reserved (line item) = some d → 2 ≤ d.arrows.length) →
        items.length < d.arrows.length) := by
  induction items generalizing d with
  | nil =>
      refine ⟨Nat.zero_le _, ?_⟩
      rintro ⟨item, hitem, -⟩
      exact absurd hitem List.not_mem_nil
  | cons item rest ih =>
      rw [List.map_cons, readStatements] at h
      split at h
      · rename_i d₁ d₂ hline hrest
        obtain rfl := Option.some.inj h
        obtain ⟨hle, hlt⟩ := ih (fun item hitem => hone item (List.mem_cons_of_mem _ hitem)) hrest
        have hfirst := hone item List.mem_cons_self d₁ hline
        have hlength : (d₁.append d₂).arrows.length = d₁.arrows.length + d₂.arrows.length :=
          List.length_append
        rw [hlength, List.length_cons]
        refine ⟨by omega, ?_⟩
        rintro ⟨other, hother, htwo⟩
        rcases List.mem_cons.mp hother with rfl | hother
        · have htwice := htwo d₁ hline
          omega
        · have hmore := hlt ⟨other, hother, htwo⟩
          omega
      · cases h

/-- A text of lines is read line by line. -/
theorem read_lines (header : List Char) {lines : List (List Char)}
    (h : ∀ line ∈ header :: lines, '\n' ∉ line) :
    read reserved header (['\n'].intercalate (header :: lines)) =
      readStatements reserved lines := by
  unfold read
  rw [List.splitOn_intercalate '\n' h (List.cons_ne_nil _ _)]
  exact if_pos rfl

end Flowchart
