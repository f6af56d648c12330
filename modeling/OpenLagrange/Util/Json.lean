/-
`JSON.stringify`, and what its text says about a value.

`jsonStringify` keeps the order of an object's properties and leaves the undefined ones out;
the canonical text of a value is the text of the value with all properties sorted.

The text of plain data determines the data.  Strings are written in a prefix-free code up
to the closing quote, and the items of an array and the properties of an object are set off
by commas, so all of it can be read back from the left.  What is not plain is lost in the
text: `undefined`, functions, and the numbers JSON has no text for.
-/
import OpenLagrange.Util.Text
import OpenLagrange.Lib.PrefixCode

namespace OpenLagrange

mutual

/-- `JSON.stringify(value)`; `none` where JavaScript answers `undefined`. -/
def jsonStringify : Value → Option String
  | .undefined => none
  | .null => some "null"
  | .bool b => some (if b then "true" else "false")
  | .num text => some (jsonNumber text)
  | .str s => some (jsonString s)
  | .arr items => some ("[" ++ ",".intercalate (jsonItems items) ++ "]")
  | .obj fields => some ("\x7b" ++ ",".intercalate (jsonFields fields) ++ "\x7d")
  | .native name => if name = "__proto__" then some "\x7b\x7d" else none

def jsonItems : List Value → List String
  | [] => []
  | item :: rest => (jsonStringify item).getD "null" :: jsonItems rest

def jsonFields : List (String × Value) → List String
  | [] => []
  | (key, value) :: rest =>
      match jsonStringify value with
      | some text => (jsonString key ++ ":" ++ text) :: jsonFields rest
      | none => jsonFields rest

end

/-- `JSON.stringify(left) === JSON.stringify(right)`. -/
def sameJson (left right : Value) : Bool := jsonStringify left = jsonStringify right

/-! ### Plain data -/

/-- A character a number can be written with. -/
def numberChar (c : Char) : Bool := c.isDigit || c = '-' || c = '+' || c = '.' || c = 'e'

/-- A number JSON has a text for. -/
def numberText (text : String) : Bool := text.toList.all numberChar && text ≠ ""

mutual

/-- JSON data: nothing undefined, and no number without a text. -/
def Value.plain : Value → Bool
  | .null | .bool _ | .str _ => true
  | .num text => numberText text
  | .arr items => plainItems items
  | .obj fields => plainFields fields
  | .undefined | .native _ => false

def plainItems : List Value → Bool
  | [] => true
  | item :: rest => item.plain && plainItems rest

def plainFields : List (String × Value) → Bool
  | [] => true
  | (_, value) :: rest => value.plain && plainFields rest

end

theorem plainItems_iff {items : List Value} : plainItems items = true ↔ ∀ v ∈ items, v.plain = true := by
  induction items with
  | nil => simp [plainItems]
  | cons item rest ih => simp [plainItems, ih]

theorem plainFields_iff {fields : List (String × Value)} :
    plainFields fields = true ↔ ∀ f ∈ fields, f.2.plain = true := by
  induction fields with
  | nil => simp [plainFields]
  | cons field rest ih =>
      obtain ⟨key, value⟩ := field
      simp [plainFields, ih]

@[simp] theorem plain_strings (items : List String) : (strings items).plain = true := by
  unfold strings
  rw [Value.plain, plainItems_iff]
  intro v hv
  obtain ⟨s, -, rfl⟩ := List.mem_map.mp hv
  rfl

/-! ### The text of plain data, as characters -/

mutual

/-- The characters of the text of a plain value. -/
def Value.chars : Value → List Char
  | .null => "null".toList
  | .bool b => (if b then "true" else "false").toList
  | .num text => text.toList
  | .str s => (jsonString s).toList
  | .arr [] => ['[', ']']
  | .arr (item :: rest) => '[' :: (item.chars ++ itemChars rest ++ [']'])
  | .obj [] => ['\x7b', '\x7d']
  | .obj ((key, value) :: rest) =>
      '\x7b' :: ((jsonString key).toList ++ ':' :: value.chars ++ fieldChars rest ++ ['\x7d'])
  | .undefined | .native _ => []

def itemChars : List Value → List Char
  | [] => []
  | item :: rest => ',' :: (item.chars ++ itemChars rest)

def fieldChars : List (String × Value) → List Char
  | [] => []
  | (key, value) :: rest => ',' :: ((jsonString key).toList ++ ':' :: value.chars ++ fieldChars rest)

end

/-- One property as it is written. -/
def fieldText (field : String × Value) : List Char :=
  (jsonString field.1).toList ++ ':' :: field.2.chars

theorem itemChars_eq (items : List Value) :
    itemChars items = PrefixCode.separated ',' Value.chars items := by
  induction items with
  | nil => rfl
  | cons item rest ih =>
      rw [itemChars, ih]
      rfl

theorem fieldChars_eq (fields : List (String × Value)) :
    fieldChars fields = PrefixCode.separated ',' fieldText fields := by
  induction fields with
  | nil => rfl
  | cons field rest ih =>
      obtain ⟨key, value⟩ := field
      rw [fieldChars, ih]
      rfl

/-- The pieces of a list joined by commas, the first one on its own. -/
theorem intercalate_chars {α : Type} {text : α → String} {print : α → List Char}
    (first : α) (rest : List α) (h : ∀ a ∈ first :: rest, (text a).toList = print a) :
    (",".intercalate ((first :: rest).map text)).toList =
      print first ++ PrefixCode.separated ',' print rest := by
  induction rest generalizing first with
  | nil =>
      rw [List.map_cons, List.map_nil, String.intercalate_singleton, h first List.mem_cons_self]
      simp [PrefixCode.separated]
  | cons next rest ih =>
      have hnext := ih next fun a ha => h a (List.mem_cons_of_mem _ ha)
      rw [List.map_cons] at hnext
      rw [List.map_cons, List.map_cons, String.intercalate_cons_cons, String.toList_append, String.toList_append, hnext,
        h first List.mem_cons_self]
      simp [PrefixCode.separated]

theorem jsonNumber_of_numberText {text : String} (h : numberText text = true) :
    jsonNumber text = text := by
  unfold jsonNumber
  rw [if_neg]
  rintro (rfl | rfl | rfl) <;> revert h <;> decide

mutual

/-- **The text of a plain value is its characters.** -/
theorem jsonStringify_plain : ∀ v : Value, v.plain = true →
    jsonStringify v = some (String.ofList v.chars)
  | .null, _ => by simp [jsonStringify, Value.chars]
  | .bool b, _ => by simp [jsonStringify, Value.chars]
  | .num text, h => by
      have htext : numberText text = true := h
      simp [jsonStringify, Value.chars, jsonNumber_of_numberText htext]
  | .str s, _ => by simp [jsonStringify, Value.chars]
  | .arr [], _ => by
      rw [jsonStringify, Value.chars]
      rfl
  | .arr (first :: rest), h => by
      have htexts := jsonItems_plain (first :: rest) h
      have hjoin := @intercalate_chars Value (fun v => String.ofList v.chars) Value.chars
        first rest fun v _ => String.toList_ofList
      rw [jsonStringify, htexts, Value.chars, itemChars_eq, Option.some.injEq, ← String.toList_inj,
        String.toList_append, String.toList_append, hjoin]
      simp
  | .obj [], _ => by
      rw [jsonStringify, Value.chars]
      rfl
  | .obj (first :: rest), h => by
      have htexts := jsonFields_plain (first :: rest) h
      have hjoin := @intercalate_chars (String × Value)
        (fun f => jsonString f.1 ++ ":" ++ String.ofList f.2.chars) fieldText
        first rest fun f _ => by simp [fieldText]
      obtain ⟨key, value⟩ := first
      rw [jsonStringify, htexts, Value.chars, fieldChars_eq, Option.some.injEq, ← String.toList_inj,
        String.toList_append, String.toList_append, hjoin, String.toList_ofList]
      simp [fieldText]
  | .undefined, h | .native _, h => by cases h

theorem jsonItems_plain : ∀ items : List Value, plainItems items = true →
    jsonItems items = items.map fun v => String.ofList v.chars
  | [], _ => rfl
  | item :: rest, h => by
      simp only [plainItems, Bool.and_eq_true] at h
      rw [jsonItems, jsonStringify_plain item h.1, jsonItems_plain rest h.2]
      rfl

theorem jsonFields_plain : ∀ fields : List (String × Value), plainFields fields = true →
    jsonFields fields = fields.map fun f => jsonString f.1 ++ ":" ++ String.ofList f.2.chars
  | [], _ => rfl
  | (key, value) :: rest, h => by
      simp only [plainFields, Bool.and_eq_true] at h
      rw [jsonFields, jsonStringify_plain value h.1, jsonFields_plain rest h.2]
      rfl

end

/-! ### Reading strings back -/

/-- The characters that are written as an escape. -/
def escapedChar (i : Fin 34) : Char :=
  if i.val < 32 then Char.ofNat i.val else if i.val = 32 then '"' else '\\'

theorem escaped_or_plain (c : Char) :
    (∃ i, escapedChar i = c) ∨ ((jsonChar c).toList = [c] ∧ c ≠ '"' ∧ c ≠ '\\') := by
  by_cases hquote : c = '"'
  · exact Or.inl ⟨32, hquote.symm⟩
  by_cases hslash : c = '\\'
  · exact Or.inl ⟨33, hslash.symm⟩
  by_cases hcontrol : c.toNat < 32
  · refine Or.inl ⟨⟨c.toNat, by omega⟩, ?_⟩
    unfold escapedChar
    rw [if_pos hcontrol]
    exact Char.ofNat_toNat c
  · refine Or.inr ⟨?_, hquote, hslash⟩
    unfold jsonChar
    rw [if_neg hquote, if_neg hslash, if_neg (by omega), if_neg (by omega), if_neg (by omega),
      if_neg (by omega), if_neg (by omega), if_neg (by omega)]
    simp

theorem escaped_head (i : Fin 34) : ∃ rest, (jsonChar (escapedChar i)).toList = '\\' :: rest := by
  have hhead : ∀ i, (jsonChar (escapedChar i)).toList.head? = some '\\' := by decide
  obtain ⟨rest, h⟩ := List.head?_eq_some_iff.mp (hhead i)
  exact ⟨rest, h⟩

set_option maxRecDepth 10000 in
theorem escaped_free : ∀ i j : Fin 34,
    (jsonChar (escapedChar i)).toList.isPrefixOf (jsonChar (escapedChar j)).toList = true →
      i = j := by decide

/-- The characters of a JSON string are a prefix-free code. -/
theorem jsonChar_free (c d : Char) : PrefixCode.Free (fun c => (jsonChar c).toList) c d := by
  intro hprefix
  have h : (jsonChar c).toList <+: (jsonChar d).toList := hprefix
  rcases escaped_or_plain c with ⟨i, rfl⟩ | ⟨hc, -, hslash⟩
  · rcases escaped_or_plain d with ⟨j, rfl⟩ | ⟨hd, -, hslash⟩
    · rw [escaped_free i j (List.isPrefixOf_iff_prefix.mpr h)]
    · obtain ⟨rest, hi⟩ := escaped_head i
      rw [hi, hd, List.cons_prefix_cons] at h
      exact absurd h.1.symm hslash
  · rcases escaped_or_plain d with ⟨j, rfl⟩ | ⟨hd, -, -⟩
    · obtain ⟨rest, hj⟩ := escaped_head j
      rw [hc, hj, List.cons_prefix_cons] at h
      exact absurd h.1 hslash
    · rw [hc, hd, List.cons_prefix_cons] at h
      exact h.1

theorem jsonChar_head (c : Char) : ∃ d rest, (jsonChar c).toList = d :: rest ∧ d ≠ '"' := by
  rcases escaped_or_plain c with ⟨i, rfl⟩ | ⟨hc, hquote, -⟩
  · obtain ⟨rest, hi⟩ := escaped_head i
    exact ⟨_, rest, hi, by decide⟩
  · exact ⟨c, [], hc, hquote⟩

theorem jsonString_toList (s : String) :
    (jsonString s).toList = '"' :: (s.toList.flatMap (fun c => (jsonChar c).toList) ++ ['"']) := by
  unfold jsonString
  rw [String.toList_append, String.toList_append, String.toList_join, List.flatMap_map]
  rfl

/-- **A JSON string, and what follows it, can be read back.** -/
theorem jsonString_splits (follows : List Char → Prop) (a b : String) :
    PrefixCode.Splits follows (fun s => (jsonString s).toList) a b := by
  intro s t _ _ h
  simp only [jsonString_toList, List.cons_append, List.append_assoc, List.nil_append,
    List.cons.injEq, true_and] at h
  obtain ⟨hab, hst⟩ := PrefixCode.body_unique jsonChar_free jsonChar_head h
  exact ⟨String.toList_inj.mp hab, hst⟩

/-! ### Reading values back -/

/-- What follows a value: nothing that could still belong to a number. -/
def Follows (s : List Char) : Prop := ∀ c rest, s = c :: rest → numberChar c = false

theorem follows_nil : Follows [] := by
  intro c rest h
  cases h

theorem follows_cons {c : Char} {rest : List Char} (h : numberChar c = false) : Follows (c :: rest) := by
  intro d rest' heq
  rw [← (List.cons.inj heq).1]
  exact h

/-- What kind of value a character begins. -/
def leadKind (c : Char) : Nat :=
  if c = 'n' then 0 else if c = 't' then 1 else if c = 'f' then 2 else if c = '"' then 3
  else if c = '[' then 4 else if c = '\x7b' then 5 else if numberChar c then 6 else 7

def Value.kind : Value → Nat
  | .null => 0
  | .bool true => 1
  | .bool false => 2
  | .str _ => 3
  | .arr _ => 4
  | .obj _ => 5
  | .num _ => 6
  | .undefined | .native _ => 7

theorem leadKind_number {c : Char} (h : numberChar c = true) : leadKind c = 6 := by
  have hne : ∀ d : Char, numberChar d = false → c ≠ d := by
    rintro d hd rfl
    rw [h] at hd
    cases hd
  unfold leadKind
  rw [if_neg (hne 'n' (by decide)), if_neg (hne 't' (by decide)), if_neg (hne 'f' (by decide)),
    if_neg (hne '"' (by decide)), if_neg (hne '[' (by decide)), if_neg (hne '\x7b' (by decide)),
    if_pos h]

/-- The first character of a plain value says of what kind it is. -/
theorem chars_lead : ∀ {v : Value}, v.plain = true →
    ∃ c rest, v.chars = c :: rest ∧ leadKind c = v.kind
  | .null, _ => ⟨'n', _, rfl, rfl⟩
  | .bool true, _ => ⟨'t', _, rfl, rfl⟩
  | .bool false, _ => ⟨'f', _, rfl, rfl⟩
  | .str s, _ => ⟨'"', _, jsonString_toList s, rfl⟩
  | .arr [], _ | .arr (_ :: _), _ => ⟨'[', _, rfl, rfl⟩
  | .obj [], _ | .obj ((_, _) :: _), _ => ⟨'\x7b', _, rfl, rfl⟩
  | .num text, h => by
      have htext : numberText text = true := h
      simp only [numberText, Bool.and_eq_true, decide_eq_true_eq] at htext
      cases hchars : text.toList with
      | nil => exact absurd (String.toList_eq_nil_iff.mp hchars) htext.2
      | cons c rest =>
          refine ⟨c, rest, hchars, leadKind_number ?_⟩
          exact List.all_eq_true.mp htext.1 c (hchars ▸ List.mem_cons_self)

theorem kind_lt {v : Value} (h : v.plain = true) : v.kind < 7 := by
  cases v with
  | bool b => cases b <;> decide
  | undefined => cases h
  | native _ => cases h
  | null | str _ | arr _ | obj _ | num _ => simp [Value.kind]

/-- A plain value does not begin with a character that closes an array or an object. -/
theorem chars_ne_close {v : Value} (h : v.plain = true) {close : Char} (hclose : leadKind close = 7)
    {s t : List Char} : v.chars ++ s ≠ close :: t := by
  intro heq
  obtain ⟨c, rest, hchars, hkind⟩ := chars_lead h
  rw [hchars] at heq
  have hc : c = close := (List.cons.inj heq).1
  have hlt := kind_lt h
  rw [← hkind, hc, hclose] at hlt
  omega

/-- Numbers end where a character follows that no number contains. -/
theorem number_splits {a b s t : List Char} (ha : a.all numberChar = true)
    (hb : b.all numberChar = true) (hs : Follows s) (ht : Follows t) (h : a ++ s = b ++ t) :
    a = b ∧ s = t := by
  induction a generalizing b with
  | nil =>
      cases b with
      | nil => exact ⟨rfl, h⟩
      | cons d b =>
          have hd := hs d (b ++ t) h
          simp only [List.all_cons, Bool.and_eq_true] at hb
          rw [hb.1] at hd
          cases hd
  | cons c a ih =>
      cases b with
      | nil =>
          have hc := ht c (a ++ s) h.symm
          simp only [List.all_cons, Bool.and_eq_true] at ha
          rw [ha.1] at hc
          cases hc
      | cons d b =>
          simp only [List.all_cons, Bool.and_eq_true] at ha hb
          obtain ⟨hcd, hrest⟩ := List.cons.inj h
          obtain ⟨hab, hst⟩ := ih ha.2 hb.2 hrest
          exact ⟨by rw [hcd, hab], hst⟩

/-- A property splits where its value does. -/
theorem fieldText_splits {f g : String × Value}
    (h : PrefixCode.Splits Follows Value.chars f.2 g.2) :
    PrefixCode.Splits Follows fieldText f g := by
  intro s t hs ht htext
  simp only [fieldText, List.append_assoc, List.cons_append] at htext
  obtain ⟨hkey, hrest⟩ := jsonString_splits (fun _ => True) f.1 g.1 _ _ trivial trivial htext
  obtain ⟨hvalue, hst⟩ := h s t hs ht (List.cons.inj hrest).2
  exact ⟨Prod.ext hkey hvalue, hst⟩

theorem follows_comma (s : List Char) : Follows (',' :: s) := follows_cons (by decide)

theorem follows_bracket (s : List Char) : Follows (']' :: s) := follows_cons (by decide)

theorem follows_brace (s : List Char) : Follows ('\x7d' :: s) := follows_cons (by decide)

/-- An array can be read back when its items can. -/
theorem arr_splits {items items' : List Value} (hitems : plainItems items = true)
    (hitems' : plainItems items' = true)
    (hsplits : ∀ v ∈ items, ∀ w ∈ items', PrefixCode.Splits Follows Value.chars v w)
    {s t : List Char} (h : (Value.arr items).chars ++ s = (Value.arr items').chars ++ t) :
    items = items' ∧ s = t := by
  have hnext : ∀ (l : List Value) (s : List Char),
      Follows (PrefixCode.separated ',' Value.chars l ++ ']' :: s) := by
    intro l s
    cases l with
    | nil => exact follows_bracket s
    | cons v l => exact follows_comma _
  cases items with
  | nil =>
      cases items' with
      | nil => exact ⟨rfl, List.append_cancel_left h⟩
      | cons item' rest' =>
          simp only [plainItems, Bool.and_eq_true] at hitems'
          simp only [Value.chars, List.cons_append, List.append_assoc, List.cons.injEq, true_and] at h
          exact absurd h.symm (chars_ne_close hitems'.1 (by decide))
  | cons item rest =>
      simp only [plainItems, Bool.and_eq_true] at hitems
      cases items' with
      | nil =>
          simp only [Value.chars, List.cons_append, List.append_assoc, List.cons.injEq, true_and] at h
          exact absurd h (chars_ne_close hitems.1 (by decide))
      | cons item' rest' =>
          simp only [Value.chars, List.cons_append, List.append_assoc, List.cons.injEq, true_and,
            List.nil_append, itemChars_eq] at h
          obtain ⟨hitem, htail⟩ := hsplits item List.mem_cons_self item' List.mem_cons_self _ _
            (hnext rest s) (hnext rest' t) h
          obtain ⟨hrest, hst⟩ := PrefixCode.separated_unique (by decide) follows_comma follows_bracket
            (fun v hv w hw => hsplits v (List.mem_cons_of_mem _ hv) w (List.mem_cons_of_mem _ hw)) htail
          exact ⟨by rw [hitem, hrest], hst⟩

/-- An object can be read back when the values of its properties can. -/
theorem obj_splits {fields fields' : List (String × Value)}
    (hsplits : ∀ f ∈ fields, ∀ g ∈ fields', PrefixCode.Splits Follows Value.chars f.2 g.2)
    {s t : List Char} (h : (Value.obj fields).chars ++ s = (Value.obj fields').chars ++ t) :
    fields = fields' ∧ s = t := by
  have hnext : ∀ (l : List (String × Value)) (s : List Char),
      Follows (PrefixCode.separated ',' fieldText l ++ '\x7d' :: s) := by
    intro l s
    cases l with
    | nil => exact follows_brace s
    | cons f l => exact follows_comma _
  rcases fields with - | ⟨⟨key, value⟩, rest⟩
  · rcases fields' with - | ⟨⟨key', value'⟩, rest'⟩
    · exact ⟨rfl, List.append_cancel_left h⟩
    · simp [Value.chars, jsonString_toList] at h
  · rcases fields' with - | ⟨⟨key', value'⟩, rest'⟩
    · simp [Value.chars, jsonString_toList] at h
    · simp only [Value.chars, List.cons_append, List.append_assoc, List.cons.injEq, true_and,
        List.nil_append, fieldChars_eq] at h
      have hfield : fieldText (key, value) ++ (PrefixCode.separated ',' fieldText rest ++ '\x7d' :: s) =
          fieldText (key', value') ++ (PrefixCode.separated ',' fieldText rest' ++ '\x7d' :: t) := by
        simpa [fieldText] using h
      obtain ⟨hpair, htail⟩ :=
        fieldText_splits (hsplits (key, value) List.mem_cons_self (key', value') List.mem_cons_self) _ _
          (hnext rest s) (hnext rest' t) hfield
      obtain ⟨hrest, hst⟩ := PrefixCode.separated_unique (by decide) follows_comma follows_brace
        (fun f hf g hg => fieldText_splits
          (hsplits f (List.mem_cons_of_mem _ hf) g (List.mem_cons_of_mem _ hg))) htail
      exact ⟨by rw [hpair, hrest], hst⟩

/-- **A plain value, and what follows it, can be read back.** -/
theorem chars_splits (v : Value) (hv : v.plain = true) (w : Value) (hw : w.plain = true) :
    PrefixCode.Splits Follows Value.chars v w := by
  intro s t hs ht h
  obtain ⟨c, cs, hcs, hc⟩ := chars_lead hv
  obtain ⟨d, ds, hds, hd⟩ := chars_lead hw
  have hkind : v.kind = w.kind := by
    rw [hcs, hds] at h
    rw [← hc, ← hd, (List.cons.inj h).1]
  cases v with
  | undefined => cases hv
  | native _ => cases hv
  | null =>
      cases w with
      | null => exact ⟨rfl, List.append_cancel_left h⟩
      | bool b => cases b <;> cases hkind
      | _ => cases hkind
  | bool b =>
      have hw' : w = .bool b := by
        cases b <;> cases w with
        | bool b' => cases b' <;> first | rfl | cases hkind
        | _ => cases hkind
      subst hw'
      exact ⟨rfl, List.append_cancel_left h⟩
  | num text =>
      cases w with
      | num text' =>
          have ha : numberText text = true := hv
          have hb : numberText text' = true := hw
          simp only [numberText, Bool.and_eq_true] at ha hb
          obtain ⟨htexts, hst⟩ := number_splits ha.1 hb.1 hs ht h
          exact ⟨by rw [String.toList_inj.mp htexts], hst⟩
      | bool b => cases b <;> cases hkind
      | _ => cases hkind
  | str a =>
      cases w with
      | str b =>
          obtain ⟨hab, hst⟩ := jsonString_splits Follows a b s t hs ht h
          exact ⟨by rw [hab], hst⟩
      | bool b => cases b <;> cases hkind
      | _ => cases hkind
  | arr items =>
      cases w with
      | arr items' =>
          obtain ⟨heq, hst⟩ := arr_splits hv hw (fun v hmem w hmem' => chars_splits v
            (plainItems_iff.mp hv v hmem) w (plainItems_iff.mp hw w hmem')) h
          exact ⟨by rw [heq], hst⟩
      | bool b => cases b <;> cases hkind
      | _ => cases hkind
  | obj fields =>
      cases w with
      | obj fields' =>
          obtain ⟨heq, hst⟩ := obj_splits (fun f hmem g hmem' => chars_splits f.2
            (plainFields_iff.mp hv f hmem) g.2 (plainFields_iff.mp hw g hmem')) h
          exact ⟨by rw [heq], hst⟩
      | bool b => cases b <;> cases hkind
      | _ => cases hkind
termination_by sizeOf v
decreasing_by
  · have hlt := List.sizeOf_lt_of_mem hmem
    subst_vars
    simp only [Value.arr.sizeOf_spec]
    omega
  · have hlt := List.sizeOf_lt_of_mem hmem
    subst_vars
    obtain ⟨key, value⟩ := f
    simp only [Value.obj.sizeOf_spec, Prod.mk.sizeOf_spec] at hlt ⊢
    omega

/-- **Plain values with the same text are the same.** -/
theorem jsonStringify_injective {v w : Value} (hv : v.plain = true) (hw : w.plain = true)
    (h : jsonStringify v = jsonStringify w) : v = w := by
  rw [jsonStringify_plain v hv, jsonStringify_plain w hw, Option.some.injEq, String.ofList_inj] at h
  have htexts : v.chars ++ [] = w.chars ++ [] := by rw [h]
  exact (chars_splits v hv w hw [] [] follows_nil follows_nil htexts).1

/-- On plain values, having the same text is being the same. -/
theorem sameJson_iff {v w : Value} (hv : v.plain = true) (hw : w.plain = true) :
    sameJson v w = true ↔ v = w := by
  unfold sameJson
  rw [decide_eq_true_eq]
  exact ⟨jsonStringify_injective hv hw, fun h => by rw [h]⟩

end OpenLagrange
