/-
`JSON.parse`, and that it reads back what was written.

A text is read from the left: each function answers what it found and the text behind it.  The
characters of a string are read as code units, since an escape stands for one unit, and the units
are put together afterwards; half of a pair is no character, and a string with one is not read.
What number a literal denotes is left to `readNumber`, which answers the text JavaScript prints for
it.

Fuel bounds the nesting.  A value needs no more than twice its length, as no two calls are made at
one place without reading a character.
-/
import OpenLagrange.Lib.Table
import OpenLagrange.Util.CanonicalText

namespace OpenLagrange

/-! ### Strings -/

def jsonSpace (c : Char) : Bool := c = ' ' || c = '\t' || c = '\n' || c = '\r'

def skipSpace (text : List Char) : List Char := text.dropWhile jsonSpace

def hexValue? (c : Char) : Option Nat :=
  if '0' ≤ c ∧ c ≤ '9' then some (c.toNat - 48)
  else if 'a' ≤ c ∧ c ≤ 'f' then some (c.toNat - 87)
  else if 'A' ≤ c ∧ c ≤ 'F' then some (c.toNat - 55)
  else none

/-- The code unit that four hexadecimal digits denote. -/
def hexUnit? (a b c d : Char) : Option Nat := do
  let a ← hexValue? a
  let b ← hexValue? b
  let c ← hexValue? c
  let d ← hexValue? d
  some (4096 * a + 256 * b + 16 * c + d)

/-- The code unit that a letter after a backslash stands for. -/
def escapedUnit? : Char → Option Nat
  | '"' => some 34
  | '\\' => some 92
  | '/' => some 47
  | 'b' => some 8
  | 'f' => some 12
  | 'n' => some 10
  | 'r' => some 13
  | 't' => some 9
  | _ => none

/-- Units put in front of the ones that were read. -/
def withUnits (units : List Nat) (found : Option (List Nat × List Char)) :
    Option (List Nat × List Char) :=
  found.map fun found => (units ++ found.1, found.2)

/-- The code units up to the closing quote. -/
def readUnits : List Char → Option (List Nat × List Char)
  | [] => none
  | '"' :: rest => some ([], rest)
  | '\\' :: 'u' :: a :: b :: c :: d :: rest =>
      (hexUnit? a b c d).bind fun unit => withUnits [unit] (readUnits rest)
  | '\\' :: c :: rest => (escapedUnit? c).bind fun unit => withUnits [unit] (readUnits rest)
  | c :: rest =>
      if c = '\\' ∨ c.toNat < 0x20 then none else withUnits (charUnits c) (readUnits rest)

/-- The characters of code units. -/
def decodeUnits : List Nat → Option (List Char)
  | [] => some []
  | [unit] => if 0xD800 ≤ unit ∧ unit < 0xE000 then none else some [Char.ofNat unit]
  | high :: low :: rest =>
      if 0xD800 ≤ high ∧ high < 0xDC00 ∧ 0xDC00 ≤ low ∧ low < 0xE000 then
        (decodeUnits rest).map
          (Char.ofNat (0x10000 + (high - 0xD800) * 0x400 + (low - 0xDC00)) :: ·)
      else if 0xD800 ≤ high ∧ high < 0xE000 then none
      else (decodeUnits (low :: rest)).map (Char.ofNat high :: ·)

/-- A string behind its opening quote. -/
def readString (text : List Char) : Option (String × List Char) := do
  let (units, rest) ← readUnits text
  let chars ← decodeUnits units
  some (String.ofList chars, rest)

/-! ### Numbers -/

def literalChar (c : Char) : Bool := numberChar c || c = 'E'

def allDigits (text : List Char) : Bool := text ≠ [] && text.all Char.isDigit

/-- `0`, or digits of which the first is not zero. -/
def isWhole (text : List Char) : Bool := text = ['0'] || (allDigits text && text.head? ≠ some '0')

/-- Digits behind an optional sign. -/
def isExponent : List Char → Bool
  | '+' :: digits => allDigits digits
  | '-' :: digits => allDigits digits
  | digits => allDigits digits

/-- A number literal without its sign: the whole part, the fraction and the exponent. -/
def isUnsigned (text : List Char) : Bool :=
  let (mantissa, exponent) := text.span fun c => c ≠ 'e' && c ≠ 'E'
  let (whole, fraction) := mantissa.span fun c => c ≠ '.'
  isWhole whole && (fraction = [] || allDigits (fraction.drop 1)) &&
    (exponent = [] || isExponent (exponent.drop 1))

def isLiteral : List Char → Bool
  | '-' :: text => isUnsigned text
  | text => isUnsigned text

/-! ### Values -/

section Read

variable (readNumber : List Char → String)

/-- A number is the longest run of characters that numbers are written with. -/
def readLiteral (text : List Char) : Option (Value × List Char) :=
  if isLiteral (text.takeWhile literalChar) then
    some (.num (readNumber (text.takeWhile literalChar)), text.dropWhile literalChar)
  else none

def propertyName (field : String × Value) : String := field.1

/-- The properties of an object: a name that comes again is assigned again. -/
def properties (fields : List (String × Value)) : List (String × Value) :=
  (fields.foldl Table.Keyed.upsert (Table.Keyed.empty : Table.Keyed propertyName)).rows

/-- The name of a property and the colon behind it. -/
def readKey (text : List Char) : Option (String × List Char) :=
  match skipSpace text with
  | '"' :: rest =>
      (readString rest).bind fun found =>
        match skipSpace found.2 with
        | ':' :: after => some (found.1, after)
        | _ => none
  | _ => none

mutual

def readValue : Nat → List Char → Option (Value × List Char)
  | 0, _ => none
  | fuel + 1, text =>
      match skipSpace text with
      | '"' :: rest => (readString rest).map fun found => (.str found.1, found.2)
      | '[' :: rest =>
          match skipSpace rest with
          | ']' :: after => some (.arr [], after)
          | _ => (readItems fuel rest).map fun found => (.arr found.1, found.2)
      | '\x7b' :: rest =>
          match skipSpace rest with
          | '\x7d' :: after => some (.obj [], after)
          | _ => (readFields fuel rest).map fun found =>
              (.obj (properties found.1), found.2)
      | 'n' :: 'u' :: 'l' :: 'l' :: rest => some (.null, rest)
      | 't' :: 'r' :: 'u' :: 'e' :: rest => some (.bool true, rest)
      | 'f' :: 'a' :: 'l' :: 's' :: 'e' :: rest => some (.bool false, rest)
      | other => readLiteral readNumber other

/-- Items up to the closing bracket. -/
def readItems : Nat → List Char → Option (List Value × List Char)
  | 0, _ => none
  | fuel + 1, text =>
      (readValue fuel text).bind fun found =>
        match skipSpace found.2 with
        | ',' :: rest => (readItems fuel rest).map fun others => (found.1 :: others.1, others.2)
        | ']' :: after => some ([found.1], after)
        | _ => none

/-- Properties up to the closing brace, in the order they stand in. -/
def readFields : Nat → List Char → Option (List (String × Value) × List Char)
  | 0, _ => none
  | fuel + 1, text =>
      (readKey text).bind fun key =>
        (readValue fuel key.2).bind fun found =>
          match skipSpace found.2 with
          | ',' :: rest =>
              (readFields fuel rest).map fun others => ((key.1, found.1) :: others.1, others.2)
          | '\x7d' :: after => some ([(key.1, found.1)], after)
          | _ => none

end

/-- `JSON.parse(text)`; `none` where it throws. -/
def parseJson (text : List Char) : Option Value :=
  (readValue readNumber (2 * text.length + 2) text).bind fun found =>
    if skipSpace found.2 = [] then some found.1 else none

end Read

/-! ### JSON values -/

/-- A text that JavaScript prints for a number, and reads as that number. -/
def printedNumber (readNumber : List Char → String) (text : String) : Prop :=
  numberText text = true ∧ isLiteral text.toList = true ∧ readNumber text.toList = text

/-- What JSON has a text for: nothing undefined, and no name twice in an object. -/
inductive Value.IsJson (number : String → Prop) : Value → Prop
  | null : IsJson number .null
  | bool (b : Bool) : IsJson number (.bool b)
  | str (s : String) : IsJson number (.str s)
  | num (text : String) (printed : number text) : IsJson number (.num text)
  | arr (items : List Value) (json : ∀ v ∈ items, IsJson number v) : IsJson number (.arr items)
  | obj (fields : List (String × Value)) (distinct : (fields.map Prod.fst).Nodup)
      (json : ∀ f ∈ fields, IsJson number f.2) : IsJson number (.obj fields)

theorem Value.IsJson.mono {number number' : String → Prop} {v : Value} (h : v.IsJson number)
    (hnumber : ∀ text, number text → number' text) : v.IsJson number' := by
  induction h with
  | null => exact .null
  | bool b => exact .bool b
  | str s => exact .str s
  | num text printed => exact .num text (hnumber text printed)
  | arr items _ ih => exact .arr items ih
  | obj fields distinct _ ih => exact .obj fields distinct ih

theorem Value.IsJson.plain {v : Value} (h : v.IsJson (numberText · = true)) : v.plain = true := by
  induction h with
  | null | bool _ | str _ => rfl
  | num text printed => exact printed
  | arr items _ ih => exact plainItems_iff.mpr ih
  | obj fields _ _ ih => exact plainFields_iff.mpr ih

variable {readNumber : List Char → String}

theorem printedNumber.text (text : String) (h : printedNumber readNumber text) :
    numberText text = true := h.1

/-! ### Strings are read back -/

/-- What is written for a character that is escaped is read as its unit. -/
theorem readUnits_escaped (i : Fin 34) (rest : List Char) :
    readUnits ((jsonChar (escapedChar i)).toList ++ rest) =
      withUnits [(escapedChar i).toNat] (readUnits rest) := by
  fin_cases i <;> rfl

theorem escapedChar_lt (i : Fin 34) : (escapedChar i).toNat < 0x10000 := by
  revert i
  decide

theorem charUnits_small {c : Char} (h : c.toNat < 0x10000) : charUnits c = [c.toNat] := if_pos h

/-- What is written for a character is read as its units. -/
theorem readUnits_jsonChar (c : Char) (rest : List Char) :
    readUnits ((jsonChar c).toList ++ rest) = withUnits (charUnits c) (readUnits rest) := by
  by_cases hcontrol : c.toNat < 32
  · have hc : escapedChar ⟨c.toNat, by omega⟩ = c := by
      unfold escapedChar
      rw [if_pos hcontrol]
      exact Char.ofNat_toNat c
    rw [← hc, readUnits_escaped, charUnits_small (escapedChar_lt _)]
  · rcases escaped_or_plain c with ⟨i, rfl⟩ | ⟨hc, hquote, hslash⟩
    · rw [readUnits_escaped, charUnits_small (escapedChar_lt _)]
    · rw [hc, List.singleton_append, readUnits, if_neg]
      · exact not_or.mpr ⟨hslash, hcontrol⟩
      · exact hquote
      · intro a b c' d rest' hu
        exact absurd hu hslash
      · intro c' rest' hu
        exact absurd hu hslash

theorem readUnits_chars (chars rest : List Char) :
    readUnits (chars.flatMap (fun c => (jsonChar c).toList) ++ '"' :: rest) =
      some (chars.flatMap charUnits, rest) := by
  induction chars with
  | nil => simp only [List.flatMap_nil, List.nil_append, readUnits]
  | cons c chars ih =>
      rw [List.flatMap_cons, List.append_assoc, readUnits_jsonChar, ih]
      rfl

theorem decodeUnits_single {unit : Nat} {rest : List Nat}
    (h : ¬ (0xD800 ≤ unit ∧ unit < 0xE000)) :
    decodeUnits (unit :: rest) = (decodeUnits rest).map (Char.ofNat unit :: ·) := by
  cases rest with
  | nil =>
      conv_lhs => rw [decodeUnits, if_neg h]
      rfl
  | cons low rest =>
      rw [decodeUnits, if_neg, if_neg h]
      omega

theorem decodeUnits_pair {high low : Nat} {rest : List Nat} (hhigh : 0xD800 ≤ high ∧ high < 0xDC00)
    (hlow : 0xDC00 ≤ low ∧ low < 0xE000) :
    decodeUnits (high :: low :: rest) = (decodeUnits rest).map
      (Char.ofNat (0x10000 + (high - 0xD800) * 0x400 + (low - 0xDC00)) :: ·) := by
  rw [decodeUnits, if_pos ⟨hhigh.1, hhigh.2, hlow.1, hlow.2⟩]

theorem decodeUnits_charUnits (c : Char) (rest : List Nat) :
    decodeUnits (charUnits c ++ rest) = (decodeUnits rest).map (c :: ·) := by
  have hrange := char_range c
  unfold charUnits
  split
  · rw [List.singleton_append, decodeUnits_single (by omega), Char.ofNat_toNat]
  · have hsum : 0x10000 + (0xD800 + (c.toNat - 0x10000) / 0x400 - 0xD800) * 0x400 +
        (0xDC00 + (c.toNat - 0x10000) % 0x400 - 0xDC00) = c.toNat := by
      omega
    rw [List.cons_append, List.singleton_append, decodeUnits_pair (by omega) (by omega), hsum,
      Char.ofNat_toNat]

theorem decodeUnits_utf16 (chars : List Char) :
    decodeUnits (chars.flatMap charUnits) = some chars := by
  induction chars with
  | nil => rfl
  | cons c chars ih =>
      rw [List.flatMap_cons, decodeUnits_charUnits, ih]
      rfl

/-- **A string is read back behind its opening quote.** -/
theorem readString_chars (s : String) (rest : List Char) :
    readString (s.toList.flatMap (fun c => (jsonChar c).toList) ++ '"' :: rest) =
      some (s, rest) := by
  unfold readString
  simp only [readUnits_chars, decodeUnits_utf16, Option.bind_eq_bind, Option.bind_some,
    String.ofList_toList]

/-! ### Numbers are read back -/

/-- What follows a value: nothing that a literal could go on with. -/
def Ends (rest : List Char) : Prop := ∀ c others, rest = c :: others → literalChar c = false

theorem ends_nil : Ends [] := by
  intro c others h
  cases h

theorem ends_cons {c : Char} {rest : List Char} (h : literalChar c = false) : Ends (c :: rest) := by
  intro d others heq
  rw [← (List.cons.inj heq).1]
  exact h

theorem takeWhile_append_ends {run rest : List Char} (hrun : run.all literalChar = true)
    (hrest : Ends rest) : (run ++ rest).takeWhile literalChar = run ∧
      (run ++ rest).dropWhile literalChar = rest := by
  have hall : ∀ c ∈ run, literalChar c = true := List.all_eq_true.mp hrun
  have hstop : rest.takeWhile literalChar = [] ∧ rest.dropWhile literalChar = rest := by
    cases rest with
    | nil => exact ⟨rfl, rfl⟩
    | cons c others =>
        have hc := hrest c others rfl
        rw [List.takeWhile_cons_of_neg (by rw [hc]; exact Bool.false_ne_true),
          List.dropWhile_cons_of_neg (by rw [hc]; exact Bool.false_ne_true)]
        exact ⟨rfl, rfl⟩
  rw [List.takeWhile_append_of_pos hall, List.dropWhile_append_of_pos hall, hstop.1, hstop.2,
    List.append_nil]
  exact ⟨rfl, rfl⟩

theorem readLiteral_printed {text : String} (h : printedNumber readNumber text) {rest : List Char}
    (hrest : Ends rest) : readLiteral readNumber (text.toList ++ rest) = some (.num text, rest) := by
  obtain ⟨htext, hliteral, hread⟩ := h
  have hchars : text.toList.all literalChar = true := by
    unfold numberText at htext
    rw [Bool.and_eq_true, List.all_eq_true] at htext
    rw [List.all_eq_true]
    intro c hc
    unfold literalChar
    rw [htext.1 c hc, Bool.true_or]
  obtain ⟨htake, hdrop⟩ := takeWhile_append_ends hchars hrest
  unfold readLiteral
  rw [htake, hdrop, if_pos hliteral, hread]

/-! ### Values are read back -/

theorem skipSpace_cons {c : Char} {rest : List Char} (h : jsonSpace c = false) :
    skipSpace (c :: rest) = c :: rest :=
  List.dropWhile_cons_of_neg (by rw [h]; exact Bool.false_ne_true)

theorem jsonSpace_of_lead {c : Char} (h : leadKind c < 7) : jsonSpace c = false := by
  cases hspace : jsonSpace c with
  | false => rfl
  | true =>
      unfold jsonSpace at hspace
      simp only [Bool.or_eq_true, decide_eq_true_eq] at hspace
      rcases hspace with ((rfl | rfl) | rfl) | rfl <;> exact absurd h (by decide)

/-- A value is not preceded by space. -/
theorem skipSpace_chars {v : Value} (h : v.plain = true) (rest : List Char) :
    skipSpace (v.chars ++ rest) = v.chars ++ rest := by
  obtain ⟨c, others, hchars, hkind⟩ := chars_lead h
  rw [hchars, List.cons_append]
  refine skipSpace_cons (jsonSpace_of_lead ?_)
  rw [hkind]
  exact kind_lt h

theorem readKey_chars (key : String) (rest : List Char) :
    readKey ((jsonString key).toList ++ ':' :: rest) = some (key, rest) := by
  unfold readKey
  rw [jsonString_toList, List.cons_append, List.append_assoc, skipSpace_cons (by decide)]
  simp only [List.singleton_append, readString_chars, Option.bind_some]
  rw [skipSpace_cons (by decide)]
  rfl

/-- Properties of different names are all kept, in their order. -/
theorem properties_fields {fields : List (String × Value)} (h : (fields.map Prod.fst).Nodup) :
    properties fields = fields := by
  unfold properties
  rw [Table.Keyed.foldl_upsert_fresh]
  · rfl
  · exact h

theorem length_chars_pos {v : Value} (h : v.plain = true) : 0 < v.chars.length := by
  obtain ⟨c, others, hchars, -⟩ := chars_lead h
  rw [hchars]
  exact Nat.succ_pos _

/-- What a value's text is read as, with enough fuel. -/
def ReadBack (readNumber : List Char → String) (v : Value) : Prop :=
  ∀ fuel rest, 2 * v.chars.length ≤ fuel → Ends rest →
    readValue readNumber fuel (v.chars ++ rest) = some (v, rest)

theorem readItems_chars {item : Value} {items : List Value}
    (hall : ∀ v ∈ item :: items, ReadBack readNumber v) (fuel : Nat) (rest : List Char)
    (hfuel : 2 * (item.chars ++ itemChars items).length < fuel) :
    readItems readNumber fuel (item.chars ++ itemChars items ++ ']' :: rest) =
      some (item :: items, rest) := by
  induction items generalizing item fuel with
  | nil =>
      cases fuel with
      | zero => omega
      | succ fuel =>
          rw [itemChars, List.append_nil] at hfuel ⊢
          rw [readItems, hall item List.mem_cons_self fuel _ (by omega) (ends_cons (by decide)),
            Option.bind_some, skipSpace_cons (by decide)]
          rfl
  | cons next items ih =>
      cases fuel with
      | zero => omega
      | succ fuel =>
          rw [itemChars, List.length_append, List.length_cons] at hfuel
          have hrest := @ih next (fun v hv => hall v (List.mem_cons_of_mem _ hv)) fuel (by omega)
          rw [itemChars, List.append_assoc, List.cons_append, readItems,
            hall item List.mem_cons_self fuel _ (by omega) (ends_cons (by decide)),
            Option.bind_some, skipSpace_cons (by decide)]
          simp only [hrest, Option.map_some]

theorem readFields_chars {key : String} {value : Value} {fields : List (String × Value)}
    (hall : ∀ f ∈ (key, value) :: fields, ReadBack readNumber f.2) (fuel : Nat) (rest : List Char)
    (hfuel : 2 * (fieldText (key, value) ++ fieldChars fields).length < fuel) :
    readFields readNumber fuel (fieldText (key, value) ++ fieldChars fields ++ '\x7d' :: rest) =
      some ((key, value) :: fields, rest) := by
  induction fields generalizing key value fuel with
  | nil =>
      cases fuel with
      | zero => omega
      | succ fuel =>
          unfold fieldText at hfuel ⊢
          simp only [fieldChars, List.append_nil, List.length_append, List.length_cons] at hfuel
          have hvalue := hall _ List.mem_cons_self fuel ('\x7d' :: rest) (by
            show 2 * value.chars.length ≤ fuel
            omega) (ends_cons (by decide))
          simp only [fieldChars, List.append_nil, List.append_assoc, List.cons_append]
          rw [readFields, readKey_chars, Option.bind_some, hvalue, Option.bind_some,
            skipSpace_cons (by decide)]
          rfl
  | cons next fields ih =>
      obtain ⟨name, other⟩ := next
      cases fuel with
      | zero => omega
      | succ fuel =>
          have hcomma : fieldChars ((name, other) :: fields) =
              ',' :: (fieldText (name, other) ++ fieldChars fields) := rfl
          rw [hcomma, List.length_append, List.length_cons] at hfuel
          have hrest := @ih name other (fun f hf => hall f (List.mem_cons_of_mem _ hf)) fuel
            (by omega)
          have hlength : value.chars.length ≤ (fieldText (key, value)).length := by
            show value.chars.length ≤ ((jsonString key).toList ++ ':' :: value.chars).length
            rw [List.length_append, List.length_cons]
            omega
          have hvalue := hall _ List.mem_cons_self fuel
            (',' :: (fieldText (name, other) ++ fieldChars fields ++ '\x7d' :: rest)) (by
              show 2 * value.chars.length ≤ fuel
              omega) (ends_cons (by decide))
          rw [hcomma]
          have hsplit : fieldText (key, value) ++ ',' :: (fieldText (name, other) ++
              fieldChars fields) ++ '\x7d' :: rest = (jsonString key).toList ++ ':' ::
                (value.chars ++ ',' :: (fieldText (name, other) ++ fieldChars fields ++
                  '\x7d' :: rest)) := by
            unfold fieldText
            simp only [List.append_assoc, List.cons_append]
          rw [hsplit, readFields, readKey_chars, Option.bind_some, hvalue, Option.bind_some,
            skipSpace_cons (by decide)]
          simp only [hrest, Option.map_some]

/-- **What is written for a JSON value is read as that value, whatever follows it.** -/
theorem readValue_chars {v : Value} (h : v.IsJson (printedNumber readNumber)) : ReadBack readNumber v := by
  induction h with
  | null =>
      intro fuel rest hfuel _
      cases fuel with
      | zero => cases hfuel
      | succ fuel => rfl
  | bool b =>
      intro fuel rest hfuel _
      cases fuel with
      | zero => cases b <;> cases hfuel
      | succ fuel => cases b <;> rfl
  | str s =>
      intro fuel rest hfuel _
      cases fuel with
      | zero =>
          rw [Value.chars, jsonString_toList] at hfuel
          cases hfuel
      | succ fuel =>
          rw [Value.chars, jsonString_toList, List.cons_append, List.append_assoc,
            List.singleton_append, readValue, skipSpace_cons (by decide)]
          simp only [readString_chars, Option.map_some]
  | num text printed =>
      intro fuel rest hfuel hends
      have hplain : (Value.num text).plain = true := printed.1
      have hpos := length_chars_pos hplain
      cases fuel with
      | zero => omega
      | succ fuel =>
          -- a number begins as nothing else does
          obtain ⟨c, others, hchars, hkind⟩ := chars_lead hplain
          have hne : ∀ d, leadKind d ≠ 6 → c ≠ d := by
            intro d hd hcd
            exact hd (hcd ▸ hkind)
          have hread := readLiteral_printed printed hends
          have htext : text.toList = c :: others := hchars
          rw [readValue, skipSpace_chars hplain, Value.chars]
          rw [htext, List.cons_append] at hread ⊢
          split
          · rename_i heq
            exact absurd (List.cons.inj heq).1 (hne _ (by decide))
          · rename_i heq
            exact absurd (List.cons.inj heq).1 (hne _ (by decide))
          · rename_i heq
            exact absurd (List.cons.inj heq).1 (hne _ (by decide))
          · rename_i heq
            exact absurd (List.cons.inj heq).1 (hne _ (by decide))
          · rename_i heq
            exact absurd (List.cons.inj heq).1 (hne _ (by decide))
          · rename_i heq
            exact absurd (List.cons.inj heq).1 (hne _ (by decide))
          · exact hread
  | arr items json ih =>
      intro fuel rest hfuel _
      cases items with
      | nil =>
          cases fuel with
          | zero => cases hfuel
          | succ fuel => rfl
      | cons item items =>
          cases fuel with
          | zero => cases hfuel
          | succ fuel =>
              have hplain := ((json item List.mem_cons_self).mono printedNumber.text).plain
              have hopen : (Value.arr (item :: items)).chars ++ rest =
                  '[' :: (item.chars ++ itemChars items ++ ']' :: rest) := by
                rw [Value.chars, List.cons_append, List.append_assoc, List.singleton_append]
              have hclose : ∀ after, item.chars ++ itemChars items ++ ']' :: rest ≠ ']' :: after := by
                intro after
                rw [List.append_assoc]
                exact chars_ne_close hplain (by decide)
              have hitems := readItems_chars ih fuel rest (by
                rw [Value.chars, List.length_cons, List.length_append] at hfuel
                omega)
              rw [hopen, readValue, skipSpace_cons (by decide)]
              simp only
              rw [List.append_assoc, skipSpace_chars hplain, ← List.append_assoc]
              split
              · rename_i after heq
                exact absurd heq (hclose after)
              · rw [hitems]
                rfl
  | obj fields distinct json ih =>
      intro fuel rest hfuel _
      cases fields with
      | nil =>
          cases fuel with
          | zero => cases hfuel
          | succ fuel => rfl
      | cons field fields =>
          obtain ⟨key, value⟩ := field
          cases fuel with
          | zero => cases hfuel
          | succ fuel =>
              have hwhole : (Value.obj ((key, value) :: fields)).chars =
                  '\x7b' :: (fieldText (key, value) ++ fieldChars fields ++ ['\x7d']) := rfl
              have hopen : (Value.obj ((key, value) :: fields)).chars ++ rest =
                  '\x7b' :: (fieldText (key, value) ++ fieldChars fields ++ '\x7d' :: rest) := by
                rw [hwhole, List.cons_append, List.append_assoc, List.singleton_append]
              have hquote : ∃ others, fieldText (key, value) ++ fieldChars fields ++ '\x7d' :: rest =
                  '"' :: others := by
                unfold fieldText
                rw [jsonString_toList]
                exact ⟨_, rfl⟩
              have hfields := readFields_chars ih fuel rest (by
                rw [hwhole, List.length_cons, List.length_append] at hfuel
                omega)
              obtain ⟨others, hothers⟩ := hquote
              rw [hothers] at hopen hfields
              rw [hopen, readValue, skipSpace_cons (by decide)]
              simp only
              rw [skipSpace_cons (by decide)]
              simp only [hfields, Option.map_some, properties_fields distinct]
              rfl

/-- **JSON.parse reads what was written as the value it was written for.** -/
theorem parseJson_chars {v : Value} (h : v.IsJson (printedNumber readNumber)) :
    parseJson readNumber v.chars = some v := by
  have hread := readValue_chars h (2 * v.chars.length + 2) [] (by omega) ends_nil
  rw [List.append_nil] at hread
  unfold parseJson
  rw [hread]
  rfl

end OpenLagrange
