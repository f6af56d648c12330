/-
Lists of names and values as a query writes them.

A name and its value are written byte by byte, a byte as its letter, as a plus for a blank, or as
a percent sign and two digits; an equals sign stands between the two and an ampersand between two
pairs.  None of the three begins a byte, so the list can be read back.
-/
import OpenLagrange.Lib.PrefixCode

namespace FormEncoding

def utf8 (text : String) : List UInt8 := text.toByteArray.data.toList

def hexDigit (n : Nat) : Char := ['0', '1', '2', '3', '4', '5', '6', '7', '8', '9', 'A', 'B', 'C',
  'D', 'E', 'F'].getD n '0'

/-- The letters that are written as they are. -/
def plainByte (n : Nat) : Bool :=
  (48 ≤ n && n ≤ 57) || (65 ≤ n && n ≤ 90) || (97 ≤ n && n ≤ 122) || [42, 45, 46, 95].contains n

def formByte (n : Nat) : List Char :=
  if n = 32 then ['+']
  else if plainByte n then [Char.ofNat n]
  else ['%', hexDigit (n / 16), hexDigit (n % 16)]

def formText (text : String) : List Char := (utf8 text).flatMap fun byte => formByte byte.toNat

def formPair (pair : String × String) : List Char := formText pair.1 ++ '=' :: formText pair.2

/-- The pairs, joined by ampersands. -/
def formEncode : List (String × String) → List Char
  | [] => []
  | [pair] => formPair pair
  | pair :: rest => formPair pair ++ '&' :: formEncode rest

/-! ### Bytes -/

/-- The byte of a codeword. -/
def byteOf : List Char → Nat
  | ['+'] => 32
  | ['%', high, low] =>
      16 * (List.range 16).findIdx (fun n => hexDigit n = high) +
        (List.range 16).findIdx (fun n => hexDigit n = low)
  | [c] => c.toNat
  | _ => 0

theorem byteOf_formByte (n : Nat) (h : n < 256) : byteOf (formByte n) = n := by
  have hall : (List.range 256).all (fun n => byteOf (formByte n) = n) = true := by decide +kernel
  exact of_decide_eq_true (List.all_eq_true.mp hall n (List.mem_range.mpr h))

/-- A codeword is as long as its first letter says, and has no letter that separates. -/
theorem formByte_head (n : Nat) (h : n < 256) :
    (formByte n).length = (if (formByte n).head? = some '%' then 3 else 1) ∧
    ∀ c ∈ formByte n, c ≠ '=' ∧ c ≠ '&' ∧ c ≠ '#' ∧ c ≠ '/' := by
  have hall : (List.range 256).all (fun n =>
      decide ((formByte n).length = if (formByte n).head? = some '%' then 3 else 1) &&
        (formByte n).all fun c => decide (c ≠ '=' ∧ c ≠ '&' ∧ c ≠ '#' ∧ c ≠ '/')) = true := by
    decide +kernel
  have hboth := List.all_eq_true.mp hall n (List.mem_range.mpr h)
  rw [Bool.and_eq_true, List.all_eq_true] at hboth
  exact ⟨of_decide_eq_true hboth.1, fun c hc => of_decide_eq_true (hboth.2 c hc)⟩

theorem formByte_free (a b : UInt8) :
    PrefixCode.Free (fun byte : UInt8 => formByte byte.toNat) a b := by
  intro hpre
  have ha := (formByte_head a.toNat a.toNat_lt).1
  have hb := (formByte_head b.toNat b.toNat_lt).1
  have hnonempty : (formByte a.toNat).length ≠ 0 := by
    rw [ha]
    split <;> omega
  have hhead : (formByte a.toNat).head? = (formByte b.toNat).head? := by
    obtain ⟨rest, hrest⟩ := hpre
    have hrest : formByte a.toNat ++ rest = formByte b.toNat := hrest
    rw [← hrest, List.head?_append_of_ne_nil]
    intro hnil
    rw [hnil] at hnonempty
    exact hnonempty rfl
  have heq : formByte a.toNat = formByte b.toNat :=
    hpre.eq_of_length (by rw [ha, hb, hhead])
  have hbyte := congrArg byteOf heq
  rw [byteOf_formByte _ a.toNat_lt, byteOf_formByte _ b.toNat_lt] at hbyte
  exact UInt8.toNat_inj.mp hbyte

theorem formByte_starts {stop : Char} (hstop : ∀ n < 256, ∀ c ∈ formByte n, c ≠ stop)
    (a : UInt8) : ∃ c rest, formByte a.toNat = c :: rest ∧ c ≠ stop := by
  cases h : formByte a.toNat with
  | nil =>
      have hlength := (formByte_head a.toNat a.toNat_lt).1
      rw [h] at hlength
      cases hlength
  | cons c rest =>
      refine ⟨c, rest, rfl, hstop a.toNat a.toNat_lt c ?_⟩
      rw [h]
      exact List.mem_cons_self

theorem utf8_injective : Function.Injective utf8 := by
  intro a b h
  refine String.toByteArray_inj.mp (ByteArray.ext ?_)
  exact Array.toList_inj.mp h

/-- A text before a letter that separates can be read back. -/
theorem formText_unique {stop : Char} (hstop : ∀ n < 256, ∀ c ∈ formByte n, c ≠ stop)
    {a b : String} {s t : List Char} (h : formText a ++ stop :: s = formText b ++ stop :: t) :
    a = b ∧ s = t := by
  obtain ⟨heq, hrest⟩ := PrefixCode.body_unique formByte_free (formByte_starts hstop) h
  exact ⟨utf8_injective heq, hrest⟩

/-! ### Lists -/

/-- A pair, closed off. -/
def formWord (pair : String × String) : List Char := formPair pair ++ ['&']

theorem formWord_free (a b : String × String) : PrefixCode.Free formWord a b := by
  rintro ⟨rest, hrest⟩
  have hwords : formText a.1 ++ '=' :: (formText a.2 ++ '&' :: rest) =
      formText b.1 ++ '=' :: (formText b.2 ++ '&' :: []) := by
    simpa [formWord, formPair] using hrest
  obtain ⟨hname, hvalue⟩ :=
    formText_unique (fun n hn c hc => ((formByte_head n hn).2 c hc).1) hwords
  obtain ⟨hvalue, -⟩ := formText_unique (fun n hn c hc => ((formByte_head n hn).2 c hc).2.1) hvalue
  exact Prod.ext hname hvalue

theorem formText_mem {text : String} {c : Char} (h : c ∈ formText text) :
    c ≠ '=' ∧ c ≠ '&' ∧ c ≠ '#' ∧ c ≠ '/' := by
  obtain ⟨byte, -, hc⟩ := List.mem_flatMap.mp h
  exact (formByte_head byte.toNat byte.toNat_lt).2 c hc

theorem formWord_starts (pair : String × String) :
    ∃ c rest, formWord pair = c :: rest ∧ c ≠ '#' := by
  unfold formWord formPair
  cases h : formText pair.1 with
  | nil => exact ⟨'=', _, rfl, by decide⟩
  | cons c rest =>
      refine ⟨c, _, rfl, (@formText_mem pair.1 _ ?_).2.2.1⟩
      rw [h]
      exact List.mem_cons_self

theorem formEncode_words {pairs : List (String × String)} (h : pairs ≠ []) :
    formEncode pairs ++ ['&'] = pairs.flatMap formWord := by
  induction pairs with
  | nil => exact (h rfl).elim
  | cons pair rest ih =>
      cases rest with
      | nil => simp [formEncode, formWord]
      | cons next rest =>
          have hrest := ih (List.cons_ne_nil _ _)
          rw [List.flatMap_cons, ← hrest]
          simp [formEncode, formWord]

theorem formEncode_ne_nil {pairs : List (String × String)} (h : pairs ≠ []) :
    formEncode pairs ≠ [] := by
  intro hnil
  have hwords := formEncode_words h
  obtain ⟨pair, rest, rfl⟩ := List.exists_cons_of_ne_nil h
  rw [hnil, List.flatMap_cons] at hwords
  have hlength := congrArg List.length hwords
  simp [formWord, formPair] at hlength
  omega

/-- **A query says which names and values it was written from, in which order.** -/
theorem formEncode_injective : Function.Injective formEncode := by
  intro as bs h
  by_cases has : as = []
  · subst has
    by_contra hbs
    exact formEncode_ne_nil (Ne.symm hbs) h.symm
  · have hbs : bs ≠ [] := by
      rintro rfl
      exact formEncode_ne_nil has h
    have hwords : as.flatMap formWord ++ '#' :: [] = bs.flatMap formWord ++ '#' :: [] := by
      rw [← formEncode_words has, ← formEncode_words hbs, h]
    exact (PrefixCode.body_unique formWord_free formWord_starts hwords).1

theorem formEncode_mem {pairs : List (String × String)} {c : Char} (h : c ∈ formEncode pairs) :
    c ≠ '/' := by
  have hpair : ∀ pair : String × String, c ∈ formPair pair → c ≠ '/' := by
    intro pair hc
    rcases List.mem_append.mp hc with hc | hc
    · exact (formText_mem hc).2.2.2
    · rcases List.mem_cons.mp hc with rfl | hc
      · decide
      · exact (formText_mem hc).2.2.2
  induction pairs with
  | nil => cases h
  | cons pair rest ih =>
      cases rest with
      | nil => exact hpair pair h
      | cons next rest =>
          rcases List.mem_append.mp h with hc | hc
          · exact hpair pair hc
          · rcases List.mem_cons.mp hc with rfl | hc
            · decide
            · exact ih hc

end FormEncoding
