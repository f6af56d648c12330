/-
Which hosts count as private.

A host is judged by its text.  What it should be judged by is the address, so each form in which
an address is written is put beside the ranges that its numbers lie in.  An IPv4 address is always
judged rightly.  An IPv6 address is judged by its first letters, which tell `fc00::/7` and
`fe80::/16` but neither the rest of `fe80::/10` nor an address that embeds an IPv4 address in
hexadecimal; and the same letters at the start of a name make that private too.
-/
import OpenLagrange.Lib.InternetAddress
import OpenLagrange.Proofs.NetworkNarrowing

namespace OpenLagrange

open Http Internet

/-! ### Hosts and their texts -/

/-- A character that no name in a URL has. -/
def isForbiddenInHost (c : Char) : Bool :=
  c.toNat ≤ 32 ∨ c.toNat = 127 ∨ c ∈ "#/:<>?@[\\]^|%".toList

/-- Whether the last label, but for an empty one after it, is a number; the parser takes the host
for an IPv4 address then. -/
def endsInNumber (name : List Char) : Bool :=
  let labels := Glob.split '.' name
  let labels := if labels.getLast? = some [] ∧ 1 < labels.length then labels.dropLast else labels
  match labels.getLast? with
  | some ('0' :: 'x' :: digits) =>
      digits.all fun c => c.isDigit ∨ ('a' ≤ c ∧ c ≤ 'f')
  | some label => label ≠ [] ∧ label.all Char.isDigit
  | none => false

/-- A name as the URL parser leaves it: small letters, and nothing that may not stand in it. -/
structure HostName where
  text : List Char
  small : ∀ c ∈ text, c.toNat < 128 ∧ c.isUpper = false
  allowed : ∀ c ∈ text, isForbiddenInHost c = false
  isName : endsInNumber text = false

inductive Host where
  | ipv4 (address : Ipv4)
  | ipv6 (address : Ipv6)
  | domain (name : HostName)

/-- Where the text of a host comes from. -/
inductive HostForm where
  /-- The host name of a URL. -/
  | url
  /-- A record of a name lookup. -/
  | record
  deriving DecidableEq, Repr

/-- The texts that URLs and lookups give for a host. -/
inductive Gives : HostForm → Host → List Char → Prop where
  | ipv4 (form : HostForm) (address : Ipv4) : Gives form (.ipv4 address) address.text
  | bracketed (address : Ipv6) : Gives .url (.ipv6 address) ('[' :: address.serialize ++ [']'])
  | presented (address : Ipv6) : Gives .record (.ipv6 address) address.presentation
  | named (name : HostName) : Gives .url (.domain name) name.text

/-- `localhost` and the names below it. -/
def HostName.InLocalhost (name : HostName) : Prop :=
  ∃ labels, Glob.split '.' name.text = labels ++ ["localhost".toList] ∨
    Glob.split '.' name.text = labels ++ ["localhost".toList, []]

/-- An address that no request may reach. -/
def Host.Local : Host → Prop
  | .ipv4 address => address.Local
  | .ipv6 address => address.Local
  | .domain _ => False

/-- A public address, or a name outside `localhost`. -/
def Host.Public : Host → Prop
  | .ipv4 address => ¬ address.Local
  | .ipv6 address => ¬ address.Local
  | .domain name => ¬ name.InLocalhost

/-- The host is judged by what it is. -/
def Judged (P : HttpPlatform) (host : Host) (text : List Char) : Prop :=
  (host.Local → isLocalOrPrivateHost P.toLowerCase (String.ofList text) = true) ∧
    (host.Public → isLocalOrPrivateHost P.toLowerCase (String.ofList text) = false)

/-- `String.prototype.toLowerCase` leaves ASCII text without capitals as it is. -/
def KeepsSmall (P : HttpPlatform) : Prop :=
  ∀ text : List Char, (∀ c ∈ text, c.toNat < 128 ∧ c.isUpper = false) →
    P.toLowerCase (String.ofList text) = String.ofList text

/-! ### Numbers in texts -/

theorem splitAtChar_eq (stop : Char) (text : List Char) :
    splitAtChar stop text = Glob.split stop text := by
  induction text with
  | nil => rfl
  | cons c text ih =>
      by_cases hc : c = stop
      · subst hc
        rw [Glob.split_sep, splitAtChar, if_pos rfl, ih]
      · obtain ⟨first, others, hsplit, hcons⟩ := Glob.split_cons text hc
        rw [hcons, splitAtChar, if_neg hc, ih, hsplit]

theorem digit_plain {c : Char} (hc : c.isDigit = true) : jsSpace c = false ∧ c ≠ '-' ∧ c ≠ '+' := by
  have hrange : 48 ≤ c.toNat ∧ c.toNat ≤ 57 :=
    Char.isDigit_iff_toNat.mp hc
  refine ⟨?_, ?_, ?_⟩
  · unfold jsSpace
    rw [decide_eq_false_iff_not]
    omega
  · rintro rfl
    exact absurd hc (by decide)
  · rintro rfl
    exact absurd hc (by decide)

/-- A text of digits is read as the number they are the digits of. -/
theorem parseDecimal_digits {digits : List Char} (hne : digits ≠ [])
    (hdigits : ∀ c ∈ digits, c.isDigit = true) :
    parseDecimal digits = some (Nat.ofDigitChars 10 digits 0 : Nat) := by
  cases digits with
  | nil => exact (hne rfl).elim
  | cons c rest =>
      obtain ⟨hspace, hminus, hplus⟩ := digit_plain (hdigits c List.mem_cons_self)
      have htrim : trimStartChars (c :: rest) = c :: rest := by
        rw [trimStartChars, List.dropWhile_cons_of_neg (by simp [hspace])]
      have htake : (c :: rest).takeWhile Char.isDigit = c :: rest :=
        List.takeWhile_eq_self_iff.mpr hdigits
      -- neither sign stands in front of a digit
      fun_cases parseDecimal (c :: rest) with
      | case1 trimmed sign text hpair hnone =>
          have htrimmed : trimmed = c :: rest := htrim
          rw [htrimmed] at hpair
          split at hpair
          · rename_i hsign
            exact (hminus (List.cons.inj hsign).1).elim
          · rename_i hsign
            exact (hplus (List.cons.inj hsign).1).elim
          · obtain ⟨-, rfl⟩ := Prod.mk.inj hpair
            rw [htake] at hnone
            cases hnone
      | case2 trimmed sign text hpair _ =>
          have htrimmed : trimmed = c :: rest := htrim
          rw [htrimmed] at hpair
          split at hpair
          · rename_i hsign
            exact (hminus (List.cons.inj hsign).1).elim
          · rename_i hsign
            exact (hplus (List.cons.inj hsign).1).elim
          · obtain ⟨rfl, rfl⟩ := Prod.mk.inj hpair
            rw [htake, one_mul, Nat.ofDigitChars_eq_foldl]
            rfl

theorem parseDecimal_decimal (n : UInt8) : parseDecimal (decimal n) = some (n.toNat : Int) := by
  rw [parseDecimal_digits decimal_ne_nil fun c => isDigit_of_mem_decimal]
  exact congrArg (fun m : Nat => some (m : Int)) Nat.ofDigitChars_ten_toDigits

/-- The numbers at the start of four labels, where they are those of an address. -/
def ReadsAs (host : List Char) (address : Ipv4) : Prop :=
  (Glob.split '.' host).map parseDecimal =
    [some (address.a.toNat : Int), some (address.b.toNat : Int), some (address.c.toNat : Int),
      some (address.d.toNat : Int)]

theorem Internet.Ipv4.local_iff {address : Ipv4} : address.Local ↔
    address.a.toNat = 0 ∨ address.a.toNat = 10 ∨ address.a.toNat = 127 ∨
      (address.a.toNat = 169 ∧ address.b.toNat = 254) ∨
      (address.a.toNat = 172 ∧ 16 ≤ address.b.toNat ∧ address.b.toNat ≤ 31) ∨
      (address.a.toNat = 192 ∧ address.b.toNat = 168) := by
  simp only [Ipv4.Local, ← UInt8.toNat_inj, UInt8.le_iff_toNat_le]
  rfl

theorem exists_octet {n : Int} (h : ¬ (n < 0 ∨ n > 255)) : ∃ octet : UInt8, n = octet.toNat := by
  refine ⟨UInt8.ofNat n.toNat, ?_⟩
  rw [UInt8.toNat_ofNat']
  omega

theorem isPrivateAddress_iff {host : List Char} :
    isPrivateAddress host = true ↔ ∃ address, ReadsAs host address ∧ address.Local := by
  unfold isPrivateAddress ReadsAs
  rw [splitAtChar_eq]
  split
  · rename_i a b c d hnumbers
    rw [hnumbers]
    split
    · rename_i hany
      refine iff_of_false (fun h => by cases h) ?_
      rintro ⟨address, hreads, -⟩
      simp only [List.cons.injEq, Option.some.injEq, and_true] at hreads
      simp only [List.any_cons, List.any_nil, Bool.or_false, Bool.or_eq_true, decide_eq_true_eq]
        at hany
      have ha := address.a.toNat_lt
      have hb := address.b.toNat_lt
      have hc := address.c.toNat_lt
      have hd := address.d.toNat_lt
      omega
    · rename_i hany
      simp only [List.any_cons, List.any_nil, Bool.or_false, Bool.or_eq_true, decide_eq_true_eq,
        not_or] at hany
      obtain ⟨a, rfl⟩ := exists_octet (n := a) (by omega)
      obtain ⟨b, rfl⟩ := exists_octet (n := b) (by omega)
      obtain ⟨c, rfl⟩ := exists_octet (n := c) (by omega)
      obtain ⟨d, rfl⟩ := exists_octet (n := d) (by omega)
      rw [decide_eq_true_eq]
      constructor
      · intro h
        exact ⟨⟨a, b, c, d⟩, rfl, Ipv4.local_iff.mpr (by dsimp only; omega)⟩
      · rintro ⟨address, hreads, hlocal⟩
        simp only [List.cons.injEq, Option.some.injEq, and_true, Nat.cast_inj] at hreads
        rw [Ipv4.local_iff, ← hreads.1, ← hreads.2.1] at hlocal
        omega
  · rename_i hnone
    refine iff_of_false (fun h => by cases h) ?_
    rintro ⟨address, hreads, -⟩
    exact hnone _ _ _ _ hreads

/-- An address in dotted form is read as that address. -/
theorem readsAs_text {address address' : Ipv4} : ReadsAs address.text address' ↔ address' = address := by
  unfold ReadsAs
  rw [split_text, Ipv4.octets]
  simp only [List.map_cons, List.map_nil, parseDecimal_decimal, List.cons.injEq, Option.some.injEq,
    and_true, Nat.cast_inj, UInt8.toNat_inj]
  constructor
  · rintro ⟨ha, hb, hc, hd⟩
    cases address
    cases address'
    simp_all
  · rintro rfl
    exact ⟨rfl, rfl, rfl, rfl⟩

theorem isPrivateAddress_text {address : Ipv4} :
    isPrivateAddress address.text = true ↔ address.Local := by
  rw [isPrivateAddress_iff]
  constructor
  · rintro ⟨address', hreads, hlocal⟩
    rwa [← readsAs_text.mp hreads]
  · intro hlocal
    exact ⟨address, readsAs_text.mpr rfl, hlocal⟩

/-! ### What the text looks like -/

/-- What makes the text of a host look private. -/
def LooksPrivate (host : List Char) : Prop :=
  (host = "localhost".toList ∨ ".localhost".toList <:+ host) ∨
    (host = "::1".toList ∨ host = "0:0:0:0:0:0:0:1".toList) ∨
    ("fc".toList <+: host ∨ "fd".toList <+: host) ∨ "fe80:".toList <+: host ∨
    (∃ address, ipv4Mapped host = some address ∧ isPrivateAddress address = true) ∨
    (ipv4Mapped host = none ∧ ':' ∉ host ∧ isPrivateAddress host = true)

theorem isLocalOrPrivateHost_iff {toLowerCase : String → String} {hostname : String}
    {host : List Char} (hhost : normalizedHost toLowerCase hostname = host) :
    isLocalOrPrivateHost toLowerCase hostname = true ↔ LooksPrivate host := by
  unfold isLocalOrPrivateHost LooksPrivate
  rw [hhost]
  dsimp only
  simp only [List.isSuffixOf_iff_suffix, List.isPrefixOf_iff_prefix]
  split
  · rename_i h
    refine iff_of_true rfl ?_
    rcases h with h | h | h | h
    · exact Or.inl (Or.inl h)
    · exact Or.inl (Or.inr h)
    · exact Or.inr (Or.inl (Or.inl h))
    · exact Or.inr (Or.inl (Or.inr h))
  · rename_i hnames
    push Not at hnames
    split
    · rename_i h
      refine iff_of_true rfl ?_
      rcases h with h | h | h
      · exact Or.inr (Or.inr (Or.inl (Or.inl h)))
      · exact Or.inr (Or.inr (Or.inl (Or.inr h)))
      · exact Or.inr (Or.inr (Or.inr (Or.inl h)))
    · rename_i hletters
      push Not at hletters
      simp only [hnames, hletters, false_or]
      cases hmapped : ipv4Mapped host with
      | some address => simp
      | none => simp

/-- A text of small letters without brackets is normal. -/
theorem normalizedHost_plain {P : HttpPlatform} (hkeeps : KeepsSmall P) {host : List Char}
    (hsmall : ∀ c ∈ host, c.toNat < 128 ∧ c.isUpper = false) (hopen : '[' ∉ host) (hclose : ']' ∉ host) :
    normalizedHost P.toLowerCase (String.ofList host) = host := by
  unfold normalizedHost
  rw [hkeeps host hsmall, String.toList_ofList]
  dsimp only
  rw [if_neg (fun h => hopen (List.mem_of_head? h)), if_neg (fun h => hclose (List.mem_of_getLast? h))]

/-- The brackets around an address are taken away. -/
theorem normalizedHost_bracketed {P : HttpPlatform} (hkeeps : KeepsSmall P) {host : List Char}
    (hsmall : ∀ c ∈ host, c.toNat < 128 ∧ c.isUpper = false) :
    normalizedHost P.toLowerCase (String.ofList ('[' :: host ++ [']'])) = host := by
  have hbrackets : ∀ c ∈ '[' :: host ++ [']'], c.toNat < 128 ∧ c.isUpper = false := by
    intro c hc
    simp only [List.cons_append, List.mem_cons, List.mem_append, List.not_mem_nil, or_false] at hc
    rcases hc with rfl | hc | rfl
    · decide
    · exact hsmall c hc
    · decide
  unfold normalizedHost
  rw [hkeeps _ hbrackets, String.toList_ofList]
  dsimp only
  have hopen : ('[' :: host ++ [']']).head? = some '[' := rfl
  rw [if_pos hopen, List.cons_append, List.drop_succ_cons, List.drop_zero,
    if_pos List.getLast?_concat, List.dropLast_concat]

/-! ### The letters of an address -/

theorem isHex_small : ∀ d < 16, (Nat.digitChar d).toNat < 128 ∧ (Nat.digitChar d).isUpper = false ∧
    Nat.digitChar d ≠ '[' ∧ Nat.digitChar d ≠ ']' ∧ Nat.digitChar d ≠ '.' ∧ Nat.digitChar d ≠ 'l' := by
  decide

/-- A character that an address may have: none that a bracket or a name would add. -/
def InAddress (c : Char) : Prop :=
  (c.toNat < 128 ∧ c.isUpper = false) ∧ c ≠ '[' ∧ c ≠ ']' ∧ c ≠ 'l'

theorem inAddress_hex {c : Char} (h : IsHex c) : InAddress c := by
  obtain ⟨d, hd, rfl⟩ := h
  obtain ⟨hascii, hupper, hopen, hclose, -, hl⟩ := isHex_small d hd
  exact ⟨⟨hascii, hupper⟩, hopen, hclose, hl⟩

theorem isHex_of_isDigit {c : Char} (h : c.isDigit = true) : IsHex c := by
  have hrange : 48 ≤ c.toNat ∧ c.toNat ≤ 57 := Char.isDigit_iff_toNat.mp h
  refine ⟨c.toNat - 48, by omega, ?_⟩
  have hdigits : ∀ d < 10, Nat.digitChar d = Char.ofNat (48 + d) := by decide
  rw [hdigits _ (by omega), Nat.add_sub_cancel' hrange.1, Char.ofNat_toNat]

theorem inAddress_colon : InAddress ':' := by
  unfold InAddress
  decide

theorem inAddress_text {address : Ipv4} : ∀ c ∈ address.text, InAddress c := by
  intro c hc
  rcases mem_text hc with hdigit | rfl
  · exact inAddress_hex (isHex_of_isDigit hdigit)
  · unfold InAddress
    decide

theorem inAddress_serialize {address : Ipv6} : ∀ c ∈ address.serialize, InAddress c := by
  intro c hc
  rcases Ipv6.mem_serialize hc with rfl | hhex
  · exact inAddress_colon
  · exact inAddress_hex hhex

theorem inAddress_append {front back : List Char} (hfront : ∀ c ∈ front, InAddress c)
    (hback : ∀ c ∈ back, InAddress c) : ∀ c ∈ front ++ back, InAddress c := by
  intro c hc
  exact (List.mem_append.mp hc).elim (hfront c) (hback c)

theorem inAddress_colons : ∀ c ∈ "::".toList, InAddress c := by
  intro c hc
  rw [show "::".toList = List.replicate 2 ':' from rfl] at hc
  rw [List.eq_of_mem_replicate hc]
  exact inAddress_colon

theorem inAddress_ffff : ∀ c ∈ "::ffff:".toList, InAddress c := by
  intro c hc
  have hletters : "::ffff:".toList = [':', ':', 'f', 'f', 'f', 'f', ':'] := by decide
  have hf : InAddress 'f' := inAddress_hex ⟨15, by decide, rfl⟩
  rw [hletters] at hc
  simp only [List.mem_cons, List.not_mem_nil, or_false] at hc
  rcases hc with rfl | rfl | rfl | rfl | rfl | rfl | rfl <;>
    first | exact inAddress_colon | exact hf

theorem inAddress_presentation {address : Ipv6} : ∀ c ∈ address.presentation, InAddress c := by
  rcases address.presentation_cases with ⟨-, h⟩ | ⟨-, h⟩ | ⟨-, h⟩ <;> rw [h]
  · exact inAddress_append inAddress_colons inAddress_text
  · exact inAddress_append inAddress_ffff inAddress_text
  · exact inAddress_serialize

/-- An address is not taken for a local name. -/
theorem not_localhost {host : List Char} (h : ∀ c ∈ host, InAddress c) :
    ¬ (host = "localhost".toList ∨ ".localhost".toList <:+ host) := by
  have hl : 'l' ∉ host := fun hmem => (h _ hmem).2.2.2 rfl
  rintro (rfl | hsuffix)
  · exact hl (by decide)
  · exact hl (hsuffix.subset (by decide))

theorem isDigit_ne_colon {c : Char} (h : c.isDigit = true) : c ≠ ':' := by
  rintro rfl
  exact absurd h (by decide)

theorem colon_not_mem_text {address : Ipv4} : ':' ∉ address.text := by
  intro h
  rcases mem_text h with hdigit | hdot
  · exact isDigit_ne_colon hdigit rfl
  · exact absurd hdot (by decide)

/-- A text of hexadecimal digits and colons embeds no dotted address. -/
theorem ipv4Mapped_of_no_dot {host : List Char} (h : '.' ∉ host) : ipv4Mapped host = none := by
  unfold ipv4Mapped
  dsimp only
  rw [if_neg]
  rintro ⟨-, hfour, -⟩
  rw [splitAtChar_eq, Glob.split_free fun hdot => h (List.mem_of_mem_drop hdot)] at hfour
  cases hfour

theorem ipv4Mapped_text (address : Ipv4) :
    ipv4Mapped ("::ffff:".toList ++ address.text) = some address.text := by
  unfold ipv4Mapped
  have hdrop : ("::ffff:".toList ++ address.text).drop 7 = address.text := List.drop_left' rfl
  dsimp only
  rw [hdrop, splitAtChar_eq, split_text, if_pos]
  refine ⟨List.isPrefixOf_iff_prefix.mpr (List.prefix_append _ _), rfl, ?_⟩
  refine List.all_eq_true.mpr fun part hpart => ?_
  obtain ⟨hne, hdigits⟩ := octets_digits hpart
  exact decide_eq_true ⟨hne, List.all_eq_true.mpr hdigits⟩

theorem ipv4Mapped_compatible (address : Ipv4) : ipv4Mapped ("::".toList ++ address.text) = none := by
  unfold ipv4Mapped
  dsimp only
  rw [if_neg]
  rintro ⟨hbegins, -⟩
  obtain ⟨c, rest, htext, hdigit⟩ := text_head address
  rw [List.isPrefixOf_iff_prefix, htext] at hbegins
  obtain ⟨tail, htail⟩ := hbegins
  have hc : 'f' = c := (List.cons.inj (List.cons.inj (List.cons.inj htail).2).2).1
  rw [← hc] at hdigit
  exact absurd hdigit (by decide)

/-- An IPv4 address looks private exactly where it is. -/
theorem looksPrivate_text {address : Ipv4} : LooksPrivate address.text ↔ address.Local := by
  obtain ⟨c, rest, htext, hdigit⟩ := text_head address
  have hfirst : ∀ w : List Char, ∀ d v, w = d :: v → ¬ d.isDigit = true → ¬ w <+: address.text := by
    rintro w d v rfl hd hbegins
    rw [htext, List.cons_prefix_cons] at hbegins
    exact hd (hbegins.1 ▸ hdigit)
  have hmapped : ipv4Mapped address.text = none := by
    unfold ipv4Mapped
    dsimp only
    rw [if_neg]
    rintro ⟨hbegins, -⟩
    exact hfirst _ ':' _ rfl (by decide) (List.isPrefixOf_iff_prefix.mp hbegins)
  unfold LooksPrivate
  constructor
  · rintro (h | (h | h) | (h | h) | h | ⟨_, h, -⟩ | ⟨-, -, h⟩)
    · exact (not_localhost inAddress_text h).elim
    · exact (hfirst "::1".toList ':' [':', '1'] (by decide) (by decide)
        ⟨[], by rw [h, List.append_nil]⟩).elim
    · exact (colon_not_mem_text (h ▸ (by decide : ':' ∈ "0:0:0:0:0:0:0:1".toList))).elim
    · exact (hfirst _ 'f' _ rfl (by decide) h).elim
    · exact (hfirst _ 'f' _ rfl (by decide) h).elim
    · exact (hfirst _ 'f' _ rfl (by decide) h).elim
    · rw [hmapped] at h
      cases h
    · exact isPrivateAddress_text.mp h
  · intro h
    refine Or.inr (Or.inr (Or.inr (Or.inr (Or.inr ?_))))
    exact ⟨hmapped, colon_not_mem_text, isPrivateAddress_text.mpr h⟩

/-- A text that begins with two colons looks private as the loopback address, or for the address in
it. -/
theorem looksPrivate_colons {host rest : List Char} (hin : ∀ c ∈ host, InAddress c)
    (hhost : host = ':' :: ':' :: rest) :
    LooksPrivate host ↔ host = "::1".toList ∨
      ∃ address, ipv4Mapped host = some address ∧ isPrivateAddress address = true := by
  have hfirst : ∀ w d v, w = d :: v → d ≠ ':' → ¬ w <+: host := by
    rintro w d v rfl hd hbegins
    rw [hhost, List.cons_prefix_cons] at hbegins
    exact hd hbegins.1
  unfold LooksPrivate
  constructor
  · rintro (h | (h | h) | (h | h) | h | h | ⟨-, h, -⟩)
    · exact (not_localhost hin h).elim
    · exact Or.inl h
    · exact (hfirst "0:0:0:0:0:0:0:1".toList '0' ":0:0:0:0:0:0:1".toList (by decide) (by decide)
        ⟨[], by rw [h, List.append_nil]⟩).elim
    · exact (hfirst _ 'f' _ rfl (by decide) h).elim
    · exact (hfirst _ 'f' _ rfl (by decide) h).elim
    · exact (hfirst _ 'f' _ rfl (by decide) h).elim
    · exact Or.inr h
    · exact (h (hhost ▸ List.mem_cons_self)).elim
  · rintro (h | h)
    · exact Or.inr (Or.inl (Or.inl h))
    · exact Or.inr (Or.inr (Or.inr (Or.inr (Or.inl h))))

theorem ne_loopback_text {front : List Char} (address : Ipv4) :
    front ++ address.text ≠ "::1".toList := by
  intro h
  have hdot : '.' ∈ address.text := by
    rw [Ipv4.text, Ipv4.octets, Glob.joined_cons (by simp)]
    simp
  have hmem : '.' ∈ "::1".toList := h ▸ List.mem_append_right _ hdot
  exact absurd hmem (by decide)

theorem looksPrivate_mapped {address : Ipv4} :
    LooksPrivate ("::ffff:".toList ++ address.text) ↔ address.Local := by
  rw [looksPrivate_colons (inAddress_append inAddress_ffff inAddress_text) rfl, ipv4Mapped_text]
  constructor
  · rintro (h | ⟨_, h, hprivate⟩)
    · exact (ne_loopback_text address h).elim
    · cases h
      exact isPrivateAddress_text.mp hprivate
  · intro h
    exact Or.inr ⟨_, rfl, isPrivateAddress_text.mpr h⟩

theorem not_looksPrivate_compatible {address : Ipv4} :
    ¬ LooksPrivate ("::".toList ++ address.text) := by
  rw [looksPrivate_colons (inAddress_append inAddress_colons inAddress_text) rfl,
    ipv4Mapped_compatible]
  rintro (h | ⟨_, h, -⟩)
  · exact ne_loopback_text address h
  · cases h

/-! ### The first group -/

/-- Two digits come first in a group that has them alone, or with one or two more after them. -/
theorem two_digits_prefix_iff {v : Nat} {g : UInt16} (hv : 16 ≤ v) (hv' : v < 256) :
    Nat.toDigits 16 v <+: hexText g ↔ v = g.toNat ∨ v = g.toNat / 16 ∨ v = g.toNat / 256 := by
  have hlt := g.toNat_lt
  have hstep : ∀ n, Nat.toDigits 16 v <+: Nat.toDigits 16 n ↔
      v = n ∨ (16 ≤ n ∧ Nat.toDigits 16 v <+: Nat.toDigits 16 (n / 16)) :=
    fun n => toDigits_prefix_iff (by omega) (by omega)
  unfold hexText
  rw [hstep, hstep (g.toNat / 16), hstep (g.toNat / 16 / 16), hstep (g.toNat / 16 / 16 / 16)]
  constructor
  · rintro (h | ⟨-, h | ⟨-, h | ⟨hge, h | ⟨hge', -⟩⟩⟩⟩) <;> omega
  · omega

/-- The group begins with the letters `fc` or `fd` but has fewer than four digits. -/
def Internet.Ipv6.ShortPrefix (address : Ipv6) : Prop :=
  address.group 0 = 0xfc ∨ address.group 0 = 0xfd ∨
    (0xfc0 ≤ address.group 0 ∧ address.group 0 ≤ 0xfdf)

theorem fc_or_fd_iff {address : Ipv6} :
    ("fc".toList <+: hexText (address.group 0) ∨ "fd".toList <+: hexText (address.group 0)) ↔
      address.ShortPrefix ∨ address.UniqueLocal := by
  have hfc : "fc".toList = Nat.toDigits 16 0xfc := by decide
  have hfd : "fd".toList = Nat.toDigits 16 0xfd := by decide
  have hlt := (address.group 0).toNat_lt
  rw [hfc, hfd, two_digits_prefix_iff (by omega) (by omega),
    two_digits_prefix_iff (by omega) (by omega)]
  simp only [Ipv6.ShortPrefix, Ipv6.UniqueLocal, ← UInt16.toNat_inj, UInt16.le_iff_toNat_le,
    UInt16.toNat_ofNat]
  omega

/-- A prefix that begins with a letter stands at the start of the text where it does in the first
group. -/
theorem prefix_serialize_iff {address : Ipv6} {w : List Char} (hcolon : ':' ∉ w)
    (hzero : ¬ w <+: ['0']) :
    w <+: address.serialize ↔ w <+: hexText (address.group 0) := by
  rcases address.serialize_starts with ⟨hgroup, rest, h⟩ | ⟨rest, h⟩
  · rw [h, hgroup]
    refine iff_of_false (fun hbegins => ?_) hzero
    cases w with
    | nil => exact hzero (List.nil_prefix)
    | cons c w =>
        rw [List.cons_prefix_cons] at hbegins
        exact hcolon (hbegins.1 ▸ List.mem_cons_self)
  · rw [h, Glob.prefix_cut hcolon]

theorem fe80_prefix_iff {address : Ipv6} :
    "fe80:".toList <+: address.serialize ↔ address.group 0 = 0xfe80 := by
  have hfe80 : "fe80:".toList = hexText 0xfe80 ++ [':'] := by decide
  have hcolon : ∀ g, ':' ∉ hexText g := fun g h => not_isHex_colon (isHex_of_mem_hexText h)
  rw [hfe80]
  rcases address.serialize_starts with ⟨hgroup, rest, h⟩ | ⟨rest, h⟩
  · rw [h, hgroup]
    refine iff_of_false ?_ (by decide)
    intro hbegins
    rw [← hfe80] at hbegins
    obtain ⟨tail, htail⟩ := hbegins
    exact absurd (List.cons.inj htail).1 (by decide)
  · rw [h, Glob.closed_prefix_cut (hcolon _) (hcolon _)]
    exact ⟨fun heq => (hexText_inj heq).symm, fun heq => congrArg hexText heq.symm⟩

/-- What an address in hexadecimal is taken for private for. -/
theorem looksPrivate_serialize {address : Ipv6} :
    LooksPrivate address.serialize ↔
      address.Loopback ∨ address.ShortPrefix ∨ address.UniqueLocal ∨ address.group 0 = 0xfe80 := by
  have hdot : '.' ∉ address.serialize := by
    intro h
    rcases Ipv6.mem_serialize h with h | ⟨d, hd, h⟩
    · exact absurd h (by decide)
    · exact (isHex_small d hd).2.2.2.2.1 h.symm
  have hmapped := ipv4Mapped_of_no_dot hdot
  have hletters : ("fc".toList <+: address.serialize ∨ "fd".toList <+: address.serialize) ↔
      address.ShortPrefix ∨ address.UniqueLocal := by
    rw [prefix_serialize_iff (by decide) (by decide), prefix_serialize_iff (by decide) (by decide),
      fc_or_fd_iff]
  unfold LooksPrivate
  rw [hletters, fe80_prefix_iff]
  constructor
  · rintro (h | (h | h) | h | h | ⟨_, h, -⟩ | ⟨-, h, -⟩)
    · exact (not_localhost inAddress_serialize h).elim
    · exact Or.inl (Ipv6.loopback_of_serialize h)
    · exact Or.inl (Ipv6.loopback_of_long h)
    · exact h.elim (fun h => Or.inr (Or.inl h)) fun h => Or.inr (Or.inr (Or.inl h))
    · exact Or.inr (Or.inr (Or.inr h))
    · rw [hmapped] at h
      cases h
    · exact (h Ipv6.colon_mem_serialize).elim
  · rintro (h | h | h | h)
    · exact Or.inr (Or.inl (Or.inl (Ipv6.serialize_of_loopback h)))
    · exact Or.inr (Or.inr (Or.inl (Or.inl h)))
    · exact Or.inr (Or.inr (Or.inl (Or.inr h)))
    · exact Or.inr (Or.inr (Or.inr (Or.inl h)))

/-! ### Where the texts tell -/

/-- The hosts whose texts tell what they are. -/
def Told : HostForm → Host → Prop
  | _, .ipv4 _ => True
  | form, .ipv6 address =>
      ¬ address.Unspecified ∧ (address.LinkLocal → address.group 0 = 0xfe80) ∧
        ¬ address.ShortPrefix ∧ (form = .url → ¬ (address.Mapped ∧ address.embedded.Local))
  | _, .domain name =>
      name.InLocalhost ∨
        (¬ "fc".toList <+: name.text ∧ ¬ "fd".toList <+: name.text ∧
          ¬ ∃ address, ReadsAs name.text address ∧ address.Local)

section Ranges

variable {address : Ipv6}

theorem group_zero (h : address.Unspecified ∨ address.Loopback ∨ address.Mapped) :
    address.group 0 = 0 := by
  rcases h with h | h | h
  · unfold Ipv6.group
    rw [h]
    rfl
  · unfold Ipv6.group
    rw [h]
    rfl
  · exact Ipv6.group_zero_of_zeros (by rw [(Ipv6.zeros_of_mapped h).2.1]; omega)

/-- The ranges of the first group: each of them rules the others out, and a zero group. -/
theorem group_ranges (address : Ipv6) :
    (address.LinkLocal → ¬ address.UniqueLocal ∧ ¬ address.ShortPrefix ∧ address.group 0 ≠ 0) ∧
      (address.UniqueLocal → ¬ address.ShortPrefix ∧ address.group 0 ≠ 0 ∧ address.group 0 ≠ 0xfe80) ∧
      (address.ShortPrefix → address.group 0 ≠ 0 ∧ address.group 0 ≠ 0xfe80) ∧
      (address.group 0 = 0xfe80 → address.LinkLocal ∧ address.group 0 ≠ 0) := by
  simp only [Internet.Ipv6.ShortPrefix, Ipv6.LinkLocal, Ipv6.UniqueLocal, ne_eq, ← UInt16.toNat_inj,
    UInt16.le_iff_toNat_le, UInt16.toNat_ofNat]
  omega

theorem not_loopback (h : address.Unspecified ∨ address.Mapped) : ¬ address.Loopback := by
  intro hloopback
  rcases h with h | h
  · exact absurd (h.symm.trans hloopback) (by decide)
  · have hfive := (Ipv6.zeros_of_mapped h).2.1
    rw [hloopback] at hfive
    exact absurd hfive (by decide)

theorem not_mapped (h : address.Unspecified) : ¬ address.Mapped := by
  intro hmapped
  have hfive := (Ipv6.zeros_of_mapped hmapped).2.1
  rw [h] at hfive
  exact absurd hfive (by decide)

/-- In hexadecimal, an address is taken for what it is exactly where its text tells. -/
theorem local_iff_serialize :
    (address.Local ↔ LooksPrivate address.serialize) ↔
      ¬ address.Unspecified ∧ (address.LinkLocal → address.group 0 = 0xfe80) ∧
        ¬ address.ShortPrefix ∧ ¬ (address.Mapped ∧ address.embedded.Local) := by
  obtain ⟨hlink, hunique, hshort, hfe80⟩ := group_ranges address
  rw [looksPrivate_serialize, Ipv6.Local]
  constructor
  · intro hsame
    refine ⟨fun h => ?_, fun h => ?_, fun h => ?_, fun h => ?_⟩
    · have hzero := group_zero (Or.inl h)
      rcases hsame.mp (Or.inl h) with h' | h' | h' | h'
      · exact not_loopback (Or.inl h) h'
      · exact (hshort h').1 hzero
      · exact (hunique h').2.1 hzero
      · exact (hfe80 h').2 hzero
    · obtain ⟨hnot, hnotShort, hne⟩ := hlink h
      rcases hsame.mp (Or.inr (Or.inr (Or.inl h))) with h' | h' | h' | h'
      · exact (hne (group_zero (Or.inr (Or.inl h')))).elim
      · exact (hnotShort h').elim
      · exact (hnot h').elim
      · exact h'
    · obtain ⟨hne, -⟩ := hshort h
      rcases hsame.mpr (Or.inr (Or.inl h)) with h' | h' | h' | h' | h'
      · exact hne (group_zero (Or.inl h'))
      · exact hne (group_zero (Or.inr (Or.inl h')))
      · exact (hlink h').2.1 h
      · exact (hunique h').1 h
      · exact hne (group_zero (Or.inr (Or.inr h'.1)))
    · have hzero := group_zero (Or.inr (Or.inr h.1))
      rcases hsame.mp (Or.inr (Or.inr (Or.inr (Or.inr h)))) with h' | h' | h' | h'
      · exact not_loopback (Or.inr h.1) h'
      · exact (hshort h').1 hzero
      · exact (hunique h').2.1 hzero
      · exact (hfe80 h').2 hzero
  · rintro ⟨hspecified, hfirst, hlong, hplain⟩
    constructor
    · rintro (h | h | h | h | h)
      · exact (hspecified h).elim
      · exact Or.inl h
      · exact Or.inr (Or.inr (Or.inr (hfirst h)))
      · exact Or.inr (Or.inr (Or.inl h))
      · exact (hplain h).elim
    · rintro (h | h | h | h)
      · exact Or.inr (Or.inl h)
      · exact (hlong h).elim
      · exact Or.inr (Or.inr (Or.inr (Or.inl h)))
      · exact Or.inr (Or.inr (Or.inl (hfe80 h).1))

/-- As a lookup presents it, an address is taken for what it is exactly where its text tells. -/
theorem local_iff_presentation :
    (address.Local ↔ LooksPrivate address.presentation) ↔
      ¬ address.Unspecified ∧ (address.LinkLocal → address.group 0 = 0xfe80) ∧
        ¬ address.ShortPrefix := by
  obtain ⟨hlink, hunique, hshort, -⟩ := group_ranges address
  rcases address.presentation_cases with ⟨hsix, h⟩ | ⟨hmapped, h⟩ | ⟨hmapped, h⟩ <;> rw [h]
  · have hlocal := Ipv6.not_local_of_six hsix
    have hzero : address.group 0 = 0 := Ipv6.group_zero_of_zeros (by omega)
    refine iff_of_true (iff_of_false hlocal not_looksPrivate_compatible) ?_
    exact ⟨fun h => hlocal (Or.inl h), fun h => ((hlink h).2.2 hzero).elim,
      fun h => (hshort h).1 hzero⟩
  · have hzero := group_zero (Or.inr (Or.inr hmapped))
    have hlocal : address.Local ↔ address.embedded.Local := by
      constructor
      · rintro (h | h | h | h | h)
        · exact (not_mapped h hmapped).elim
        · exact (not_loopback (Or.inr hmapped) h).elim
        · exact ((hlink h).2.2 hzero).elim
        · exact ((hunique h).2.1 hzero).elim
        · exact h.2
      · exact fun h => Or.inr (Or.inr (Or.inr (Or.inr ⟨hmapped, h⟩)))
    refine iff_of_true (hlocal.trans looksPrivate_mapped.symm) ?_
    exact ⟨fun h => not_mapped h hmapped, fun h => ((hlink h).2.2 hzero).elim,
      fun h => (hshort h).1 hzero⟩
  · rw [local_iff_serialize]
    simp [hmapped]

end Ranges

/-- A name looks private as `localhost`, by its first two letters, or as the address that its labels
begin with. -/
theorem looksPrivate_name {name : HostName} (hname : ¬ name.InLocalhost) :
    LooksPrivate name.text ↔ ("fc".toList <+: name.text ∨ "fd".toList <+: name.text) ∨
      ∃ address, ReadsAs name.text address ∧ address.Local := by
  have hcolon : ':' ∉ name.text := fun h => absurd (name.allowed _ h) (by decide)
  have hmapped : ipv4Mapped name.text = none := by
    unfold ipv4Mapped
    dsimp only
    rw [if_neg]
    rintro ⟨hbegins, -⟩
    exact hcolon ((List.isPrefixOf_iff_prefix.mp hbegins).subset (by decide))
  have hlocalhost : ¬ (name.text = "localhost".toList ∨ ".localhost".toList <:+ name.text) := by
    rintro (h | ⟨front, h⟩)
    · exact hname ⟨[], Or.inl (by rw [h]; decide)⟩
    · refine hname ⟨Glob.split '.' front, Or.inl ?_⟩
      have hdot : ".localhost".toList = '.' :: "localhost".toList := by decide
      have hrest : Glob.split '.' "localhost".toList = ["localhost".toList] := by decide
      rw [← h, hdot, Glob.split_append, hrest]
  unfold LooksPrivate
  rw [← isPrivateAddress_iff]
  constructor
  · rintro (h | (h | h) | h | h | ⟨_, h, -⟩ | ⟨-, -, h⟩)
    · exact (hlocalhost h).elim
    · exact (hcolon (h ▸ (by decide : ':' ∈ "::1".toList))).elim
    · exact (hcolon (h ▸ (by decide : ':' ∈ "0:0:0:0:0:0:0:1".toList))).elim
    · exact Or.inl h
    · exact (hcolon (h.subset (by decide))).elim
    · rw [hmapped] at h
      cases h
    · exact Or.inr h
  · rintro (h | h)
    · exact Or.inr (Or.inr (Or.inl h))
    · exact Or.inr (Or.inr (Or.inr (Or.inr (Or.inr ⟨hmapped, hcolon, h⟩))))

/-- What is left of the texts after normalizing. -/
def bare : HostForm → Host → List Char
  | _, .ipv4 address => address.text
  | .url, .ipv6 address => address.serialize
  | .record, .ipv6 address => address.presentation
  | _, .domain name => name.text

section Judging

variable {P : HttpPlatform} {form : HostForm} {host : Host} {text : List Char}

theorem bare_plain (form : HostForm) (host : Host) :
    (∀ c ∈ bare form host, c.toNat < 128 ∧ c.isUpper = false) ∧
      '[' ∉ bare form host ∧ ']' ∉ bare form host := by
  have haddress : ∀ text : List Char, (∀ c ∈ text, InAddress c) →
      (∀ c ∈ text, c.toNat < 128 ∧ c.isUpper = false) ∧ '[' ∉ text ∧ ']' ∉ text :=
    fun text h => ⟨fun c hc => (h c hc).1, fun hc => (h _ hc).2.1 rfl, fun hc => (h _ hc).2.2.1 rfl⟩
  cases host with
  | ipv4 address => cases form <;> exact haddress _ inAddress_text
  | ipv6 address =>
      cases form with
      | url => exact haddress _ inAddress_serialize
      | record => exact haddress _ inAddress_presentation
  | domain name =>
      have hname : (∀ c ∈ name.text, c.toNat < 128 ∧ c.isUpper = false) ∧ '[' ∉ name.text ∧
          ']' ∉ name.text :=
        ⟨name.small, fun h => absurd (name.allowed _ h) (by decide),
          fun h => absurd (name.allowed _ h) (by decide)⟩
      cases form <;> exact hname

theorem normalizedHost_bare (hkeeps : KeepsSmall P) (form : HostForm) (host : Host) :
    normalizedHost P.toLowerCase (String.ofList (bare form host)) = bare form host := by
  obtain ⟨hsmall, hopen, hclose⟩ := bare_plain form host
  exact normalizedHost_plain hkeeps hsmall hopen hclose

theorem normalizedHost_given (hkeeps : KeepsSmall P) (hgives : Gives form host text) :
    normalizedHost P.toLowerCase (String.ofList text) = bare form host := by
  cases hgives with
  | ipv4 form address =>
      have hbare : bare form (.ipv4 address) = address.text := by cases form <;> rfl
      rw [← hbare]
      exact normalizedHost_bare hkeeps form (.ipv4 address)
  | bracketed address => exact normalizedHost_bracketed hkeeps (bare_plain .url (.ipv6 address)).1
  | presented address => exact normalizedHost_bare hkeeps .record (.ipv6 address)
  | named name => exact normalizedHost_bare hkeeps .url (.domain name)

/-- **A host is judged by what it is exactly where its text tells.** -/
theorem judged_iff (hkeeps : KeepsSmall P) (hgives : Gives form host text) :
    Judged P host text ↔ Told form host := by
  have hlooks := isLocalOrPrivateHost_iff (normalizedHost_given hkeeps hgives)
  have haddress : ∀ {p : Prop}, (host.Local ↔ p) → (host.Public ↔ ¬ p) →
      (Judged P host text ↔ (p ↔ LooksPrivate (bare form host))) := by
    intro p hlocal hpublic
    unfold Judged
    rw [hlooks, hlocal, hpublic, ← Bool.not_eq_true, hlooks]
    exact ⟨fun h => ⟨h.1, fun hl => by_contra fun hp => h.2 hp hl⟩,
      fun h => ⟨h.mp, fun hp hl => hp (h.mpr hl)⟩⟩
  cases hgives with
  | ipv4 form address =>
      rw [haddress (p := address.Local) Iff.rfl Iff.rfl]
      have hbare : bare form (.ipv4 address) = address.text := by cases form <;> rfl
      rw [hbare]
      exact iff_of_true looksPrivate_text.symm (by cases form <;> trivial)
  | bracketed address =>
      rw [haddress (p := address.Local) Iff.rfl Iff.rfl]
      refine local_iff_serialize.trans ?_
      unfold Told
      simp
  | presented address =>
      rw [haddress (p := address.Local) Iff.rfl Iff.rfl]
      refine local_iff_presentation.trans ?_
      unfold Told
      simp
  | named name =>
      unfold Judged
      rw [← Bool.not_eq_true, hlooks]
      constructor
      · rintro ⟨-, hpublic⟩
        by_cases hname : name.InLocalhost
        · exact Or.inl hname
        · have hlooks' := hpublic hname
          rw [show bare .url (.domain name) = name.text from rfl, looksPrivate_name hname] at hlooks'
          push Not at hlooks'
          exact Or.inr ⟨hlooks'.1.1, hlooks'.1.2, by simpa using hlooks'.2⟩
      · intro htold
        refine ⟨fun h => h.elim, fun hname => ?_⟩
        rw [show bare .url (.domain name) = name.text from rfl, looksPrivate_name hname]
        rcases htold with h | ⟨hfc, hfd, hreads⟩
        · exact (hname h).elim
        · rintro ((h | h) | h)
          · exact hfc h
          · exact hfd h
          · exact hreads h

end Judging

/-! ### What a request follows on -/

section Fetch

variable {S : Type} (P : HttpPlatform) (context : PrimitiveContext) (input : HttpFetchInput)

/-- Every request comes right after a lookup of its host, whose records all look public. -/
inductive LookedUp (h : Prog.Handler HttpCall HttpAnswer S) : List (S × HttpCall) → Prop where
  | none : LookedUp h []
  | other {s : S} {call : HttpCall} {later : List (S × HttpCall)} (hcall : call.request = .none)
      (hlater : LookedUp h later) : LookedUp h ((s, call) :: later)
  | sent (request : HttpRequest) {s s' : S} {addresses : List String} {later : List (S × HttpCall)}
      (hrecords : (h (.lookup (String.ofList
        (normalizedHost P.toLowerCase request.url.hostname))) s).1 = .ok addresses)
      (hpublic : addresses.any (isLocalOrPrivateHost P.toLowerCase) = false)
      (hlater : LookedUp h later) :
      LookedUp h ((s, .lookup (String.ofList
        (normalizedHost P.toLowerCase request.url.hostname))) :: (s', .fetch request) :: later)

end Fetch

section Lookups

variable {S : Type} {P : HttpPlatform} {context : PrimitiveContext} {input : HttpFetchInput}
  {h : Prog.Handler HttpCall HttpAnswer S} {method : HttpMethod}

theorem LookedUp.append {front back : List (S × HttpCall)} (hfront : LookedUp P h front)
    (hback : LookedUp P h back) : LookedUp P h (front ++ back) := by
  induction hfront with
  | none => exact hback
  | other hcall _ ih => exact .other hcall ih
  | sent request hrecords hpublic _ ih => exact .sent request hrecords hpublic ih

/-- What stands before a request is the lookup of its host. -/
theorem LookedUp.before {trace front back : List (S × HttpCall)} {s : S} {request : HttpRequest}
    (hlooked : LookedUp P h trace) (htrace : trace = front ++ (s, .fetch request) :: back) :
    ∃ earlier s' addresses, front = earlier ++ [(s', .lookup (String.ofList
        (normalizedHost P.toLowerCase request.url.hostname)))] ∧
      (h (.lookup (String.ofList (normalizedHost P.toLowerCase request.url.hostname))) s').1 =
        .ok addresses ∧
      addresses.any (isLocalOrPrivateHost P.toLowerCase) = false := by
  induction hlooked generalizing front with
  | none => simp at htrace
  | other hcall _ ih =>
      cases front with
      | nil =>
          cases htrace
          cases hcall
      | cons call front =>
          obtain ⟨-, htail⟩ := List.cons.inj htrace
          obtain ⟨earlier, s', addresses, hfront, hrecords⟩ := ih htail
          exact ⟨call :: earlier, s', addresses, congrArg (call :: ·) hfront, hrecords⟩
  | @sent request' s₁ s₂ addresses later hrecords hpublic _ ih =>
      rcases front with _ | ⟨call, _ | ⟨call', front⟩⟩
      · cases htrace
      · cases htrace
        exact ⟨[], s₁, addresses, rfl, hrecords, hpublic⟩
      · obtain ⟨-, hrest⟩ := List.cons.inj htrace
        obtain ⟨-, htail⟩ := List.cons.inj hrest
        obtain ⟨earlier, s', addresses', hfront, hrecords'⟩ := ih htail
        exact ⟨call :: call' :: earlier, s', addresses', congrArg (call :: call' :: ·) hfront,
          hrecords'⟩

theorem lookedUp_sendless {α : Type} {Q : α → Prop} {program : HttpProgram α}
    (hsendless : Sendless Q program) (s : S) : LookedUp P h (Prog.exec h program s).trace := by
  induction program generalizing s with
  | done a => exact .none
  | fail message => exact .none
  | call call k ih =>
      rw [Prog.exec_call]
      refine .other hsendless.1 (ih _ ?_ _)
      cases (h call s).1 with
      | ok a => exact hsendless.2.1 a trivial
      | error message => exact hsendless.2.2 message

theorem lookedUp_bind {α β : Type} {program : HttpProgram α} {f : α → HttpProgram β}
    {s : S} (hfirst : LookedUp P h (Prog.exec h program s).trace)
    (hrest : ∀ a, (Prog.exec h program s).outcome = .ok a → ∀ s',
      LookedUp P h (Prog.exec h (f a) s').trace) :
    LookedUp P h (Prog.exec h (program.bind f) s).trace := by
  cases houtcome : (Prog.exec h program s).outcome with
  | ok a =>
      rw [Prog.exec_bind_ok h f houtcome]
      exact hfirst.append (hrest a houtcome _)
  | error message =>
      rw [Prog.exec_bind_error h f houtcome]
      exact hfirst

/-- A request is sent when its host is looked up and its records look public. -/
theorem lookedUp_fetch {β : Type} {url : Url} {headers : List (String × String)}
    {f : FetchEnd → HttpProgram β} (hfetch : context.hasFetchImpl = false)
    (hprivate : allowsPrivateNetwork context = false)
    (hrest : ∀ outcome s', LookedUp P h (Prog.exec h (f outcome) s').trace) (s : S) :
    LookedUp P h (Prog.exec h ((assertDnsPolicy P context url method).bind fun _ =>
      (Http.await (.fetch ⟨url, method, headers, input.body⟩)).bind f) s).trace := by
  unfold assertDnsPolicy
  rw [if_neg (by rw [hfetch]; decide), if_neg (by rw [hprivate]; decide)]
  split
  · exact .none
  · rw [Prog.bind_eq, Prog.bind_assoc]
    cases hlookup : h (.lookup (String.ofList (normalizedHost P.toLowerCase url.hostname))) s with
    | mk answer s' =>
    cases answer with
    | error message =>
        rw [Prog.exec_perform_bind_error h _ hlookup]
        exact .other rfl .none
    | ok addresses =>
        rw [Prog.exec_perform_bind_ok h _ hlookup]
        dsimp only
        by_cases hany : addresses.any (isLocalOrPrivateHost P.toLowerCase) = true
        · rw [if_pos hany]
          exact .other rfl .none
        · rw [if_neg hany, Prog.pure_eq, Prog.done_bind]
          have hrecords := congrArg Prod.fst hlookup
          have hpublic : addresses.any (isLocalOrPrivateHost P.toLowerCase) = false := by
            simpa using hany
          cases hanswer : h (.fetch ⟨url, method, headers, input.body⟩) s' with
          | mk outcome s'' =>
          cases outcome with
          | error message =>
              rw [Prog.exec_perform_bind_error h _ hanswer]
              exact .sent ⟨url, method, headers, input.body⟩ hrecords hpublic .none
          | ok outcome =>
              rw [Prog.exec_perform_bind_ok h _ hanswer]
              exact .sent ⟨url, method, headers, input.body⟩ hrecords hpublic
                (hrest outcome s'')

theorem lookedUp_fetchFrom (hfetch : context.hasFetchImpl = false)
    (hprivate : allowsPrivateNetwork context = false) (remaining : Nat) (current : Url)
    (headers : List (String × String)) (s : S) :
    LookedUp P h
      (Prog.exec h (fetchFrom P context input method remaining current headers) s).trace := by
  induction remaining generalizing current headers s with
  | zero => exact .none
  | succ remaining ih =>
      unfold fetchFrom
      refine lookedUp_fetch hfetch hprivate (fun outcome s' => ?_) s
      cases outcome with
      | aborted => exact .none
      | response response =>
          dsimp only
          split
          · exact .none
          · exact lookedUp_bind (lookedUp_sendless sendless_followRedirect s') fun next _ s'' =>
              ih next _ s''

/-- **Every request of a fetch comes right after a lookup whose records look public.** -/
theorem httpFetch_lookedUp (hfetch : context.hasFetchImpl = false)
    (hprivate : allowsPrivateNetwork context = false) (s : S) :
    LookedUp P h (Prog.exec h (httpFetch P context input) s).trace := by
  unfold httpFetch
  refine lookedUp_bind (lookedUp_sendless sendless_parseAllowedUrl s) fun url _ s₁ => ?_
  refine lookedUp_bind (lookedUp_sendless sendless_enforceMethod s₁) fun _ _ s₂ => ?_
  dsimp only
  split
  · exact .none
  · refine lookedUp_bind (lookedUp_sendless sendless_authenticate s₂) fun headers _ s₃ => ?_
    refine lookedUp_bind (lookedUp_fetchFrom hfetch hprivate _ _ _ s₃) fun response _ s₄ => ?_
    refine lookedUp_sendless (Q := fun _ => True) ?_ s₄
    refine Prog.obeys_bind (Q := fun _ => True) ?_ fun _ _ => ?_
    · unfold enforceContentType
      split
      · trivial
      · dsimp only
        split <;> trivial
    · refine Prog.obeys_bind (sendless_await rfl) fun bytes _ => ?_
      split
      · trivial
      · exact Prog.obeys_bind sendless_captureBody fun _ _ => trivial

end Lookups

/-! ### What a fetch reaches -/

section Reach

variable {S : Type} (P : HttpPlatform) (context : PrimitiveContext) (input : HttpFetchInput)

/-- No request of a run goes to a host that is local, or whose name was looked up to such an address,
as far as the texts tell. -/
structure ReachesNoLocal (h : Prog.Handler HttpCall HttpAnswer S) (s : S) : Prop where
  hosts : ∀ request ∈ requestsOf (Prog.exec h (httpFetch P context input) s), ∀ host,
    Gives .url host request.url.hostname.toList → Told .url host → ¬ host.Local
  records : context.hasFetchImpl = false → ∀ front s' request back,
    (Prog.exec h (httpFetch P context input) s).trace = front ++ (s', .fetch request) :: back →
    ∃ earlier s'' addresses, front = earlier ++ [(s'', .lookup (String.ofList
        (normalizedHost P.toLowerCase request.url.hostname)))] ∧
      (h (.lookup (String.ofList (normalizedHost P.toLowerCase request.url.hostname))) s'').1 =
        .ok addresses ∧
      ∀ text ∈ addresses, ∀ host, Gives .record host text.toList → Told .record host → ¬ host.Local

/-- A public host that the lists let through is not refused, nor is it for a lookup that gives public
addresses, as far as the texts tell. -/
structure RefusesNoPublic (url : Url) : Prop where
  permits : (url.protocol = "http:" ∨ url.protocol = "https:") →
    (usedLists context input).LetsThrough url.hostname → ∀ method, Permits P context input method url
  clear : ∀ addresses, (∀ text ∈ addresses, ∃ host, Gives .record host text.toList ∧
    Told .record host ∧ host.Public) → DnsClear P context addresses url

variable {P : HttpPlatform} {context : PrimitiveContext} {input : HttpFetchInput}

theorem FetchSends.sendable {requests : List HttpRequest} (hsends : FetchSends P context input requests) :
    ∀ request ∈ requests, Sendable P context input (input.method.getD .get) request.url := by
  rcases hsends with rfl | ⟨url, headers, hstarts, hhops⟩
  · simp
  · exact fun request hrequest => (hhops.sendable request hrequest).1

theorem reachesNoLocal (hkeeps : KeepsSmall P) (hprivate : allowsPrivateNetwork context = false)
    (h : Prog.Handler HttpCall HttpAnswer S) (s : S) : ReachesNoLocal P context input h s := by
  refine ⟨fun request hrequest host hgives htold hlocal => ?_,
    fun hfetch front s' request back htrace => ?_⟩
  · have hsend := (httpFetch_sends s).sendable request hrequest
    obtain ⟨-, -, hallows⟩ := permits_iff.mp hsend.permits
    have hjudged := ((judged_iff hkeeps hgives).mpr htold).1 hlocal
    rw [String.ofList_toList] at hjudged
    rw [hallows hjudged] at hprivate
    cases hprivate
  · obtain ⟨earlier, s'', addresses, hfront, hrecords, hpublic⟩ :=
      (httpFetch_lookedUp hfetch hprivate s).before htrace
    refine ⟨earlier, s'', addresses, hfront, hrecords, fun text htext host hgives htold hlocal => ?_⟩
    have hjudged := ((judged_iff hkeeps hgives).mpr htold).1 hlocal
    rw [String.ofList_toList] at hjudged
    exact absurd hjudged (List.any_eq_false.mp hpublic text htext)

theorem refusesNoPublic (hkeeps : KeepsSmall P) {url : Url} {host : Host}
    (hgives : Gives .url host url.hostname.toList) (htold : Told .url host) (hpublic : host.Public) :
    RefusesNoPublic P context input url := by
  have hnot : isLocalOrPrivateHost P.toLowerCase url.hostname = false := by
    have hjudged := ((judged_iff hkeeps hgives).mpr htold).2 hpublic
    rwa [String.ofList_toList] at hjudged
  refine ⟨fun hscheme hlists method => permits_iff.mpr ⟨hscheme, hlists, fun h => ?_⟩,
    fun addresses haddresses => Or.inr (Or.inr ⟨?_, ?_⟩)⟩
  · rw [hnot] at h
    cases h
  · have hbare := normalizedHost_given hkeeps hgives
    rw [String.ofList_toList] at hbare
    rw [hbare, ← Bool.not_eq_true,
      isLocalOrPrivateHost_iff (normalizedHost_bare hkeeps .url host),
      ← isLocalOrPrivateHost_iff hbare, hnot]
    exact Bool.false_ne_true
  · refine List.any_eq_false.mpr fun text htext => ?_
    obtain ⟨host', hgives', htold', hpublic'⟩ := haddresses text htext
    have hjudged := ((judged_iff hkeeps hgives').mpr htold').2 hpublic'
    rw [String.ofList_toList] at hjudged
    rw [hjudged]
    exact Bool.false_ne_true

/-- **A host is judged by what it is exactly where its text tells; and as far as the texts tell, no
request reaches a local host and no public host is refused.** -/
theorem private_hosts_judged_iff (hkeeps : KeepsSmall P) :
    (∀ form host text, Gives form host text → (Judged P host text ↔ Told form host)) ∧
    (∀ context input, allowsPrivateNetwork context = false →
      ∀ (S : Type) (h : Prog.Handler HttpCall HttpAnswer S) (s : S),
        ReachesNoLocal P context input h s) ∧
    (∀ context input url host, Gives .url host url.hostname.toList → Told .url host → host.Public →
      RefusesNoPublic P context input url) :=
  ⟨fun _ _ _ hgives => judged_iff hkeeps hgives,
    fun _ _ hprivate _ h s => reachesNoLocal hkeeps hprivate h s,
    fun _ _ _ _ hgives htold hpublic => refusesNoPublic hkeeps hgives htold hpublic⟩

end Reach

/-! ### Addresses that are missed, and a name that is caught -/

/-- `::ffff:127.0.0.1`. -/
def mappedLoopback : Ipv6 := ⟨[0, 0, 0, 0, 0, 0xffff, 0x7f00, 1], rfl⟩

/-- `10.0.0.1`. -/
def privateAddress : Ipv4 := ⟨10, 0, 0, 1⟩

/-- `fc.example`. -/
def publicName : HostName where
  text := ['f', 'c', '.', 'e', 'x', 'a', 'm', 'p', 'l', 'e']
  small := by simp
  allowed := by simp [isForbiddenInHost]
  isName := by decide

theorem sampleHttpPlatform_keepsSmall : KeepsSmall sampleHttpPlatform := by
  intro text hsmall
  show String.ofList ((String.ofList text).toList.map Char.toLower) = String.ofList text
  have hsame : text.map Char.toLower = text :=
    (List.map_congr_left fun c hc =>
      Char.toLower_eq_of_not_isUpper (by rw [(hsmall c hc).2]; decide)).trans (List.map_id _)
  rw [String.toList_ofList, hsame]

theorem publicName_public : Host.Public (.domain publicName) := by
  rintro ⟨labels, h | h⟩
  · have hlast := congrArg List.getLast? h
    rw [List.getLast?_concat] at hlast
    exact absurd hlast (by decide +kernel)
  · have hlast := congrArg List.getLast? h
    rw [List.append_cons, List.getLast?_concat] at hlast
    exact absurd hlast (by decide +kernel)

/-- The loopback address embedded in hexadecimal counts as public, and a public name as private. -/
theorem mappedLoopback_not_judged :
    Gives .url (.ipv6 mappedLoopback) "[::ffff:7f00:1]".toList ∧
      ¬ Judged sampleHttpPlatform (.ipv6 mappedLoopback) "[::ffff:7f00:1]".toList ∧
      Gives .url (.domain publicName) "fc.example".toList ∧
      ¬ Judged sampleHttpPlatform (.domain publicName) "fc.example".toList := by
  have haddress : Gives .url (.ipv6 mappedLoopback) "[::ffff:7f00:1]".toList := by
    have htext : "[::ffff:7f00:1]".toList = '[' :: mappedLoopback.serialize ++ [']'] := by decide +kernel
    rw [htext]
    exact .bracketed mappedLoopback
  have hname : Gives .url (.domain publicName) "fc.example".toList := by
    have htext : "fc.example".toList = publicName.text := by decide
    rw [htext]
    exact .named publicName
  refine ⟨haddress, fun hjudged => ?_, hname, fun hjudged => ?_⟩
  · obtain ⟨-, -, -, hplain⟩ := (judged_iff sampleHttpPlatform_keepsSmall haddress).mp hjudged
    exact hplain rfl (by decide)
  · rcases (judged_iff sampleHttpPlatform_keepsSmall hname).mp hjudged with h | ⟨hfc, -⟩
    · exact publicName_public h
    · exact hfc ⟨publicName.text.drop 2, by decide⟩

theorem privateAddress_judged :
    Judged sampleHttpPlatform (.ipv4 privateAddress) privateAddress.text :=
  ((private_hosts_judged_iff sampleHttpPlatform_keepsSmall).1 .url _ _
    (.ipv4 .url privateAddress)).mpr trivial

end OpenLagrange
