/-
Internet addresses and their texts.

An IPv4 address is written as four decimal numbers with dots.  An IPv6 address is written as
hexadecimal groups with colons, where two colons stand for the longest run of zero groups; in the
presentation that name lookups give, an address that embeds an IPv4 address ends in the dotted
form of it.  Which range an address belongs to is a matter of its numbers; what is shown here is
how the text tells: by its first group, and by the groups that come back when it is cut at the
colons.
-/
import Mathlib.Data.List.Basic
import Mathlib.Tactic.IntervalCases
import OpenLagrange.Lib.Glob

namespace OpenLagrange.Internet

open Glob (joined split joined_cons split_joined split_append split_sep split_free)

/-! ### Digits -/

theorem digitChar_inj : ∀ m < 16, ∀ n < 16, Nat.digitChar m = Nat.digitChar n → m = n := by
  decide

theorem toDigits_inj {b m n : Nat} (hb : 1 < b) (hb' : b ≤ 16)
    (h : Nat.toDigits b m = Nat.toDigits b n) : m = n := by
  induction m using Nat.strong_induction_on generalizing n with
  | _ m ih =>
      rw [Nat.toDigits_eq_if hb, Nat.toDigits_eq_if hb (n := n)] at h
      split at h <;> rename_i hm <;> split at h <;> rename_i hn
      · exact digitChar_inj _ (by omega) _ (by omega) (List.singleton_inj.mp h)
      · have hnil : [] = Nat.toDigits b (n / b) := List.append_inj_left' h rfl
        exact (Nat.toDigits_ne_nil hnil.symm).elim
      · have hnil : Nat.toDigits b (m / b) = [] := List.append_inj_left' h rfl
        exact (Nat.toDigits_ne_nil hnil).elim
      · obtain ⟨hfront, hlast⟩ := List.append_inj' h rfl
        have hdiv := ih (m / b) (Nat.div_lt_self (by omega) hb) hfront
        have hmod := digitChar_inj _ (lt_of_lt_of_le (Nat.mod_lt m (by omega)) hb')
          _ (lt_of_lt_of_le (Nat.mod_lt n (by omega)) hb') (List.singleton_inj.mp hlast)
        rw [← Nat.div_add_mod m b, ← Nat.div_add_mod n b, hdiv, hmod]

/-- A number's digits begin with those of another where it is that one with digits added. -/
theorem toDigits_prefix_iff {b v n : Nat} (hb : 1 < b) (hb' : b ≤ 16) :
    Nat.toDigits b v <+: Nat.toDigits b n ↔ v = n ∨ (b ≤ n ∧ Nat.toDigits b v <+: Nat.toDigits b (n / b)) := by
  by_cases hn : n < b
  · have hsingle := Nat.toDigits_of_lt_base hn
    constructor
    · intro h
      refine Or.inl (toDigits_inj hb hb' (h.eq_of_length_le ?_))
      rw [hsingle]
      exact Nat.length_toDigits_pos
    · rintro (rfl | ⟨hle, -⟩)
      · exact List.prefix_refl _
      · omega
  · rw [Nat.toDigits_of_base_le hb (Nat.not_lt.mp hn), List.prefix_concat_iff,
      ← Nat.toDigits_of_base_le hb (Nat.not_lt.mp hn)]
    constructor
    · rintro (h | h)
      · exact Or.inl (toDigits_inj hb hb' h)
      · exact Or.inr ⟨by omega, h⟩
    · rintro (rfl | ⟨-, h⟩)
      · exact Or.inl rfl
      · exact Or.inr h

/-! ### IPv4 addresses -/

structure Ipv4 where
  a : UInt8
  b : UInt8
  c : UInt8
  d : UInt8
  deriving DecidableEq, Repr

/-- `n` in decimal. -/
def decimal (n : UInt8) : List Char := Nat.toDigits 10 n.toNat

def Ipv4.octets (address : Ipv4) : List (List Char) :=
  [decimal address.a, decimal address.b, decimal address.c, decimal address.d]

/-- Four decimal numbers with dots. -/
def Ipv4.text (address : Ipv4) : List Char := joined '.' address.octets

/-- This network, loopback, link-local, or one of the private ranges. -/
def Ipv4.Local (address : Ipv4) : Prop :=
  address.a = 0 ∨ address.a = 10 ∨ address.a = 127 ∨ (address.a = 169 ∧ address.b = 254) ∨
    (address.a = 172 ∧ 16 ≤ address.b ∧ address.b ≤ 31) ∨ (address.a = 192 ∧ address.b = 168)

instance (address : Ipv4) : Decidable address.Local := by
  unfold Ipv4.Local
  infer_instance

theorem decimal_ne_nil {n : UInt8} : decimal n ≠ [] := Nat.toDigits_ne_nil

theorem isDigit_of_mem_decimal {n : UInt8} {c : Char} (h : c ∈ decimal n) : c.isDigit = true :=
  Nat.isDigit_of_mem_toDigits (by omega) (by omega) h

theorem octets_digits {address : Ipv4} {part : List Char} (h : part ∈ address.octets) :
    part ≠ [] ∧ ∀ c ∈ part, c.isDigit = true := by
  simp only [Ipv4.octets, List.mem_cons, List.not_mem_nil, or_false] at h
  rcases h with rfl | rfl | rfl | rfl <;> exact ⟨decimal_ne_nil, fun c => isDigit_of_mem_decimal⟩

theorem not_isDigit_dot : ¬ '.'.isDigit = true := by decide

theorem split_text (address : Ipv4) : split '.' address.text = address.octets := by
  refine split_joined (fun part hpart hdot => ?_) (by simp [Ipv4.octets])
  exact not_isDigit_dot ((octets_digits hpart).2 _ hdot)

theorem mem_text {address : Ipv4} {c : Char} (h : c ∈ address.text) : c.isDigit = true ∨ c = '.' := by
  by_cases hdot : c = '.'
  · exact Or.inr hdot
  · obtain ⟨part, hpart, hc⟩ := (Glob.mem_joined hdot).mp h
    exact Or.inl ((octets_digits hpart).2 c hc)

/-- The text of an address begins with a digit. -/
theorem text_head (address : Ipv4) : ∃ c rest, address.text = c :: rest ∧ c.isDigit = true := by
  cases hfirst : decimal address.a with
  | nil => exact (decimal_ne_nil hfirst).elim
  | cons c rest =>
      have hmem : c ∈ decimal address.a := by
        rw [hfirst]
        exact List.mem_cons_self
      have htext : address.text = c :: (rest ++ '.' :: joined '.' address.octets.tail) := by
        rw [Ipv4.text, Ipv4.octets, joined_cons (by simp), hfirst, List.cons_append]
        rfl
      exact ⟨c, _, htext, isDigit_of_mem_decimal hmem⟩

/-! ### IPv6 addresses -/

structure Ipv6 where
  groups : List UInt16
  eight : groups.length = 8
  deriving DecidableEq, Repr

namespace Ipv6

variable (address : Ipv6)

def group (i : Nat) : UInt16 := address.groups.getD i 0

/-- The IPv4 address in the last two groups. -/
def embedded : Ipv4 :=
  ⟨(address.group 6 / 256).toUInt8, (address.group 6).toUInt8, (address.group 7 / 256).toUInt8,
    (address.group 7).toUInt8⟩

def Unspecified : Prop := address.groups = List.replicate 8 0

def Loopback : Prop := address.groups = List.replicate 7 0 ++ [1]

/-- `fe80::/10`. -/
def LinkLocal : Prop := 0xfe80 ≤ address.group 0 ∧ address.group 0 ≤ 0xfebf

/-- `fc00::/7`. -/
def UniqueLocal : Prop := 0xfc00 ≤ address.group 0 ∧ address.group 0 ≤ 0xfdff

/-- `::ffff:0:0/96`. -/
def Mapped : Prop := address.groups.take 6 = [0, 0, 0, 0, 0, 0xffff]

instance : Decidable address.Unspecified := inferInstanceAs (Decidable (_ = _))

instance : Decidable address.Loopback := inferInstanceAs (Decidable (_ = _))

instance : Decidable address.LinkLocal := inferInstanceAs (Decidable (_ ∧ _))

instance : Decidable address.UniqueLocal := inferInstanceAs (Decidable (_ ∧ _))

instance : Decidable address.Mapped := inferInstanceAs (Decidable (_ = _))

/-- Unspecified, loopback, link-local, unique-local, or an IPv4 address that is local. -/
def Local : Prop :=
  address.Unspecified ∨ address.Loopback ∨ address.LinkLocal ∨ address.UniqueLocal ∨
    (address.Mapped ∧ address.embedded.Local)

instance : Decidable address.Local := by
  unfold Local
  infer_instance

end Ipv6

/-- `g` in hexadecimal, in small letters. -/
def hexText (g : UInt16) : List Char := Nat.toDigits 16 g.toNat

/-- How many zero groups follow one another from `i` on. -/
def zeros (groups : List UInt16) (i : Nat) : Nat := ((groups.drop i).takeWhile (· = 0)).length

/-- Where the longest run of zero groups begins; the first of several. -/
def longestZeros (groups : List UInt16) : Nat :=
  (List.range groups.length).foldl
    (fun best i => if zeros groups best < zeros groups i then i else best) 0

/-- The host that a URL gives for an address, without its brackets. -/
def Ipv6.serialize (address : Ipv6) : List Char :=
  let start := longestZeros address.groups
  if zeros address.groups start < 2 then joined ':' (address.groups.map hexText)
  else
    joined ':' ((address.groups.take start).map hexText) ++ ':' :: ':' ::
      joined ':' ((address.groups.drop (start + zeros address.groups start)).map hexText)

/-- The text that a name lookup gives for an address. -/
def Ipv6.presentation (address : Ipv6) : List Char :=
  let start := longestZeros address.groups
  if start = 0 ∧ zeros address.groups start = 6 then "::".toList ++ address.embedded.text
  else if start = 0 ∧ zeros address.groups start = 5 ∧ address.group 5 = 0xffff then
    "::ffff:".toList ++ address.embedded.text
  else address.serialize

/-! ### What the text of an IPv6 address tells -/

theorem mem_toDigits {b n : Nat} {c : Char} (hb : 1 < b) (h : c ∈ Nat.toDigits b n) :
    ∃ d < b, c = Nat.digitChar d := by
  induction n using Nat.strong_induction_on with
  | _ n ih =>
      rw [Nat.toDigits_eq_if hb] at h
      split at h
      · rename_i hn
        exact ⟨n, hn, List.mem_singleton.mp h⟩
      · rename_i hn
        rcases List.mem_append.mp h with h | h
        · exact ih _ (Nat.div_lt_self (by omega) hb) h
        · exact ⟨n % b, Nat.mod_lt n (by omega), List.mem_singleton.mp h⟩

theorem hexText_ne_nil {g : UInt16} : hexText g ≠ [] := Nat.toDigits_ne_nil

theorem hexText_inj {g g' : UInt16} (h : hexText g = hexText g') : g = g' :=
  UInt16.toNat_inj.mp (toDigits_inj (by omega) (by omega) h)

/-- A hexadecimal digit, in small letters. -/
def IsHex (c : Char) : Prop := ∃ d < 16, c = Nat.digitChar d

theorem isHex_of_mem_hexText {g : UInt16} {c : Char} (h : c ∈ hexText g) : IsHex c :=
  mem_toDigits (by omega) h

theorem not_isHex {c : Char} (h : ∀ d < 16, c ≠ Nat.digitChar d) : ¬ IsHex c := by
  rintro ⟨d, hd, rfl⟩
  exact h d hd rfl

theorem not_isHex_colon : ¬ IsHex ':' := not_isHex (by decide)

theorem colon_not_mem_hexText {gs : List UInt16} : ∀ n ∈ gs.map hexText, ':' ∉ n := by
  intro n hn
  obtain ⟨g, -, rfl⟩ := List.mem_map.mp hn
  exact fun h => not_isHex_colon (isHex_of_mem_hexText h)

theorem map_hexText_inj {gs gs' : List UInt16} (h : gs.map hexText = gs'.map hexText) : gs = gs' :=
  List.map_injective_iff.mpr (fun _ _ => hexText_inj) h

/-- The zero groups that are counted stand there. -/
theorem drop_zeros (groups : List UInt16) (i : Nat) :
    groups.drop i = List.replicate (zeros groups i) 0 ++ groups.drop (i + zeros groups i) := by
  have hzeros : (groups.drop i).takeWhile (· = 0) = List.replicate (zeros groups i) 0 := by
    refine List.eq_replicate_of_mem fun g hg => ?_
    have hall := List.all_eq_true.mp (List.all_takeWhile (p := (· = 0)) (l := groups.drop i)) g hg
    simpa using hall
  have happend := List.takeWhile_append_dropWhile (p := (· = 0)) (l := groups.drop i)
  have hdrop : (groups.drop i).dropWhile (· = 0) = groups.drop (i + zeros groups i) := by
    rw [← List.drop_drop]
    nth_rewrite 2 [← happend]
    exact (List.drop_left' rfl).symm
  rw [← hzeros, ← hdrop, happend]

namespace Ipv6

variable {address : Ipv6}

theorem serialize_cases (address : Ipv6) :
    address.serialize = joined ':' (address.groups.map hexText) ∨
      ∃ front back n, 2 ≤ n ∧ address.groups = front ++ (List.replicate n 0 ++ back) ∧
        address.serialize =
          joined ':' (front.map hexText) ++ ':' :: ':' :: joined ':' (back.map hexText) := by
  unfold serialize
  dsimp only
  split
  · exact Or.inl rfl
  · refine Or.inr ⟨_, _, _, Nat.not_lt.mp ‹_›, ?_, rfl⟩
    rw [← drop_zeros, List.take_append_drop]

theorem groups_cons (address : Ipv6) : ∃ rest, address.groups = address.group 0 :: rest ∧ rest ≠ [] := by
  have height := address.eight
  unfold group
  cases hgroups : address.groups with
  | nil => simp [hgroups] at height
  | cons g rest =>
      refine ⟨rest, rfl, ?_⟩
      rintro rfl
      simp [hgroups] at height

/-- The text begins with the first group, or that is zero and two colons stand for it. -/
theorem serialize_starts (address : Ipv6) :
    (address.group 0 = 0 ∧ ∃ rest, address.serialize = ':' :: ':' :: rest) ∨
      ∃ rest, address.serialize = hexText (address.group 0) ++ ':' :: rest := by
  obtain ⟨rest, hgroups, hrest⟩ := address.groups_cons
  rcases address.serialize_cases with h | ⟨front, back, n, hn, hsplit, h⟩
  · refine Or.inr ⟨joined ':' (rest.map hexText), ?_⟩
    rw [h, hgroups, List.map_cons, joined_cons (by simpa using hrest)]
  · cases front with
    | nil =>
        refine Or.inl ⟨?_, joined ':' (back.map hexText), h⟩
        obtain ⟨m, rfl⟩ : ∃ m, n = m + 1 := ⟨n - 1, by omega⟩
        rw [hgroups, List.replicate_succ] at hsplit
        exact (List.cons.inj hsplit).1
    | cons g front =>
        rw [hgroups] at hsplit
        obtain ⟨rfl, -⟩ := List.cons.inj hsplit
        refine Or.inr ?_
        by_cases hfront : front = []
        · subst hfront
          exact ⟨_, h⟩
        · rw [h, List.map_cons, joined_cons (by simpa using hfront), List.append_assoc,
            List.cons_append]
          exact ⟨_, rfl⟩

theorem mem_serialize {c : Char} (h : c ∈ address.serialize) : c = ':' ∨ IsHex c := by
  by_cases hcolon : c = ':'
  · exact Or.inl hcolon
  have hjoined : ∀ gs : List UInt16, c ∈ joined ':' (gs.map hexText) → IsHex c := by
    intro gs hc
    obtain ⟨n, hn, hc⟩ := (Glob.mem_joined hcolon).mp hc
    obtain ⟨g, -, rfl⟩ := List.mem_map.mp hn
    exact isHex_of_mem_hexText hc
  refine Or.inr ?_
  rcases address.serialize_cases with heq | ⟨front, back, n, -, -, heq⟩
  · exact hjoined _ (heq ▸ h)
  · rw [heq] at h
    simp only [List.mem_append, List.mem_cons, hcolon, false_or] at h
    exact h.elim (hjoined _) (hjoined _)

theorem colon_mem_serialize : ':' ∈ address.serialize := by
  rcases address.serialize_starts with ⟨-, rest, h⟩ | ⟨rest, h⟩ <;> rw [h] <;> simp

/-- The parts between the colons; none at all count as one empty part. -/
theorem split_joined_hexText (gs : List UInt16) :
    split ':' (joined ':' (gs.map hexText)) = if gs = [] then [[]] else gs.map hexText := by
  split
  · rename_i h
    rw [h]
    rfl
  · rename_i h
    exact split_joined colon_not_mem_hexText (by simpa using h)

theorem nil_not_mem_map_hexText {gs : List UInt16} : [] ∉ gs.map hexText := by
  intro h
  obtain ⟨g, -, hg⟩ := List.mem_map.mp h
  exact hexText_ne_nil hg

theorem serialize_of_loopback (h : address.Loopback) : address.serialize = "::1".toList := by
  unfold serialize
  rw [h]
  decide

theorem loopback_of_serialize (h : address.serialize = "::1".toList) : address.Loopback := by
  have hsplit := congrArg (split ':') h
  rw [show split ':' "::1".toList = [[], [], ['1']] from by decide] at hsplit
  rcases address.serialize_cases with heq | ⟨front, back, n, -, hgroups, heq⟩
  · rw [heq, split_joined_hexText, if_neg (by obtain ⟨rest, hrest, -⟩ := address.groups_cons; simp [hrest])]
      at hsplit
    exact (nil_not_mem_map_hexText (hsplit ▸ List.mem_cons_self)).elim
  · rw [heq, split_append, split_sep, split_joined_hexText, split_joined_hexText] at hsplit
    by_cases hfront : front = []
    · subst hfront
      rw [if_pos rfl] at hsplit
      have hback : (if back = [] then [[]] else back.map hexText) = [['1']] :=
        (List.cons.inj (List.cons.inj hsplit).2).2
      by_cases hnil : back = []
      · rw [if_pos hnil] at hback
        cases hback
      · rw [if_neg hnil] at hback
        have hone : back = [1] := map_hexText_inj (hback.trans (by decide))
        subst hone
        have hlength := address.eight
        rw [hgroups] at hlength
        obtain rfl : n = 7 := by simpa using hlength
        exact hgroups
    · rw [if_neg hfront] at hsplit
      cases hmap : front.map hexText with
      | nil => exact (hfront (List.map_eq_nil_iff.mp hmap)).elim
      | cons part parts =>
          rw [hmap] at hsplit
          obtain ⟨rfl, -⟩ := List.cons.inj hsplit
          exact (nil_not_mem_map_hexText (hmap ▸ List.mem_cons_self)).elim

theorem loopback_of_long (h : address.serialize = "0:0:0:0:0:0:0:1".toList) : address.Loopback := by
  have hsplit := congrArg (split ':') h
  have hlong : split ':' "0:0:0:0:0:0:0:1".toList =
      (List.replicate 7 (0 : UInt16) ++ [1]).map hexText := by decide
  rw [hlong] at hsplit
  rcases address.serialize_cases with heq | ⟨front, back, n, -, hgroups, heq⟩
  · rw [heq, split_joined_hexText, if_neg (by obtain ⟨rest, hrest, -⟩ := address.groups_cons; simp [hrest])]
      at hsplit
    exact map_hexText_inj hsplit
  · rw [heq, split_append, split_sep] at hsplit
    have hnil : [] ∈ (List.replicate 7 (0 : UInt16) ++ [1]).map hexText := by
      rw [← hsplit]
      simp
    exact (nil_not_mem_map_hexText hnil).elim

/-- How many zero groups come first. -/
theorem zeros_of_mapped (h : address.Mapped) :
    longestZeros address.groups = 0 ∧ zeros address.groups 0 = 5 ∧ address.group 5 = 0xffff := by
  obtain ⟨g, g', hgroups⟩ : ∃ g g', address.groups = [0, 0, 0, 0, 0, 0xffff, g, g'] := by
    have hlength := address.eight
    have htake := List.take_append_drop 6 address.groups
    rw [h] at htake
    have hrest : (address.groups.drop 6).length = 2 := by simp [hlength]
    obtain ⟨g, g', hdrop⟩ := List.length_eq_two.mp hrest
    rw [hdrop] at htake
    exact ⟨g, g', htake.symm⟩
  unfold longestZeros group
  rw [hgroups]
  refine ⟨?_, by simp [zeros], rfl⟩
  have hrange : List.range [0, 0, 0, 0, 0, 0xffff, g, g'].length = [0, 1, 2, 3, 4, 5, 6, 7] := rfl
  rw [hrange]
  by_cases hg : g = 0 <;> by_cases hg' : g' = 0 <;> simp [zeros, hg, hg']

theorem group_zero_of_zeros (h : 0 < zeros address.groups 0) : address.group 0 = 0 := by
  obtain ⟨rest, hgroups, -⟩ := address.groups_cons
  by_contra hne
  rw [hgroups] at h
  simp [zeros, hne] at h

/-- An address that begins with six zero groups and no more is in no local range. -/
theorem not_local_of_six (h : zeros address.groups 0 = 6) : ¬ address.Local := by
  have hzero := @group_zero_of_zeros address (by omega)
  rintro (hlocal | hlocal | hlocal | hlocal | ⟨hmapped, -⟩)
  · rw [hlocal] at h
    exact absurd h (by decide)
  · rw [hlocal] at h
    exact absurd h (by decide)
  · rw [LinkLocal, hzero] at hlocal
    exact absurd hlocal (by decide)
  · rw [UniqueLocal, hzero] at hlocal
    exact absurd hlocal (by decide)
  · have hfive := (zeros_of_mapped hmapped).2.1
    omega

/-- How a name lookup presents an address. -/
theorem presentation_cases (address : Ipv6) :
    (zeros address.groups 0 = 6 ∧ address.presentation = "::".toList ++ address.embedded.text) ∨
    (address.Mapped ∧ address.presentation = "::ffff:".toList ++ address.embedded.text) ∨
    (¬ address.Mapped ∧ address.presentation = address.serialize) := by
  unfold presentation
  dsimp only
  split
  · rename_i h
    refine Or.inl ⟨?_, rfl⟩
    rw [← h.2, h.1]
  · split
    · rename_i h
      refine Or.inr (Or.inl ⟨?_, rfl⟩)
      obtain ⟨hstart, hfive, hffff⟩ := h
      rw [hstart] at hfive
      have hdrop := drop_zeros address.groups 0
      rw [hfive, List.drop_zero] at hdrop
      unfold group at hffff
      unfold Mapped
      cases hrest : address.groups.drop (0 + 5) with
      | nil =>
          have hlength := address.eight
          rw [hdrop, hrest] at hlength
          simp at hlength
      | cons g rest =>
          rw [hrest] at hdrop
          rw [hdrop] at hffff ⊢
          have hg : g = 0xffff := hffff
          rw [hg]
          rfl
    · rename_i h
      refine Or.inr (Or.inr ⟨fun hmapped => h ?_, rfl⟩)
      obtain ⟨hstart, hfive, hffff⟩ := zeros_of_mapped hmapped
      exact ⟨hstart, hstart ▸ hfive, hffff⟩

end Ipv6

end OpenLagrange.Internet
