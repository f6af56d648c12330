/-
Texts and properties the way the source looks at them.

Prefixes, substrings and the parts around a dot are taken on characters.  `unique`
is the idiom `[...new Set(values)].sort()`: every text once, in the order of code
units.  All that later proofs use of it is which texts it holds.
-/
import OpenLagrange.Util.Value

namespace OpenLagrange

/-- `text.startsWith(start)`. -/
def startsWith (text start : String) : Bool := start.toList.isPrefixOf text.toList

/-- `text.endsWith(tail)`. -/
def endsWith (text tail : String) : Bool := tail.toList.isSuffixOf text.toList

/-- `text.includes(part)` on characters. -/
def includesChars (part : List Char) : List Char → Bool
  | [] => part.isEmpty
  | c :: text => part.isPrefixOf (c :: text) || includesChars part text

/-- `text.includes(part)`. -/
def includes (text part : String) : Bool := includesChars part.toList text.toList

/-- A character that `.` does not match. -/
def lineTerminator (c : Char) : Bool :=
  c.toNat = 0x0A ∨ c.toNat = 0x0D ∨ c.toNat = 0x2028 ∨ c.toNat = 0x2029

/-- The text before its last dot, the empty text when it has none. -/
def beforeLastDot (text : String) : String :=
  String.ofList ((text.toList.reverse.dropWhile (· ≠ '.')).drop 1).reverse

/-! ### Spaces and lines -/

/-- What `trim` takes away: white space and line terminators. -/
def jsSpace (c : Char) : Bool :=
  (9 ≤ c.toNat ∧ c.toNat ≤ 13) ∨ c.toNat = 0x20 ∨ c.toNat = 0xA0 ∨ c.toNat = 0x1680 ∨
    (0x2000 ≤ c.toNat ∧ c.toNat ≤ 0x200A) ∨ c.toNat = 0x2028 ∨ c.toNat = 0x2029 ∨
    c.toNat = 0x202F ∨ c.toNat = 0x205F ∨ c.toNat = 0x3000 ∨ c.toNat = 0xFEFF

def trimStartChars (text : List Char) : List Char := text.dropWhile jsSpace

def trimEndChars (text : List Char) : List Char := (text.reverse.dropWhile jsSpace).reverse

def trimChars (text : List Char) : List Char := trimEndChars (trimStartChars text)

/-- `text.split("\n")` on characters. -/
def splitLines : List Char → List (List Char)
  | [] => [[]]
  | c :: text =>
      match splitLines text with
      | [] => [[]]
      | line :: lines => if c = '\n' then [] :: line :: lines else (c :: line) :: lines

/-- `lines.join("\n")` on characters. -/
def joinLines (lines : List (List Char)) : List Char := ['\n'].intercalate lines

/-! ### Properties -/

/-- The own property of an object, where it has one of that name. -/
def ownField (fields : List (String × Value)) (name : String) : Option Value :=
  (fields.find? fun field => field.1 = name).map (·.2)

/-- The property of a record; a value that is no plain object has none of the names asked for. -/
def recordField (record : Value) (name : String) : Value :=
  match record with
  | .obj fields => Value.property fields name
  | _ => .undefined

/-- A text, where the value is one. -/
def textOf : Value → Option String
  | .str s => some s
  | _ => none

/-! ### Lists of texts -/

/-- `values.sort()`, in the order of code units. -/
def sortTexts (values : List String) : List String :=
  values.insertionSort fun a b => unitsLe (utf16 a) (utf16 b)

/-- `[...new Set(values)].sort()`. -/
def unique (values : List String) : List String := sortTexts (distinct values)

@[simp] theorem mem_sortTexts {values : List String} {value : String} :
    value ∈ sortTexts values ↔ value ∈ values := by
  unfold sortTexts
  rw [List.mem_insertionSort]

theorem mem_distinct {items : List String} {item : String} : item ∈ distinct items ↔ item ∈ items := by
  have hfold : ∀ (items seen : List String), item ∈ items.foldl
      (fun seen item => if item ∈ seen then seen else seen ++ [item]) seen ↔
        item ∈ seen ∨ item ∈ items := by
    intro items
    induction items with
    | nil => simp
    | cons head rest ih =>
        intro seen
        rw [List.foldl_cons, ih]
        by_cases hhead : head ∈ seen
        · rw [if_pos hhead]
          by_cases heq : item = head
          · subst heq
            simp [hhead]
          · simp [heq]
        · rw [if_neg hhead]
          simp [or_assoc]
  simpa [distinct] using hfold items []

@[simp] theorem mem_unique {values : List String} {value : String} :
    value ∈ unique values ↔ value ∈ values := by
  unfold unique
  rw [mem_sortTexts, mem_distinct]

end OpenLagrange
