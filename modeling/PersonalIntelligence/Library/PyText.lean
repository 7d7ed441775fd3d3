import Mathlib.Data.Bool.AllAny
import Mathlib.Data.Int.Basic
import Mathlib.Data.List.Dedup

/-!
# Python strings

The part of Python's `str` a text pipeline leans on: whitespace, case folding,
splitting, slicing and the ordered counting of `collections.Counter`.

Two tables decide what these methods do.  The whitespace table is short and is
written out (`isSpace`); it is the set behind `str.strip`, `str.split`,
`str.isspace` and the `\s` of `re`.  The alphanumeric, digit and case-folding
tables are the Unicode character database, which changes with every Python
release, so they are carried as a parameter: `CharData` is one such database, and
nothing below reads more of it than a statement says.
-/

namespace PyText

/-- The characters `str.isspace` accepts. -/
def isSpace (c : Char) : Bool :=
  let n := c.toNat
  (9 ≤ n && n ≤ 13) || (28 ≤ n && n ≤ 32) || n == 0x85 || n == 0xA0 || n == 0x1680 ||
    (0x2000 ≤ n && n ≤ 0x200A) || n == 0x2028 || n == 0x2029 || n == 0x202F ||
    n == 0x205F || n == 0x3000

/-- A Unicode character database: the tables behind `str.isalnum`, the `\d` of
`re`, `str.isdigit`, `str.casefold` and `re.IGNORECASE`. -/
class CharData where
  /-- `str.isalnum` on one character. -/
  isAlnum : Char → Bool
  /-- The decimal digits, which `\d` matches. -/
  isDecimal : Char → Bool
  /-- `str.isdigit` on one character. -/
  isDigit : Char → Bool
  /-- `str.casefold` on one character; the fold may be several characters long. -/
  casefold : Char → List Char
  /-- `str.lower` on one character. -/
  lower : Char → List Char
  /-- The characters `re.IGNORECASE` does not tell apart. -/
  sameIgnoringCase : Char → Char → Bool

/-! ## Whitespace -/

def lstrip (s : List Char) : List Char := s.dropWhile isSpace

def rstrip (s : List Char) : List Char := (s.reverse.dropWhile isSpace).reverse

/-- `str.strip()`. -/
def strip (s : String) : String := String.ofList (rstrip (lstrip s.toList))

/-- `s.strip(chars)`. -/
def stripChars (chars : List Char) (s : String) : String :=
  let ahead := s.toList.dropWhile (chars.contains ·)
  String.ofList (ahead.reverse.dropWhile (chars.contains ·)).reverse

/-- `not s.strip()`. -/
def isBlank (s : String) : Bool := (strip s).isEmpty

/-- `s[:n].rstrip() + "..."`, the way a text is cut short. -/
def ellipsis (s : String) (n : ℕ) : String :=
  String.ofList (rstrip (s.toList.take n) ++ "...".toList)

/-- `str.split()`: the maximal runs of characters that are not whitespace. -/
def split (s : List Char) : List (List Char) := (s.splitOnP isSpace).filter (· ≠ [])

/-- `re.sub(r"\s+", " ", s)`: `afterSpace` says that the last character was a space. -/
def collapseFrom : (afterSpace : Bool) → List Char → List Char
  | _, [] => []
  | afterSpace, c :: rest =>
    if isSpace c then
      if afterSpace then collapseFrom true rest else ' ' :: collapseFrom true rest
    else c :: collapseFrom false rest

/-- `s[:n]`. -/
def upTo (s : String) (n : ℕ) : String := String.ofList (s.toList.take n)

/-- `needle in s`. -/
def occursIn (needle s : String) : Bool := s.toList.tails.any needle.toList.isPrefixOf

/-- `" ".join(s.split())`. -/
def compact (s : String) : String := String.ofList ([' '].intercalate (split s.toList))

/-! ## Case folding and digits -/

section Unicode

variable [CharData]

/-- `str.casefold()`. -/
def casefold (s : String) : String := String.ofList (s.toList.flatMap CharData.casefold)

/-- `str.lower()`. -/
def lower (s : String) : String := String.ofList (s.toList.flatMap CharData.lower)

/-- `str.isdigit()`: false on the empty string. -/
def isDigit (s : String) : Bool := !s.isEmpty && s.toList.all CharData.isDigit

/-- The word characters of `re`: alphanumerics and the underscore. -/
def isWord (c : Char) : Bool := CharData.isAlnum c || c == '_'

end Unicode

/-! ## Counting and sorting -/

section Counter

variable {α : Type} [DecidableEq α]

/-- One `counter[a] += 1`: keys keep the order in which they first came. -/
def Counter.bump (a : α) : List (α × ℕ) → List (α × ℕ)
  | [] => [(a, 1)]
  | (b, n) :: rest => if b = a then (b, n + 1) :: rest else (b, n) :: Counter.bump a rest

/-- `collections.Counter(items)`, as its list of items. -/
def counter (items : List α) : List (α × ℕ) :=
  items.foldl (fun acc a => Counter.bump a acc) []

/-- `Counter.most_common(n)`: by falling count, ties in order of first appearance. -/
def mostCommon (n : ℕ) (c : List (α × ℕ)) : List (α × ℕ) :=
  (c.mergeSort fun x y => decide (y.2 ≤ x.2)).take n

theorem Counter.pos_of_mem_bump {a : α} :
    ∀ {c : List (α × ℕ)}, (∀ x ∈ c, 0 < x.2) → ∀ x ∈ Counter.bump a c, 0 < x.2
  | [], _, x, hx => by
    rw [Counter.bump, List.mem_singleton] at hx
    rw [hx]
    exact Nat.one_pos
  | (b, n) :: rest, hc, x, hx => by
    rw [Counter.bump] at hx
    split_ifs at hx
    · rcases List.mem_cons.mp hx with rfl | hx
      · exact Nat.succ_pos n
      · exact hc x (List.mem_cons_of_mem _ hx)
    · rcases List.mem_cons.mp hx with rfl | hx
      · exact hc _ (List.mem_cons_self ..)
      · exact Counter.pos_of_mem_bump (fun y hy => hc y (List.mem_cons_of_mem _ hy)) x hx

/-- A counted key was seen at least once. -/
theorem pos_of_mem_counter (items : List α) : ∀ x ∈ counter items, 0 < x.2 := by
  have key : ∀ (l : List α) (acc : List (α × ℕ)), (∀ x ∈ acc, 0 < x.2) →
      ∀ x ∈ l.foldl (fun acc a => Counter.bump a acc) acc, 0 < x.2 := by
    intro l
    induction l with
    | nil => exact fun acc hacc => hacc
    | cons a l ih => exact fun acc hacc => ih _ (Counter.pos_of_mem_bump hacc)
  exact key items [] (by simp)

end Counter

/-- `sorted(set(items))` for strings, in code point order. -/
def sortedSet (items : List String) : List String :=
  items.dedup.mergeSort fun x y => decide (x ≤ y)

/-- `sorted(set(items))` for integers. -/
def sortedIntSet (items : List ℤ) : List ℤ :=
  items.dedup.mergeSort fun x y => decide (x ≤ y)

/-! ## A small character database

ASCII and the Russian letters, folded the way every release of the full database
folds them.  It is the database concrete evaluations are made with. -/

def asciiLower (c : Char) : Char :=
  if 65 ≤ c.toNat && c.toNat ≤ 90 then Char.ofNat (c.toNat + 32) else c

def russianLower (c : Char) : Char :=
  if 0x410 ≤ c.toNat && c.toNat ≤ 0x42F then Char.ofNat (c.toNat + 32)
  else if c.toNat == 0x401 then Char.ofNat 0x451 else asciiLower c

def asciiDigit (c : Char) : Bool := 48 ≤ c.toNat && c.toNat ≤ 57

def asciiLetter (c : Char) : Bool :=
  (65 ≤ c.toNat && c.toNat ≤ 90) || (97 ≤ c.toNat && c.toNat ≤ 122)

def russianLetter (c : Char) : Bool :=
  (0x410 ≤ c.toNat && c.toNat ≤ 0x44F) || c.toNat == 0x401 || c.toNat == 0x451

@[reducible] def basicCharData : CharData where
  isAlnum c := asciiDigit c || asciiLetter c || russianLetter c
  isDecimal := asciiDigit
  isDigit := asciiDigit
  casefold c := [russianLower c]
  lower c := [russianLower c]
  sameIgnoringCase c d := russianLower c == russianLower d

/-- What every release of the database says of ASCII. -/
structure Ascii [CharData] : Prop where
  lower : ∀ c : Char, c.toNat < 128 → CharData.lower c = [asciiLower c]
  sameIgnoringCase : ∀ c d : Char, c.toNat < 128 → d.toNat < 128 →
    (CharData.sameIgnoringCase c d = true ↔ asciiLower c = asciiLower d)

theorem russianLower_of_ascii {c : Char} (h : c.toNat < 128) : russianLower c = asciiLower c := by
  unfold russianLower
  rw [if_neg, if_neg]
  · simp only [beq_iff_eq]
    omega
  · simp only [Bool.and_eq_true, decide_eq_true_eq]
    omega

theorem ascii_basicCharData : @Ascii basicCharData :=
  @Ascii.mk basicCharData (fun c hc => congrArg (fun d => [d]) (russianLower_of_ascii hc))
    fun c d hc hd => by
      rw [← russianLower_of_ascii hc, ← russianLower_of_ascii hd]
      exact beq_iff_eq

/-- What every release of the database says of case folding: it leaves the space and what is
folded already, and makes no word empty and puts no whitespace into it. -/
structure Folds [CharData] : Prop where
  space : CharData.casefold ' ' = [' ']
  word : ∀ c : Char, isSpace c = false →
    CharData.casefold c ≠ [] ∧ ∀ d ∈ CharData.casefold c, isSpace d = false
  again : ∀ c : Char, ∀ d ∈ CharData.casefold c, CharData.casefold d = [d]

theorem toNat_ofNat_of_lt {n : ℕ} (h : n < 0xD800) : (Char.ofNat n).toNat = n := by
  have hvalid : n.isValidChar := .inl h
  rw [Char.ofNat, dif_pos hvalid]
  rfl

theorem toNat_russianLower (c : Char) : (russianLower c).toNat =
    if 0x410 ≤ c.toNat ∧ c.toNat ≤ 0x42F then c.toNat + 32
    else if c.toNat = 0x401 then 0x451
    else if 65 ≤ c.toNat ∧ c.toNat ≤ 90 then c.toNat + 32
    else c.toNat := by
  unfold russianLower asciiLower
  simp only [Bool.and_eq_true, decide_eq_true_eq, beq_iff_eq]
  split_ifs
  · exact toNat_ofNat_of_lt (by omega)
  · rfl
  · exact toNat_ofNat_of_lt (by omega)
  · rfl

theorem folds_basicCharData : @Folds basicCharData := by
  refine @Folds.mk basicCharData (by decide) (fun c hc => ⟨List.cons_ne_nil _ _, ?_⟩) ?_
  · intro d hd
    obtain rfl := List.mem_singleton.mp hd
    have h := toNat_russianLower c
    unfold isSpace at hc ⊢
    simp only [Bool.or_eq_false_iff, Bool.and_eq_false_iff, decide_eq_false_iff_not,
      beq_eq_false_iff_ne] at hc ⊢
    split_ifs at h <;> omega
  · intro c d hd
    obtain rfl := List.mem_singleton.mp hd
    refine congrArg (fun e => [e]) (Char.toNat_inj.mp ?_)
    have h := toNat_russianLower c
    rw [toNat_russianLower]
    split_ifs at h ⊢ <;> omega

end PyText
