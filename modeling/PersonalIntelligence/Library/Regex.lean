import PersonalIntelligence.Library.PyText

/-!
# Backtracking regular expressions

The matcher of Python's `re`, as the list of all ways a pattern can match at a
place, in the order in which the backtracking engine tries them.  The engine's
answer is the head of that list.

A place in the text is a zipper: the characters already passed, last one first,
and the characters still ahead.  Zero-width assertions (`\b`, a lookbehind, `^`,
`$`) are one constructor, `look`, a test of the two sides.  Groups record the text
they matched.

A repetition goes round again only after an iteration that consumed something; a
pattern whose body can match the empty string is outside the patterns this library
is for.
-/

namespace Regex

/-- A pattern. -/
inductive Pat where
  /-- One character of a class. -/
  | cls : (Char → Bool) → Pat
  | eps : Pat
  | seq : Pat → Pat → Pat
  /-- Alternatives, the left one tried first. -/
  | alt : Pat → Pat → Pat
  /-- Between `min` and `max` repetitions, greedy ones trying another round first. -/
  | rep : (greedy : Bool) → (min : ℕ) → (max : Option ℕ) → Pat → Pat
  /-- A zero-width test of what lies behind (last character first) and ahead. -/
  | look : (List Char → List Char → Bool) → Pat
  /-- A numbered group. -/
  | group : ℕ → Pat → Pat

/-- A place in the text, and the groups matched on the way there. -/
structure Place where
  behind : List Char
  ahead : List Char
  groups : List (ℕ × List Char)

namespace Pat

/-- The rounds of a repetition. -/
def rounds (one : Place → List Place) (greedy : Bool) :
    (fuel : ℕ) → (min : ℕ) → (max : Option ℕ) → Place → List Place
  | 0, min, _, p => if min = 0 then [p] else []
  | fuel + 1, min, max, p =>
    let stop := if min = 0 then [p] else []
    let more :=
      if max = some 0 then []
      else (one p).flatMap fun q =>
        if q.ahead.length < p.ahead.length then
          rounds one greedy fuel (min - 1) (max.map (· - 1)) q
        else []
    if greedy then more ++ stop else stop ++ more

/-- Every way to match at a place, in the order of the backtracking engine. -/
def ways : Pat → Place → List Place
  | cls p, s =>
    match s.ahead with
    | c :: rest => if p c then [⟨c :: s.behind, rest, s.groups⟩] else []
    | [] => []
  | eps, s => [s]
  | seq a b, s => (a.ways s).flatMap b.ways
  | alt a b, s => a.ways s ++ b.ways s
  | rep greedy min max a, s => rounds a.ways greedy s.ahead.length min max s
  | look t, s => if t s.behind s.ahead then [s] else []
  | group n a, s =>
    (a.ways s).map fun t =>
      { t with groups := (n, s.ahead.take (s.ahead.length - t.ahead.length)) :: t.groups }

/-! ### Abbreviations -/

/-- The literal characters of a string. -/
def lit (s : String) : Pat := s.toList.foldr (fun c p => seq (cls (· == c)) p) eps

/-- The literal characters of a string under `re.IGNORECASE`. -/
def litIgnoreCase [PyText.CharData] (s : String) : Pat :=
  s.toList.foldr (fun c p => seq (cls (PyText.CharData.sameIgnoringCase c)) p) eps

/-- `a|b|...` for literal alternatives under `re.IGNORECASE`. -/
def anyIgnoreCase [PyText.CharData] : List String → Pat
  | [] => look fun _ _ => false
  | [s] => litIgnoreCase s
  | s :: rest => alt (litIgnoreCase s) (anyIgnoreCase rest)

/-- `a|b|...`. -/
def anyOf : List Pat → Pat
  | [] => look fun _ _ => false
  | [a] => a
  | a :: rest => alt a (anyOf rest)

def opt (a : Pat) : Pat := rep true 0 (some 1) a

def atLeast (n : ℕ) (p : Char → Bool) : Pat := rep true n none (cls p)

/-- `(?<!p)`. -/
def notBehind (p : Char → Bool) : Pat :=
  look fun behind _ => match behind with
    | c :: _ => !p c
    | [] => true

/-- `\b` for the word characters `p`. -/
def boundary (p : Char → Bool) : Pat :=
  look fun behind ahead => (behind.head?.any p) != (ahead.head?.any p)

end Pat

/-- A match: the matched text and the groups in it. -/
structure Match where
  text : List Char
  groups : List (ℕ × List Char)

/-- `match.group(n)` for a numbered group that took part in the match. -/
def Match.group (m : Match) (n : ℕ) : List Char := (m.groups.lookup n).getD []

/-- The match at a place, and the place after it. -/
def matchAt (r : Pat) (p : Place) : Option (Match × Place) :=
  match r.ways { p with groups := [] } with
  | [] => none
  | q :: _ => some (⟨p.ahead.take (p.ahead.length - q.ahead.length), q.groups⟩, q)

/-- `re.finditer`: a match is followed by the search from its end, and a failure by
the search one character on.  An empty match is followed by the next character. -/
def scan (r : Pat) : (fuel : ℕ) → Place → List Match
  | 0, _ => []
  | fuel + 1, p =>
    match matchAt r p with
    | some (m, q) =>
      if q.ahead.length < p.ahead.length then m :: scan r fuel q
      else
        match p.ahead with
        | [] => [m]
        | c :: rest => m :: scan r fuel ⟨c :: p.behind, rest, []⟩
    | none =>
      match p.ahead with
      | [] => []
      | c :: rest => scan r fuel ⟨c :: p.behind, rest, []⟩

/-- `pattern.finditer(s)`. -/
def finditer (r : Pat) (s : String) : List Match :=
  scan r (s.toList.length + 1) ⟨[], s.toList, []⟩

/-- `pattern.findall(s)` for a pattern without groups. -/
def findall (r : Pat) (s : String) : List String :=
  (finditer r s).map fun m => String.ofList m.text

/-- `pattern.search(s)`. -/
def search (r : Pat) (s : String) : Option Match := (finditer r s).head?

/-! The engine prefers the longest run of a greedy repetition and the shortest of a
lazy one. -/

example : findall (.atLeast 2 PyText.asciiLetter) "a bcd 1ef" = ["bcd", "ef"] := by decide

example : findall (.rep false 1 none (.cls PyText.asciiLetter)) "abc" = ["a", "b", "c"] := by
  decide

end Regex
