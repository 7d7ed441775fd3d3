import PersonalIntelligence.Library.Spacing

/-!
# Lower case

`PyText.lower` takes every character by itself.  `str.lower` does so except for a capital sigma,
which has another lower case at the end of a word; `lowerCase` is the method in full.  What is
used of it is that it leaves alone what is lower case already, and so any part of that.
-/

namespace PyText

/-- A character database with the tables that tell whether a sigma ends a word. -/
class CaseData extends CharData where
  isCased : Char → Bool
  isCaseIgnorable : Char → Bool

section Lower

variable [CaseData]

/-- The first character that is not to be ignored is cased. -/
def nextCased (cs : List Char) : Bool :=
  (cs.dropWhile CaseData.isCaseIgnorable).head?.any CaseData.isCased

/-- The lower case of a capital sigma between two texts, the first one read backwards. -/
def lowerSigma (before rest : List Char) : Char :=
  if nextCased before && !nextCased rest then 'ς' else 'σ'

/-- The lower case of the rest of a text. -/
def lowerFrom : (before : List Char) → List Char → List Char
  | _, [] => []
  | before, c :: rest =>
    (if c = 'Σ' then [lowerSigma before rest] else CharData.lower c) ++ lowerFrom (c :: before) rest

/-- `str.lower()`, with the rule for the sigma at the end of a word. -/
def lowerCase (s : String) : String := String.ofList (lowerFrom [] s.toList)

/-- The character is its own lower case. -/
def Settled (c : Char) : Prop := c ≠ 'Σ' ∧ CharData.lower c = [c]

/-- What every release of the database says of lower case: there is none of a lower case. -/
structure Lowers : Prop where
  again : ∀ c : Char, c ≠ 'Σ' → ∀ d ∈ CharData.lower c, Settled d
  sigma : Settled 'σ'
  finalSigma : Settled 'ς'

theorem Lowers.lowerSigma (h : Lowers) (before rest : List Char) :
    Settled (lowerSigma before rest) := by
  unfold PyText.lowerSigma
  split_ifs
  · exact h.finalSigma
  · exact h.sigma

theorem Lowers.mem_lowerFrom (h : Lowers) : ∀ (before cs : List Char),
    ∀ d ∈ lowerFrom before cs, Settled d
  | _, [], _, hd => by cases hd
  | before, c :: rest, d, hd => by
    rw [lowerFrom] at hd
    rcases List.mem_append.mp hd with hd | hd
    · split_ifs at hd with hc
      · rw [List.mem_singleton.mp hd]
        exact h.lowerSigma before rest
      · exact h.again c hc d hd
    · exact h.mem_lowerFrom (c :: before) rest d hd

theorem lowerFrom_of_settled : ∀ {before cs : List Char}, (∀ c ∈ cs, Settled c) →
    lowerFrom before cs = cs
  | _, [], _ => rfl
  | before, c :: rest, h => by
    obtain ⟨hsigma, hlower⟩ := h c List.mem_cons_self
    rw [lowerFrom, if_neg hsigma, hlower,
      lowerFrom_of_settled fun d hd => h d (List.mem_cons_of_mem _ hd), List.singleton_append]

/-- Lower case stays, also of what is left when its ends are stripped. -/
theorem lowerCase_strip (h : Lowers) (s : String) :
    lowerCase (strip (lowerCase s)) = strip (lowerCase s) := by
  have hsettled : ∀ c ∈ (strip (lowerCase s)).toList, Settled c := by
    intro c hc
    rw [strip, String.toList_ofList] at hc
    have hmem := (lstrip_sublist _).mem ((rstrip_sublist _).mem hc)
    rw [lowerCase, String.toList_ofList] at hmem
    exact h.mem_lowerFrom [] s.toList c hmem
  rw [lowerCase, lowerFrom_of_settled hsettled, String.ofList_toList]

end Lower

/-- The characters of `basicCharData`, of which the letters are cased. -/
@[reducible] def basicCaseData : CaseData where
  toCharData := basicCharData
  isCased c := asciiLetter c || russianLetter c
  isCaseIgnorable c := c == '.' || c == '\''

theorem lowers_basicCaseData : @Lowers basicCaseData := by
  refine @Lowers.mk basicCaseData (fun c hc d hd =>
    ⟨?_, (@Folds.again basicCharData folds_basicCharData) c d hd⟩)
    ⟨by decide, by decide⟩ ⟨by decide, by decide⟩
  rintro rfl
  have h := toNat_russianLower c
  rw [← List.mem_singleton.mp hd] at h
  have hne : c.toNat ≠ 'Σ'.toNat := fun heq => hc (Char.toNat_inj.mp heq)
  have hsigma : 'Σ'.toNat = 931 := rfl
  rw [hsigma] at h hne
  split_ifs at h <;> omega

end PyText
