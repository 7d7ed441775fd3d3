import PersonalIntelligence.Contracts.Events
import PersonalIntelligence.Library.LowerCase
import PersonalIntelligence.Library.Table
import Mathlib.Data.Finset.Insert
import Mathlib.Data.List.DropRight

/-!
# `persona_builder`

The organizations and the topics that were found in a message become part of the profile of its
sender.  The trust score is a formula in floating point of other rows; here it is the parameter
`computeTrust`.
-/

namespace PersonalIntelligence
namespace Persona

open PyText

/-- `persona_max_topics` and `persona_max_organizations`. -/
structure Settings where
  personaMaxTopics : ℤ := 20
  personaMaxOrganizations : ℤ := 10
  deriving DecidableEq, Repr

/-- The columns of `person` that are read or written. -/
structure Person where
  id : Ident
  tgUserId : Option ℤ
  blocked : Bool
  organizations : List String
  topics : List String
  trustScore : ℚ
  lastInteractionAt : Option Timestamp
  updatedAt : Timestamp
  deriving DecidableEq, Repr

/-- `xs[i:]`. -/
def sliceFrom {α : Type} (xs : List α) (i : ℤ) : List α :=
  if i < 0 then xs.rtake i.natAbs else xs.drop i.toNat

section Aggregator

variable [CaseData]

/-- The form in which an item is kept. -/
def normalForm (item : String) : String := strip (lowerCase item)

/-- The loop of `_merge_list`. -/
def mergeLoop : List String → (seen : Finset String) → (merged : List String) → List String
  | [], _, merged => merged
  | item :: rest, seen, merged =>
    let norm := normalForm item
    if norm ≠ "" ∧ norm ∉ seen then mergeLoop rest (insert norm seen) (merged ++ [norm])
    else mergeLoop rest seen merged

/-- `_merge_list`. -/
def mergeList (existing new : List String) (maxLen : ℤ) : List String :=
  sliceFrom (mergeLoop new existing.toFinset existing) (-maxLen)

/-- What `update_person_from_event` is given. -/
structure Update where
  tgSenderId : Option ℤ
  organizations : List String
  topics : List String
  occurredAt : Timestamp
  deriving DecidableEq, Repr

/-- `update_person_from_event` at the time `now`: the person, if there is one, and the table. -/
def updatePersonFromEvent (settings : Settings) (computeTrust : Ident → Timestamp → ℚ)
    (now : Timestamp) (rows : List Person) (update : Update) : Option Ident × List Person :=
  if update.tgSenderId.any (· ≠ 0) then
    match rows.find? fun p => p.tgUserId = update.tgSenderId && !p.blocked with
    | none => (none, rows)
    | some row =>
      let written : Person → Person := fun p => { p with
        organizations :=
          mergeList row.organizations update.organizations settings.personaMaxOrganizations
        topics := mergeList row.topics update.topics settings.personaMaxTopics
        trustScore := computeTrust row.id update.occurredAt
        lastInteractionAt := some update.occurredAt
        updatedAt := now }
      (some row.id, Table.update (·.id = row.id) written rows)
  else (none, rows)

end Aggregator

end Persona
end PersonalIntelligence
