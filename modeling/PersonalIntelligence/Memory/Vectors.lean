import PersonalIntelligence.Library.Table
import PersonalIntelligence.Contracts.Events

/-!
# The vector store

Qdrant holds named collections of points.  A name may also be an alias, and then it
stands for one collection at a time: whoever reads, upserts or deletes by an alias reaches
that collection and no other.
-/

namespace PersonalIntelligence
namespace Memory

/-- The `_payload` of a point. -/
structure PointPayload where
  chatId : ℤ
  personIds : List Ident
  topicTags : List String
  tsFrom : Timestamp
  tsTo : Timestamp
  profileProvider : EmbeddingProvider
  profileModel : String
  analysisWindowId : Ident
  sourceWindowId : Ident
  narrativeText : String
  deriving DecidableEq, Repr

structure Point where
  id : Ident
  vector : List ℚ
  payload : PointPayload
  deriving DecidableEq, Repr

/-- The point is about the person. -/
def Point.Names (p : Point) (personId : Ident) : Prop := personId ∈ p.payload.personIds

instance (p : Point) (personId : Ident) : Decidable (p.Names personId) :=
  inferInstanceAs (Decidable (_ ∈ _))

structure Collection where
  /-- The size of the vectors. -/
  dimension : ℕ
  points : List Point := []
  deriving DecidableEq, Repr

structure Qdrant where
  collections : String → Option Collection := fun _ => none
  /-- The collection an alias stands for. -/
  aliases : String → Option String := fun _ => none

inductive AliasOperation where
  | delete (aliasName : String)
  | create (collectionName aliasName : String)
  deriving DecidableEq, Repr

namespace Qdrant

section Calls

variable (q : Qdrant)

/-- The collection that a name reaches. -/
def resolve (name : String) : String := (q.aliases name).getD name

def collectionExists (name : String) : Bool := (q.collections name).isSome

def set (name : String) (c : Collection) : Qdrant :=
  { q with collections := Function.update q.collections name (some c) }

/-- `create_collection`, which fails if there is one of that name. -/
def createCollection (name : String) (dimension : ℕ) : Option Qdrant :=
  if q.collectionExists name then none else some (q.set name { dimension })

/-- One operation of `update_collection_aliases`. -/
def changeAlias : AliasOperation → Qdrant
  | .delete aliasName => { q with aliases := Function.update q.aliases aliasName none }
  | .create collectionName aliasName =>
    { q with aliases := Function.update q.aliases aliasName (some collectionName) }

/-- `update_collection_aliases`, one operation after the other. -/
def changeAliases (operations : List AliasOperation) : Qdrant :=
  operations.foldl changeAlias q

/-- `upsert` of one point.  It fails without a collection, and for a vector of another
size. -/
def upsert (name : String) (p : Point) : Option Qdrant :=
  match q.collections (q.resolve name) with
  | none => none
  | some c =>
    if p.vector.length = c.dimension then
      some (q.set (q.resolve name)
        { c with points := Table.upsert Point.id (fun _ => p) p c.points })
    else none

/-- `delete` of the points that name a person. -/
def deletePerson (name : String) (personId : Ident) : Option Qdrant :=
  match q.collections (q.resolve name) with
  | none => none
  | some c => some (q.set (q.resolve name)
      { c with points := c.points.filter fun p => ¬ p.Names personId })

end Calls

/-! ## What is known of a person -/

/-- No point names the person, but perhaps in the collections in `kept`. -/
def Without (q : Qdrant) (personId : Ident) (kept : Set String) : Prop :=
  ∀ name, name ∉ kept → ∀ c ∈ q.collections name, ∀ p ∈ c.points, ¬ p.Names personId

variable {q q' : Qdrant} {personId : Ident} {kept : Set String}

/-- The collections once one has been written. -/
theorem collections_set {name other : String} {c found : Collection}
    (h : found ∈ (q.set name c).collections other) :
    other = name ∧ found = c ∨ other ≠ name ∧ found ∈ q.collections other := by
  unfold Qdrant.set at h
  by_cases hname : other = name
  · subst hname
    refine .inl ⟨rfl, ?_⟩
    simpa [eq_comm] using h
  · refine .inr ⟨hname, ?_⟩
    simpa [Function.update_of_ne hname] using h

theorem Without.set (h : q.Without personId kept) {name : String} {c : Collection}
    (hc : ∀ p ∈ c.points, ¬ p.Names personId) : (q.set name c).Without personId kept := by
  intro other hother found hfound
  rcases collections_set hfound with ⟨-, rfl⟩ | ⟨-, hold⟩
  · exact hc
  · exact h other hother found hold

theorem Without.createCollection (h : q.Without personId kept) {name : String} {dimension : ℕ}
    (hq : q.createCollection name dimension = some q') : q'.Without personId kept := by
  unfold Qdrant.createCollection at hq
  split_ifs at hq
  cases hq
  exact h.set fun p hp => by cases hp

theorem collections_changeAliases (q : Qdrant) (operations : List AliasOperation) :
    (q.changeAliases operations).collections = q.collections := by
  induction operations generalizing q with
  | nil => rfl
  | cons operation rest ih =>
    refine (ih (q.changeAlias operation)).trans ?_
    cases operation <;> rfl

theorem Without.changeAliases (h : q.Without personId kept) (operations : List AliasOperation) :
    (q.changeAliases operations).Without personId kept := by
  unfold Without
  rw [collections_changeAliases]
  exact h

theorem Without.upsert (h : q.Without personId ∅) {name : String} {p : Point}
    (hp : ¬ p.Names personId) (hq : q.upsert name p = some q') : q'.Without personId ∅ := by
  unfold Qdrant.upsert at hq
  cases hc : q.collections (q.resolve name) with
  | none =>
    rw [hc] at hq
    cases hq
  | some c =>
    rw [hc] at hq
    dsimp only at hq
    split_ifs at hq
    cases hq
    have hold := h (q.resolve name) (Set.notMem_empty _) c hc
    exact h.set (Table.forall_upsert hold (fun _ _ _ _ => hp) hp)

/-- A delete brings nothing back, -/
theorem Without.deletePerson (h : q.Without personId ∅) {name : String} {other : Ident}
    (hq : q.deletePerson name other = some q') : q'.Without personId ∅ := by
  unfold Qdrant.deletePerson at hq
  cases hc : q.collections (q.resolve name) with
  | none =>
    rw [hc] at hq
    cases hq
  | some c =>
    rw [hc] at hq
    cases hq
    exact h.set fun p hp => h _ (Set.notMem_empty _) c hc p (List.mem_of_mem_filter hp)

/-- and leaves nothing of the person in the collection that it reaches. -/
theorem Without.deletePerson_self {name : String} (h : q.Without personId {q.resolve name})
    (hq : q.deletePerson name personId = some q') : q'.Without personId ∅ := by
  unfold Qdrant.deletePerson at hq
  cases hc : q.collections (q.resolve name) with
  | none =>
    rw [hc] at hq
    cases hq
  | some c =>
    rw [hc] at hq
    cases hq
    intro other _ found hfound p hp
    rcases collections_set hfound with ⟨-, rfl⟩ | ⟨hother, hold⟩
    · simpa using List.of_mem_filter hp
    · exact h other hother found hold p hp

end Qdrant

end Memory
end PersonalIntelligence
