import PersonalIntelligence.Admin.Annotations

/-!
# The edit forms

The pages of a person, of a chat and of the owner have forms in which the tags that are stored
are shown, joined by commas.  A form that is submitted overwrites them.

`Store` are the tables that these pages read and write; `owner_profile` is here with the
columns of the owner's own form, which the other handlers do not look at.
-/

namespace PersonalIntelligence
namespace Admin

open PyText

/-- `tags|join(', ')`. -/
def joinTags (tags : List String) : String := ", ".intercalate tags

/-! ## Tables -/

structure OwnerProfileRow extends OwnerProfile where
  tgUserId : Option ℤ := none
  username : Option String := none
  displayName : String
  preferredLanguage : String := "ru"
  contextTags : List String := []
  profileNotes : Option String := none
  lastInteractionAt : Option Timestamp := none
  deriving DecidableEq, Repr

structure Store where
  person : List Person := []
  chat : List Chat := []
  ownerProfile : List OwnerProfileRow := []
  relationshipAnnotation : List RelationshipAnnotation := []
  deriving DecidableEq, Repr

/-- The tables as the other handlers see them. -/
def Store.db (store : Store) : Db where
  person := store.person
  chat := store.chat
  ownerProfile := store.ownerProfile.map (·.toOwnerProfile)
  relationshipAnnotation := store.relationshipAnnotation

/-- The tables after one of the other handlers, which write these two. -/
def Store.written (store : Store) : Redirect × Db → Redirect × Store
  | (redirect, db) => (redirect, { store with
      person := db.person, relationshipAnnotation := db.relationshipAnnotation })

/-- `get_owner_profile_record`, with the columns of the form. -/
def Store.ownerProfileRow (store : Store) : Option OwnerProfileRow :=
  Table.first (fun a b => b.updatedAt < a.updatedAt) store.ownerProfile

/-! ## The owner's form -/

/-- The unique constraints of `owner_profile`, in which `NULL`s are distinct. -/
def uniqueOwnerProfiles (rows : List OwnerProfileRow) : Bool :=
  decide ((rows.filterMap (·.backingPersonId)).Nodup ∧ (rows.filterMap (·.tgUserId)).Nodup)

/-- `UPDATE owner_profile SET ...`. -/
def updatedOwnerProfile (contextTags : List String) (profileNotes : Option String)
    (preferredLanguage : String) (ownerPerson : Person) (now : Timestamp) (row : OwnerProfileRow) :
    OwnerProfileRow :=
  { row with
    preferredLanguage, contextTags, profileNotes
    backingPersonId := row.backingPersonId <|> some ownerPerson.id
    tgUserId := row.tgUserId <|> ownerPerson.tgUserId
    username := row.username <|> ownerPerson.username
    lastInteractionAt := ownerPerson.lastInteractionAt <|> row.lastInteractionAt
    updatedAt := now }

/-- `INSERT INTO owner_profile ...`. -/
def newOwnerProfile (contextTags : List String) (profileNotes : Option String)
    (preferredLanguage : String) (ownerPerson : Person) (newId : Ident) (now : Timestamp) :
    OwnerProfileRow where
  id := newId
  backingPersonId := some ownerPerson.id
  updatedAt := now
  tgUserId := ownerPerson.tgUserId
  username := ownerPerson.username
  displayName := ownerPerson.displayName
  preferredLanguage := preferredLanguage
  contextTags := contextTags
  profileNotes := profileNotes
  lastInteractionAt := ownerPerson.lastInteractionAt

/-- `update_owner_profile`. -/
def updateOwnerProfile (store : Store) (contextTags : List String) (profileNotes : Option String)
    (preferredLanguage : String) (newId : Ident) (now : Timestamp) : Except Exc Store := do
  let ownerPersonId ← getOwnerPersonId store.db
  match store.person.find? (·.id = ownerPersonId), store.ownerProfileRow with
  | none, _ => throw (.http 404 "owner_profile_not_found")
  | some ownerPerson, none =>
    let rows := store.ownerProfile ++
      [newOwnerProfile contextTags profileNotes preferredLanguage ownerPerson newId now]
    if uniqueOwnerProfiles rows then pure { store with ownerProfile := rows }
    else throw .callFailed
  | some ownerPerson, some ownerProfile =>
    let rows := Table.update (·.id = ownerProfile.id)
      (updatedOwnerProfile contextTags profileNotes preferredLanguage ownerPerson now)
      store.ownerProfile
    if !uniqueOwnerProfiles rows then throw .callFailed
    else if (store.ownerProfile.countP (·.id = ownerProfile.id)) % 10 = 0 then
      throw (.http 404 "owner_profile_not_found")
    else pure { store with ownerProfile := rows }

structure OwnerProfileForm where
  contextTags : String := ""
  profileNotes : String := ""
  preferredLanguage : String := "ru"
  deriving DecidableEq, Repr

section Language

variable [CharData]

/-- `_normalize_preferred_language`. -/
def normalizePreferredLanguage (value : Option String) : String :=
  let normalized := casefold (strip (value.getD ""))
  if normalized = "ru" ∨ normalized = "en" then normalized else "ru"

/-- `admin_me_update`. -/
def adminMeUpdate (store : Store) (form : OwnerProfileForm) (newId : Ident) (now : Timestamp) :
    Except Exc (Redirect × Store) := do
  let saved ← updateOwnerProfile store (parseManualTags form.contextTags)
    (normalizeOptionalText (some form.profileNotes))
    (normalizePreferredLanguage (some form.preferredLanguage)) newId now
  pure (⟨"/admin/me", "owner_profile_saved"⟩, saved)

end Language

/-! ## What the pages show -/

/-- What the forms of a person show, of `get_person_context_data`. -/
structure PersonContext where
  isOwner : Bool
  manualTags : List String
  notes : Option String
  relationshipLabels : List String
  relationshipNote : Option String
  deriving DecidableEq, Repr

/-- What the form of a chat shows, of `get_chat_detail_data`. -/
structure ChatDetail where
  relationshipLabels : List String
  relationshipNote : Option String
  deriving DecidableEq, Repr

/-- What the owner's form shows, of `get_owner_profile_data`. -/
structure OwnerDetail where
  contextTags : List String
  preferredLanguage : String
  profileNotes : Option String
  deriving DecidableEq, Repr

section Pages

variable (store : Store)

/-- The annotation that the page of a person selects, -/
def annotationOfPerson (ownerProfileId personId : Ident) : Option RelationshipAnnotation :=
  store.relationshipAnnotation.find? fun ra =>
    ra.ownerProfileId = ownerProfileId ∧ ra.personId = some personId

/-- and the page of a chat. -/
def annotationOfChat (ownerProfileId chatId : Ident) : Option RelationshipAnnotation :=
  store.relationshipAnnotation.find? fun ra =>
    ra.ownerProfileId = ownerProfileId ∧ ra.chatId = some chatId

/-- `get_person_context_data`. -/
def getPersonContextData (personId : Ident) : Except Exc PersonContext := do
  let ownerProfileId ← getCurrentOwnerProfileId store.db
  match store.person.find? (·.id = personId) with
  | none => throw (.http 404 "person_not_found")
  | some person =>
    let ra := annotationOfPerson store ownerProfileId personId
    pure {
      isOwner := person.isOwner
      manualTags := normalizeStringList person.manualTags
      notes := person.notes
      relationshipLabels := normalizeStringList (labelsOf ra)
      relationshipNote := normalizeOptionalText (ra.bind (·.note)) }

/-- `admin_person_detail`: nothing where it redirects to the page of the owner. -/
def adminPersonDetail (personId : Ident) : Except Exc (Option PersonContext) := do
  let detail ← getPersonContextData store personId
  if detail.isOwner then pure none else pure (some detail)

/-- `get_chat_detail_data`. -/
def getChatDetailData (chatId : Ident) : Except Exc ChatDetail := do
  let ownerProfileId ← getCurrentOwnerProfileId store.db
  match store.chat.find? (·.id = chatId) with
  | none => throw (.http 404 "chat_not_found")
  | some _ =>
    let ra := annotationOfChat store ownerProfileId chatId
    pure {
      relationshipLabels := normalizeStringList (labelsOf ra)
      relationshipNote := normalizeOptionalText (ra.bind (·.note)) }

/-- The `owner_person_id` of `get_owner_profile_data`. -/
def backingPersonId : Except Exc Ident :=
  match store.ownerProfileRow.bind (·.backingPersonId) with
  | some personId => .ok personId
  | none => getOwnerPersonId store.db

/-- `get_owner_profile_data`. -/
def getOwnerProfileData [CharData] : Except Exc OwnerDetail := do
  let ownerPersonId ← backingPersonId store
  let detail ← getPersonContextData store ownerPersonId
  match store.ownerProfileRow with
  | none => pure { contextTags := [], preferredLanguage := "ru", profileNotes := detail.notes }
  | some ownerProfile =>
    pure {
      contextTags := normalizeStringList ownerProfile.contextTags
      preferredLanguage := normalizePreferredLanguage (some ownerProfile.preferredLanguage)
      profileNotes := ownerProfile.profileNotes }

end Pages

/-! ## Submitting -/

/-- A form with tags, filled in. -/
inductive TagForm where
  | personAnnotations (personId : Ident) (form : PersonAnnotationsForm)
  | personRelationship (personId : Ident) (form : RelationshipAnnotationForm)
  | chatRelationship (chatId : Ident) (form : RelationshipAnnotationForm)
  | ownerProfile (form : OwnerProfileForm)
  deriving DecidableEq, Repr

/-- The text of its tags. -/
def TagForm.text : TagForm → String
  | .personAnnotations _ form => form.manualTags
  | .personRelationship _ form => form.relationshipLabels
  | .chatRelationship _ form => form.relationshipLabels
  | .ownerProfile form => form.contextTags

section Submit

variable [CharData] (store : Store)

/-- The tags whose join the form shows. -/
def shownTags : TagForm → Except Exc (Option (List String))
  | .personAnnotations personId _ => do
    let detail ← adminPersonDetail store personId
    pure (detail.map (·.manualTags))
  | .personRelationship personId _ => do
    let detail ← adminPersonDetail store personId
    pure (detail.map (·.relationshipLabels))
  | .chatRelationship chatId _ => do
    let detail ← getChatDetailData store chatId
    pure (some detail.relationshipLabels)
  | .ownerProfile _ => do
    let detail ← getOwnerProfileData store
    pure (some detail.contextTags)

/-- The form is submitted with the tags that it shows; its other fields may have been edited. -/
def Unchanged (form : TagForm) : Prop :=
  ∃ tags, shownTags store form = .ok (some tags) ∧ form.text = joinTags tags

def submit (newId : Ident) (now : Timestamp) : TagForm → Except Exc (Redirect × Store)
  | .personAnnotations personId form => do
    pure (store.written (← adminPersonAnnotations store.db personId form now))
  | .personRelationship personId form => do
    pure (store.written (← adminPersonRelationshipAnnotation store.db personId form now))
  | .chatRelationship chatId form => do
    pure (store.written (← adminChatRelationshipAnnotation store.db chatId form now))
  | .ownerProfile form => adminMeUpdate store form newId now

end Submit

end Admin
end PersonalIntelligence
