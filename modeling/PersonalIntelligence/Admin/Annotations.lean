import PersonalIntelligence.Contracts.Events
import PersonalIntelligence.Library.PyText
import PersonalIntelligence.Library.Table

/-!
# Annotations in `mcp_rest_api/app.py`

On the admin pages the owner writes tags on a person, and labels on the relationship to a
person or to a chat.  The lists of people and of chats can be filtered by one of them.

A handler takes the tables, and returns what it redirects to and the new tables, or raises.
The tables have the columns that these handlers read or write.  A person or chat is
addressed by its id, which has been read as a uuid.
-/

namespace PersonalIntelligence
namespace Admin

open PyText

/-! ## Texts -/

/-- `_normalize_optional_text`. -/
def normalizeOptionalText (value : Option String) : Option String :=
  value.bind fun value =>
    let normalized := strip value
    if normalized.isEmpty then none else some normalized

/-- `_normalize_string_list`, of the list that an array column is read as. -/
def normalizeStringList (value : List String) : List String := value.filter (!·.isEmpty)

/-- `re.split(r"[,;\n]", value)`. -/
def splitTags (value : String) : List String :=
  (value.toList.splitOnP fun c => c = ',' || c = ';' || c = '\n').map String.ofList

section Tags

variable [CharData]

/-- `" ".join(raw_tag.strip().split()).casefold()`. -/
def normalizeTag (rawTag : String) : String := casefold (compact (strip rawTag))

/-- The loop of `_parse_manual_tags`, from the tags it has seen on. -/
def parseTags (seen : List String) : List String → List String
  | [] => []
  | rawTag :: rest =>
    let tag := normalizeTag rawTag
    if tag.isEmpty || seen.contains tag then parseTags seen rest
    else tag :: parseTags (seen ++ [tag]) rest

/-- `_parse_manual_tags`. -/
def parseManualTags (value : String) : List String :=
  if value.isEmpty then [] else parseTags [] (splitTags value)

end Tags

/-! ## Tables -/

structure Person where
  id : Ident
  tgUserId : Option ℤ := none
  username : Option String := none
  displayName : String
  isOwner : Bool := false
  organizations : List String := []
  topics : List String := []
  manualTags : List String := []
  communicationStyle : Option String := none
  trustScore : ℚ := 1 / 2
  lastInteractionAt : Option Timestamp := none
  notes : Option String := none
  blocked : Bool := false
  createdAt : Timestamp
  updatedAt : Timestamp
  deriving DecidableEq, Repr

structure Chat where
  id : Ident
  tgChatId : ℤ
  kind : ChatType
  title : Option String := none
  isAllowed : Bool := false
  memberCount : Option ℤ := none
  updatedAt : Timestamp
  deriving DecidableEq, Repr

structure AnalysisWindow where
  chatId : Ident
  windowEnd : Timestamp
  deriving DecidableEq, Repr

structure OwnerProfile where
  id : Ident
  backingPersonId : Option Ident
  updatedAt : Timestamp
  deriving DecidableEq, Repr

/-- An annotation has one of the two targets. -/
structure RelationshipAnnotation where
  ownerProfileId : Ident
  personId : Option Ident
  chatId : Option Ident
  labels : List String
  note : Option String
  updatedAt : Timestamp
  deriving DecidableEq, Repr

structure Db where
  person : List Person := []
  chat : List Chat := []
  analysisWindow : List AnalysisWindow := []
  ownerProfile : List OwnerProfile := []
  relationshipAnnotation : List RelationshipAnnotation := []
  deriving DecidableEq, Repr

/-! ## The owner -/

section Owner

variable (db : Db)

/-- `get_owner_person_id`. -/
def getOwnerPersonId : Except Exc Ident :=
  let profile := Table.first (fun a b => b.updatedAt < a.updatedAt)
    (db.ownerProfile.filter (·.backingPersonId.isSome))
  let row := Table.first (fun a b => b.updatedAt < a.updatedAt) (db.person.filter (·.isOwner))
  match profile.bind (·.backingPersonId), row with
  | some personId, _ => .ok personId
  | none, some person => .ok person.id
  | none, none => .error (.http 404 "owner_profile_not_found")

/-- `get_owner_profile_record`, and the `current_owner` of the queries. -/
def getOwnerProfileRecord : Option OwnerProfile :=
  Table.first (fun a b => b.updatedAt < a.updatedAt) db.ownerProfile

/-- `get_current_owner_profile_id`. -/
def getCurrentOwnerProfileId : Except Exc Ident :=
  match getOwnerProfileRecord db with
  | none => .error (.http 404 "owner_profile_not_found")
  | some ownerProfile => .ok ownerProfile.id

end Owner

/-! ## Writing -/

section Updates

variable (db : Db)

/-- `update_person_annotations`.  The status is `UPDATE` and the number of rows. -/
def updatePersonAnnotations (personId : Ident) (manualTags : List String) (notes : Option String)
    (now : Timestamp) : Except Exc Db :=
  if (db.person.countP (·.id = personId)) % 10 = 0 then .error (.http 404 "person_not_found")
  else .ok { db with
    person := Table.update (fun p => decide (p.id = personId))
      (fun p => { p with manualTags, notes, updatedAt := now }) db.person }

/-- `DO UPDATE SET` of the annotations. -/
def annotated (labels : List String) (note : Option String) (now : Timestamp)
    (row : RelationshipAnnotation) : RelationshipAnnotation :=
  { row with labels, note, updatedAt := now }

/-- `update_person_relationship_annotation`.  The foreign key refuses a person that does not
exist; the status begins with `INSERT` always. -/
def updatePersonRelationshipAnnotation (personId : Ident) (labels : List String)
    (note : Option String) (now : Timestamp) : Except Exc Db := do
  let ownerProfileId ← getCurrentOwnerProfileId db
  if personId ∈ db.person.map (·.id) then
    pure { db with
      relationshipAnnotation := Table.upsert (fun row => (row.ownerProfileId, row.personId))
        (annotated labels note now)
        { ownerProfileId, personId := some personId, chatId := none, labels, note, updatedAt := now }
        db.relationshipAnnotation }
  else throw .callFailed

/-- `update_chat_relationship_annotation`. -/
def updateChatRelationshipAnnotation (chatId : Ident) (labels : List String)
    (note : Option String) (now : Timestamp) : Except Exc Db := do
  let ownerProfileId ← getCurrentOwnerProfileId db
  if chatId ∈ db.chat.map (·.id) then
    pure { db with
      relationshipAnnotation := Table.upsert (fun row => (row.ownerProfileId, row.chatId))
        (annotated labels note now)
        { ownerProfileId, personId := none, chatId := some chatId, labels, note, updatedAt := now }
        db.relationshipAnnotation }
  else throw .callFailed

end Updates

structure PersonAnnotationsForm where
  manualTags : String := ""
  notes : String := ""
  redirectTo : String := "/admin/people"
  deriving DecidableEq, Repr

structure RelationshipAnnotationForm where
  relationshipLabels : String := ""
  relationshipNote : String := ""
  redirectTo : String := "/admin/people"
  deriving DecidableEq, Repr

/-- `_redirect_with_flash`: the path, and the key of the message shown there. -/
structure Redirect where
  path : String
  flash : String
  deriving DecidableEq, Repr

section Handlers

variable [CharData] (db : Db)

/-- `admin_person_annotations`. -/
def adminPersonAnnotations (personId : Ident) (form : PersonAnnotationsForm) (now : Timestamp) :
    Except Exc (Redirect × Db) := do
  let ownerPersonId ← getOwnerPersonId db
  if personId = ownerPersonId then pure (⟨"/admin/me", "owner_profile_readonly"⟩, db)
  else do
    let saved ← updatePersonAnnotations db personId (parseManualTags form.manualTags)
      (normalizeOptionalText (some form.notes)) now
    pure (⟨form.redirectTo, "person_annotations_saved"⟩, saved)

/-- `admin_person_relationship_annotation`. -/
def adminPersonRelationshipAnnotation (personId : Ident) (form : RelationshipAnnotationForm)
    (now : Timestamp) : Except Exc (Redirect × Db) := do
  let ownerPersonId ← getOwnerPersonId db
  if personId = ownerPersonId then pure (⟨"/admin/me", "owner_profile_readonly"⟩, db)
  else do
    let saved ← updatePersonRelationshipAnnotation db personId
      (parseManualTags form.relationshipLabels)
      (normalizeOptionalText (some form.relationshipNote)) now
    pure (⟨form.redirectTo, "relationship_annotation_saved"⟩, saved)

/-- `admin_chat_relationship_annotation`. -/
def adminChatRelationshipAnnotation (chatId : Ident) (form : RelationshipAnnotationForm)
    (now : Timestamp) : Except Exc (Redirect × Db) := do
  let saved ← updateChatRelationshipAnnotation db chatId (parseManualTags form.relationshipLabels)
    (normalizeOptionalText (some form.relationshipNote)) now
  pure (⟨form.redirectTo, "relationship_annotation_saved"⟩, saved)

end Handlers

/-! ## Reading -/

/-- `ORDER BY ... DESC NULLS LAST, ... DESC`. -/
def laterFirst : Option Timestamp × Timestamp → Option Timestamp × Timestamp → Bool
  | (some a, a'), (some b, b') => decide (b < a ∨ a = b ∧ b' ≤ a')
  | (some _, _), (none, _) => true
  | (none, _), (some _, _) => false
  | (none, a'), (none, b') => decide (b' ≤ a')

/-- `COALESCE(ra.labels, ARRAY[]::text[])`. -/
def labelsOf (ra : Option RelationshipAnnotation) : List String :=
  (ra.map (·.labels)).getD []

structure PersonItem where
  id : Ident
  tgUserId : Option ℤ
  username : Option String
  displayName : String
  organizations : List String
  topics : List String
  manualTags : List String
  communicationStyle : Option String
  trustScore : ℚ
  lastInteractionAt : Option Timestamp
  blocked : Bool
  isOwner : Bool
  relationshipLabels : List String
  relationshipNote : Option String
  deriving DecidableEq, Repr

structure ChatItem where
  id : Ident
  tgChatId : ℤ
  kind : ChatType
  title : Option String
  isAllowed : Bool
  memberCount : Option ℤ
  windowCount : ℕ
  lastWindowEnd : Option Timestamp
  relationshipLabels : List String
  relationshipNote : Option String
  deriving DecidableEq, Repr

section Lists

variable (db : Db)

/-- `person p LEFT JOIN current_owner owner ON TRUE LEFT JOIN relationship_annotation ra`. -/
def peopleJoined : List (Person × Option RelationshipAnnotation) :=
  Table.leftJoin (fun p ra => (getOwnerProfileRecord db).any fun owner =>
    ra.ownerProfileId = owner.id && ra.personId = some p.id) db.person db.relationshipAnnotation

/-- The rows of `get_people_data`, before they are ordered. -/
def peopleRows (manualTag relationshipLabel : Option String) (includeOwner : Bool) :
    List (Person × Option RelationshipAnnotation) :=
  (peopleJoined db).filter fun row =>
    (normalizeOptionalText manualTag).all (row.1.manualTags.contains ·) &&
      (normalizeOptionalText relationshipLabel).all ((labelsOf row.2).contains ·) &&
      (includeOwner || !row.1.isOwner)

/-- A row as the item that the page shows. -/
def personItem (row : Person × Option RelationshipAnnotation) : PersonItem where
  id := row.1.id
  tgUserId := row.1.tgUserId
  username := row.1.username
  displayName := row.1.displayName
  organizations := normalizeStringList row.1.organizations
  topics := normalizeStringList row.1.topics
  manualTags := normalizeStringList row.1.manualTags
  communicationStyle := row.1.communicationStyle
  trustScore := row.1.trustScore
  lastInteractionAt := row.1.lastInteractionAt
  blocked := row.1.blocked
  isOwner := row.1.isOwner
  relationshipLabels := normalizeStringList (labelsOf row.2)
  relationshipNote := row.2.bind (·.note)

/-- `get_people_data`. -/
def getPeopleData (limit : ℕ) (manualTag relationshipLabel : Option String)
    (includeOwner : Bool) : List PersonItem :=
  (((peopleRows db manualTag relationshipLabel includeOwner).insertionSort fun a b =>
    laterFirst (some (a.1.lastInteractionAt.getD a.1.updatedAt), a.1.createdAt)
      (some (b.1.lastInteractionAt.getD b.1.updatedAt), b.1.createdAt)).take limit).map personItem

/-- The people of `admin_people`. -/
def adminPeople (limit : ℕ) (manualTag relationshipLabel : Option String) : List PersonItem :=
  getPeopleData db limit manualTag relationshipLabel false

/-- The rows of `get_chat_data`: an annotation is unique for an owner and a chat, so a group
is a row of this join. -/
def chatRows : List (Chat × Option RelationshipAnnotation) :=
  Table.leftJoin (fun c ra => (getOwnerProfileRecord db).any fun owner =>
    ra.ownerProfileId = owner.id && ra.chatId = some c.id) db.chat db.relationshipAnnotation

/-- The ends of the windows of a chat. -/
def windowEnds (chatId : Ident) : List Timestamp :=
  (db.analysisWindow.filter (·.chatId = chatId)).map (·.windowEnd)

def chatItem (row : Chat × Option RelationshipAnnotation) : ChatItem where
  id := row.1.id
  tgChatId := row.1.tgChatId
  kind := row.1.kind
  title := row.1.title
  isAllowed := row.1.isAllowed
  memberCount := row.1.memberCount
  windowCount := (windowEnds db row.1.id).length
  lastWindowEnd := (windowEnds db row.1.id).max?
  relationshipLabels := normalizeStringList (labelsOf row.2)
  relationshipNote := row.2.bind (·.note)

/-- `get_chat_data`. -/
def getChatData (limit : ℕ) : List ChatItem :=
  (((chatRows db).insertionSort fun a b =>
    laterFirst ((windowEnds db a.1.id).max?, a.1.updatedAt)
      ((windowEnds db b.1.id).max?, b.1.updatedAt)).take limit).map (chatItem db)

/-- The chats of `admin_chats`: the page is filtered, not the query. -/
def adminChats (limit : ℕ) (relationshipLabel : Option String) : List ChatItem :=
  match normalizeOptionalText relationshipLabel with
  | none => getChatData db limit
  | some active => (getChatData db limit).filter fun chat =>
    (normalizeStringList chat.relationshipLabels).contains active

end Lists

end Admin
end PersonalIntelligence
