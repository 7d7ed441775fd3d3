import PersonalIntelligence.Contracts.Events
import PersonalIntelligence.Library.LowerCase
import PersonalIntelligence.Library.Table
import Mathlib.Data.Rat.Defs
import Mathlib.Algebra.Order.Ring.Rat

/-!
# `entity_extractor`

A message is given to a recogniser of names, and for what it finds rows are written and an
event is published.  The recogniser (`extract`) and the similarity of two texts (`ratio`, as
`fuzz.ratio(...) / 100.0`) are parameters.

The tables are those that the service reads.  What a run does is the list of its effects: each
of them is committed at once, so a run that is cut short by an exception has done the beginning
of the list.
-/

namespace PersonalIntelligence
namespace Entities

open PyText

/-! ## Tables and events -/

structure Person where
  id : Ident
  tgUserId : Option ℤ
  displayName : String
  blocked : Bool := false
  deriving DecidableEq, Repr

/-- The table `person`, with its primary key and `UNIQUE (tg_user_id)`. -/
structure People where
  rows : List Person
  nodup : (rows.map (·.id)).Nodup
  accounts : rows.Pairwise fun p q => p.tgUserId = q.tgUserId → p.tgUserId = none

structure Chat where
  id : Ident
  tgChatId : ℤ
  deriving DecidableEq, Repr

structure Db where
  person : People
  chat : List Chat
  processedEvent : List Ident

inductive EntityKind where
  | person
  | organization
  | topic
  deriving DecidableEq, Repr

structure RawEntity where
  kind : EntityKind
  surface : String
  normalized : String
  confidence : ℚ := 3 / 4
  deriving DecidableEq, Repr

/-- `EntityCandidate`. -/
structure EntityCandidate where
  kind : EntityKind
  surface : String
  normalized : String
  confidence : ℚ
  personId : Option Ident
  deriving DecidableEq, Repr

/-- `EntityFoundEvent`. -/
structure EntityFoundEvent where
  sourceEventId : Ident
  tgChatId : ℤ
  tgMessageId : ℤ
  tgSenderId : Option ℤ
  language : String
  entities : List EntityCandidate
  traceId : Option String
  deriving DecidableEq, Repr

/-- A row of `mention`. -/
structure Mention where
  chatId : Ident
  speakerPersonId : Ident
  mentionedPersonId : Ident
  messageRef : ℤ × ℤ
  context : String
  deriving DecidableEq, Repr

/-- What a run does.  The entity of a mention is not stored: it is the one the row is for. -/
inductive Effect where
  | insertMention (entity : RawEntity) (row : Mention)
  | upsertTopic (slug displayName : String)
  | publish (event : EntityFoundEvent)
  | markProcessed (eventId : Ident)
  deriving DecidableEq, Repr

/-! ## Reconciliation -/

/-- `_MIN_SIMILARITY`. -/
def minSimilarity : ℚ := 17 / 20

/-- Whether a number that may be missing counts as given. -/
def truthy (n : Option ℤ) : Bool := n.any (· ≠ 0)

/-- `SELECT id FROM person WHERE tg_user_id = $1 AND NOT blocked`. -/
def byTgUserId (rows : List Person) (tgUserId : Option ℤ) : Option Person :=
  if truthy tgUserId then rows.find? fun p => p.tgUserId = tgUserId && !p.blocked else none

/-- `SELECT id, display_name FROM person WHERE NOT blocked LIMIT 1000`. -/
def candidates (rows : List Person) : List Person := (rows.filter (!·.blocked)).take 1000

section Extractor

variable [CaseData] (ratio : String → String → ℚ)

/-- The loop of `find_person_id`, from the best match so far on. -/
def bestMatch (needle : String) : List Person → Option Ident × ℚ → Option Ident × ℚ
  | [], best => best
  | row :: rest, best =>
    let score := ratio needle (lowerCase row.displayName)
    if best.2 < score then bestMatch needle rest (some row.id, score)
    else bestMatch needle rest best

/-- `find_person_id`. -/
def findPersonId (rows : List Person) (tgUserId : Option ℤ) (displayName : Option String) :
    Option Ident :=
  match byTgUserId rows tgUserId, displayName with
  | some person, _ => some person.id
  | none, none => none
  | none, some displayName =>
    if displayName.isEmpty then none
    else
      let best := bestMatch ratio (lowerCase displayName) (candidates rows) (none, 0)
      if minSimilarity ≤ best.2 then best.1 else none

/-! ## Processing -/

section Process

variable (db : Db) (event : TelegramMessageEvent) (text : String) (entity : RawEntity)

/-- The `person_id` of the candidate. -/
def personIdOf : Option Ident :=
  match entity.kind with
  | .person => findPersonId ratio db.person.rows event.tgSenderId (some entity.surface)
  | _ => none

/-- The mention is written when both the speaker and the mentioned are known persons. -/
def mentionOf : Option Mention :=
  if truthy event.tgSenderId then
    match personIdOf ratio db event entity, findPersonId ratio db.person.rows event.tgSenderId none,
      db.chat.find? (·.tgChatId = event.tgChatId) with
    | some personId, some speakerId, some chatRow => some {
        chatId := chatRow.id
        speakerPersonId := speakerId
        mentionedPersonId := personId
        messageRef := (event.tgChatId, event.tgMessageId)
        context := upTo text 200 }
    | _, _, _ => none
  else none

/-- The writes for an entity. -/
def entityEffects : List Effect :=
  match entity.kind with
  | .person => ((mentionOf ratio db event text entity).map (.insertMention entity)).toList
  | .topic => [.upsertTopic (String.ofList (entity.normalized.toList.map fun c =>
      if c = ' ' then '-' else c)) entity.surface]
  | .organization => []

def candidateOf : EntityCandidate where
  kind := entity.kind
  surface := entity.surface
  normalized := entity.normalized
  confidence := entity.confidence
  personId := personIdOf ratio db event entity

end Process

/-- `_process_one`, of what the payload has been validated to, if it is valid. -/
def processOne (extract : String → String × List RawEntity) (db : Db)
    (payload : Option TelegramMessageEvent) : List Effect :=
  match payload with
  | none => []
  | some event =>
    match event.text with
    | none => []
    | some text =>
      if text.isEmpty || db.processedEvent.contains event.eventId then []
      else
        let (language, rawEntities) := extract text
        rawEntities.flatMap (entityEffects ratio db event text) ++
          [.publish {
              sourceEventId := event.eventId
              tgChatId := event.tgChatId
              tgMessageId := event.tgMessageId
              tgSenderId := event.tgSenderId
              language := language
              entities := rawEntities.map (candidateOf ratio db event)
              traceId := event.traceId },
            .markProcessed event.eventId]

end Extractor

end Entities
end PersonalIntelligence
