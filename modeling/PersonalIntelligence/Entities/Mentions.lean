import PersonalIntelligence.Entities.Extractor

/-!
# Who is mentioned

`find_person_id` has two ways to a person: the account, and a name that is similar.  The
account comes first, and `_process_one` gives it the account of the sender for every entity.

* If the account of the sender has no person, an entity is matched by its name
  (`named_of_personIdOf`), but then there is no speaker and no mention.
* If it has one, every name in the message is taken for the sender: whoever is mentioned is the
  speaker (`mentionOf_eq_some_iff`).

So a mention is of the person who was named exactly if the sender is (`mentions_iff`).
-/

namespace PersonalIntelligence
namespace Entities

open PyText

/-! ## Persons by their accounts -/

/-- The person an account belongs to, who is not blocked. -/
structure HasAccount (rows : List Person) (tgUserId : Option ℤ) (p : Person) : Prop where
  mem : p ∈ rows
  account : p.tgUserId = tgUserId
  given : truthy tgUserId = true
  active : p.blocked = false

theorem HasAccount.ne_none {rows : List Person} {tgUserId : Option ℤ} {p : Person}
    (h : HasAccount rows tgUserId p) : tgUserId ≠ none := by
  rintro rfl
  cases h.given

theorem byTgUserId_eq_some_iff (people : People) {tgUserId : Option ℤ} {p : Person} :
    byTgUserId people.rows tgUserId = some p ↔ HasAccount people.rows tgUserId p := by
  constructor
  · intro h
    unfold byTgUserId at h
    split_ifs at h with hgiven
    have hp := List.find?_some h
    rw [Bool.and_eq_true, decide_eq_true_eq, Bool.not_eq_true'] at hp
    exact ⟨List.mem_of_find?_eq_some h, hp.1, hgiven, hp.2⟩
  · intro hp
    obtain ⟨n, rfl⟩ := Option.ne_none_iff_exists'.mp hp.ne_none
    rw [byTgUserId, if_pos hp.given]
    cases hfound : people.rows.find? fun p => p.tgUserId = some n && !p.blocked with
    | none =>
      have hnot := List.find?_eq_none.mp hfound p hp.mem
      simp [hp.account, hp.active] at hnot
    | some q =>
      have hq := List.find?_some hfound
      rw [Bool.and_eq_true, decide_eq_true_eq] at hq
      rw [Table.eq_of_unique people.accounts (List.mem_of_find?_eq_some hfound) hp.mem hq.1
        hp.account]

theorem eq_of_id_eq (people : People) {p q : Person} (hp : p ∈ people.rows)
    (hq : q ∈ people.rows) (h : p.id = q.id) : p = q :=
  List.inj_on_of_nodup_map people.nodup hp hq h

section Extractor

variable [CaseData] (ratio : String → String → ℚ)

/-! ## Persons by their names -/

/-- The person has a name that is similar to the surface of an entity. -/
structure Named (rows : List Person) (surface : String) (p : Person) : Prop where
  mem : p ∈ rows
  active : p.blocked = false
  similar : minSimilarity ≤ ratio (lowerCase surface) (lowerCase p.displayName)

variable {ratio}

/-- The best match is the one it began with or that of a row. -/
theorem bestMatch_cases (needle : String) : ∀ (rows : List Person) (best : Option Ident × ℚ),
    bestMatch ratio needle rows best = best ∨
      ∃ p ∈ rows, bestMatch ratio needle rows best =
        (some p.id, ratio needle (lowerCase p.displayName))
  | [], best => .inl rfl
  | row :: rest, best => by
    rw [bestMatch]
    split_ifs with hbetter
    · rcases bestMatch_cases needle rest
          (some row.id, ratio needle (lowerCase row.displayName)) with h | ⟨p, hp, h⟩
      · exact .inr ⟨row, List.mem_cons_self, h⟩
      · exact .inr ⟨p, List.mem_cons_of_mem _ hp, h⟩
    · rcases bestMatch_cases needle rest best with h | ⟨p, hp, h⟩
      · exact .inl h
      · exact .inr ⟨p, List.mem_cons_of_mem _ hp, h⟩

/-- Without an account, a person is found by a similar name. -/
theorem named_of_findPersonId {rows : List Person} {tgUserId : Option ℤ} {surface : String}
    {id : Ident} (haccount : byTgUserId rows tgUserId = none)
    (h : findPersonId ratio rows tgUserId (some surface) = some id) :
    ∃ p, Named ratio rows surface p ∧ p.id = id := by
  simp only [findPersonId, haccount] at h
  split_ifs at h with _ hsimilar
  rcases @bestMatch_cases _ ratio (lowerCase surface) (candidates rows) (none, 0) with
    hbest | ⟨p, hp, hbest⟩
  · rw [hbest] at h
    cases h
  · rw [hbest] at h hsimilar
    have hcandidate := List.mem_filter.mp (List.mem_of_mem_take hp)
    exact ⟨p, ⟨hcandidate.1, by simpa using hcandidate.2, hsimilar⟩, Option.some.inj h⟩

theorem findPersonId_of_account {rows : List Person} {tgUserId : Option ℤ} {p : Person}
    (h : byTgUserId rows tgUserId = some p) (displayName : Option String) :
    findPersonId ratio rows tgUserId displayName = some p.id := by
  simp only [findPersonId, h]

/-- A speaker is only looked for by the account. -/
theorem findPersonId_speaker (rows : List Person) (tgUserId : Option ℤ) :
    findPersonId ratio rows tgUserId none = (byTgUserId rows tgUserId).map (·.id) := by
  cases h : byTgUserId rows tgUserId with
  | none => simp only [findPersonId, h, Option.map_none]
  | some p => rw [findPersonId_of_account h, Option.map_some]

/-! ## Mentions -/

section Process

variable {db : Db} {event : TelegramMessageEvent} {text : String} {entity : RawEntity}
  {row : Mention} {extract : String → String × List RawEntity}
  {payload : Option TelegramMessageEvent}

/-- If the sender is not known, a candidate is the person who was named. -/
theorem named_of_personIdOf (hsender : byTgUserId db.person.rows event.tgSenderId = none)
    {id : Ident} (h : personIdOf ratio db event entity = some id) :
    ∃ p, Named ratio db.person.rows entity.surface p ∧ p.id = id := by
  unfold personIdOf at h
  split at h
  · exact named_of_findPersonId hsender h
  · cases h

/-- A mention is of the sender by the sender. -/
theorem mentionOf_eq_some_iff (hkind : entity.kind = .person) :
    mentionOf ratio db event text entity = some row ↔
      ∃ sender chatRow, HasAccount db.person.rows event.tgSenderId sender ∧
        db.chat.find? (·.tgChatId = event.tgChatId) = some chatRow ∧
        row = ⟨chatRow.id, sender.id, sender.id, (event.tgChatId, event.tgMessageId),
          upTo text 200⟩ := by
  unfold mentionOf
  simp only [personIdOf, hkind, findPersonId_speaker]
  constructor
  · intro h
    split_ifs at h with hgiven
    split at h
    · rename_i personId speakerId chatRow hperson hspeaker hchat
      obtain ⟨sender, hsender, rfl⟩ := Option.map_eq_some_iff.mp hspeaker
      obtain rfl : sender.id = personId :=
        Option.some.inj ((findPersonId_of_account hsender _).symm.trans hperson)
      exact ⟨sender, chatRow, (byTgUserId_eq_some_iff _).mp hsender, hchat,
        (Option.some.inj h).symm⟩
    · cases h
  · rintro ⟨sender, chatRow, hsender, hchat, rfl⟩
    have hfound := (byTgUserId_eq_some_iff db.person).mpr hsender
    rw [if_pos hsender.given, findPersonId_of_account hfound, hfound, hchat]
    rfl

/-- The message is read: it has a text, and has not been processed. -/
structure Reads (db : Db) (payload : Option TelegramMessageEvent) (event : TelegramMessageEvent)
    (text : String) : Prop where
  valid : payload = some event
  given : event.text = some text
  nonempty : text.isEmpty = false
  fresh : event.eventId ∉ db.processedEvent

theorem mem_entityEffects {other : RawEntity} :
    .insertMention entity row ∈ entityEffects ratio db event text other ↔
      other = entity ∧ entity.kind = .person ∧ mentionOf ratio db event text entity = some row := by
  unfold entityEffects
  constructor
  · intro h
    split at h
    · rename_i hkind
      obtain ⟨row', hrow', heq⟩ := Option.map_eq_some_iff.mp (Option.mem_toList.mp h)
      obtain ⟨rfl, rfl⟩ := Effect.insertMention.inj heq
      exact ⟨rfl, hkind, hrow'⟩
    · cases List.mem_singleton.mp h
    · cases h
  · rintro ⟨rfl, hkind, hrow⟩
    simp only [hkind, hrow, Option.map_some, Option.toList_some, List.mem_singleton]

/-- The mentions of a run. -/
theorem mem_processOne : .insertMention entity row ∈ processOne ratio extract db payload ↔
    ∃ event text, Reads db payload event text ∧ entity ∈ (extract text).2 ∧
      entity.kind = .person ∧ mentionOf ratio db event text entity = some row := by
  unfold processOne
  constructor
  · intro h
    split at h
    · cases h
    rename_i event
    split at h
    · cases h
    rename_i text htext
    split_ifs at h with hdone
    · cases h
    rw [Bool.or_eq_true, not_or, Bool.not_eq_true, List.contains_iff_mem] at hdone
    rcases List.mem_append.mp h with h | h
    · obtain ⟨other, hother, h⟩ := List.mem_flatMap.mp h
      obtain ⟨rfl, hkind, hrow⟩ := mem_entityEffects.mp h
      exact ⟨event, text, ⟨rfl, htext, hdone.1, hdone.2⟩, hother, hkind, hrow⟩
    · simp at h
  · rintro ⟨event, text, ⟨rfl, htext, hnonempty, hfresh⟩, hentity, hkind, hrow⟩
    have hdone : ¬ (text.isEmpty || db.processedEvent.contains event.eventId) = true := by
      rw [Bool.or_eq_true, not_or, Bool.not_eq_true, List.contains_iff_mem]
      exact ⟨hnonempty, hfresh⟩
    dsimp only
    rw [htext]
    dsimp only
    rw [if_neg hdone]
    exact List.mem_append_left _
      (List.mem_flatMap.mpr ⟨entity, hentity, mem_entityEffects.mpr ⟨rfl, hkind, hrow⟩⟩)

/-- A mention is of a person who was named in the message, by the person who wrote it. -/
structure Mentions (ratio : String → String → ℚ) (rows : List Person)
    (event : TelegramMessageEvent) (entity : RawEntity) (row : Mention) : Prop where
  mentioned : ∃ p, Named ratio rows entity.surface p ∧ p.id = row.mentionedPersonId
  speaker : ∃ p ∈ rows, p.id = row.speakerPersonId ∧ p.tgUserId = event.tgSenderId ∧
    event.tgSenderId ≠ none

/-- **Who is mentioned** is the person who was named, in every row that a message leads to,
exactly if the message cannot lead to rows (it is not read, the sender or the chat is not known)
or names no one but the sender. -/
theorem mentions_iff :
    (∀ entity row, .insertMention entity row ∈ processOne ratio extract db payload →
      ∃ event, payload = some event ∧ Mentions ratio db.person.rows event entity row) ↔
    ∀ event text sender chatRow, Reads db payload event text →
      HasAccount db.person.rows event.tgSenderId sender →
      chatRow ∈ db.chat → chatRow.tgChatId = event.tgChatId →
      ∀ entity ∈ (extract text).2, entity.kind = .person →
        minSimilarity ≤ ratio (lowerCase entity.surface) (lowerCase sender.displayName) := by
  constructor
  · intro h event text sender chatRow hreads hsender hchat hof entity hentity hkind
    obtain ⟨found, hfound⟩ : ∃ found, db.chat.find? (·.tgChatId = event.tgChatId) = some found :=
      Option.isSome_iff_exists.mp
        (List.find?_isSome.mpr ⟨chatRow, hchat, decide_eq_true hof⟩)
    obtain ⟨event', hevent', hrow⟩ := h entity _ (mem_processOne.mpr ⟨event, text, hreads, hentity,
      hkind, (mentionOf_eq_some_iff hkind).mpr ⟨sender, found, hsender, hfound, rfl⟩⟩)
    obtain ⟨p, hp, hid⟩ := hrow.mentioned
    rw [← eq_of_id_eq db.person hp.mem hsender.mem hid]
    exact hp.similar
  · intro h entity row hrow
    obtain ⟨event, text, hreads, hentity, hkind, hrow⟩ := mem_processOne.mp hrow
    obtain ⟨sender, chatRow, hsender, hfound, rfl⟩ := (mentionOf_eq_some_iff hkind).mp hrow
    have hsimilar := h event text sender chatRow hreads hsender (List.mem_of_find?_eq_some hfound)
      (by simpa using List.find?_some hfound) entity hentity hkind
    exact ⟨event, hreads.valid,
      ⟨sender, ⟨hsender.mem, hsender.active, hsimilar⟩, rfl⟩,
      ⟨sender, hsender.mem, rfl, hsender.account, hsender.ne_none⟩⟩

end Process

end Extractor

/-- Anna, who writes, and Maria. -/
def annaAndMaria : Db where
  person := {
    rows := [⟨1, some 100, "Anna", false⟩, ⟨2, some 200, "Maria", false⟩]
    nodup := by decide
    accounts := by decide }
  chat := [⟨7, 10⟩]
  processedEvent := []

def maria : RawEntity := ⟨.person, "Maria", "maria", 3 / 4⟩

def annaWrites : TelegramMessageEvent where
  eventId := 5
  occurredAt := 0
  tgChatId := 10
  tgMessageId := 3
  tgSenderId := some 100
  text := some "Maria"

/-- Anna writes to a chat about Maria, and the row has Anna mentioned. -/
theorem maria_mentioned_as_anna :
    let _ := basicCaseData
    let ratio := fun s t : String => if s = t then (1 : ℚ) else 0
    .insertMention maria ⟨7, 1, 1, (10, 3), "Maria"⟩ ∈
        processOne ratio (fun _ => ("en", [maria])) annaAndMaria (some annaWrites) ∧
      ¬ Mentions ratio annaAndMaria.person.rows annaWrites maria ⟨7, 1, 1, (10, 3), "Maria"⟩ := by
  intro _ ratio
  refine ⟨(@mem_processOne basicCaseData ratio _ _ _ _ _).mpr ⟨annaWrites, "Maria",
    ⟨rfl, rfl, by decide, by decide⟩, List.mem_singleton_self _, rfl, ?_⟩, fun h => ?_⟩
  · exact (mentionOf_eq_some_iff rfl).mpr ⟨⟨1, some 100, "Anna", false⟩, ⟨7, 10⟩,
      ⟨by decide, rfl, by decide, rfl⟩, by decide, by decide⟩
  · obtain ⟨p, hp, hid⟩ := h.mentioned
    have hanna : p = ⟨1, some 100, "Anna", false⟩ := eq_of_id_eq annaAndMaria.person hp.mem
      (by decide) hid
    have hsimilar := hp.similar
    rw [hanna] at hsimilar
    exact absurd hsimilar (by decide +kernel)

end Entities
end PersonalIntelligence
