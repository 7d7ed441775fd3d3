import PersonalIntelligence.Tasks.Writers

/-!
# Who is on the two sides of the tasks of a window

A projection writes two persons to each task of its window: the owner that it looks up once
its participants are stored, and whoever spoke first.  Both can be read off the command, the
settings and the tables before the projection.

* The first speaker is the first sender of the messages (`head_participantsOf`).
* The owner is the one who was mentioned last among the owners of the table and the
  participants whom the settings name; a participant is mentioned now
  (`selectOwner_analysed`).
* The rows that the tasks find are rows of the table before, but for the time of their last
  update and for an owner that an earlier task of the window gave them (`foundRows`).  The
  rows that the loop inserts are of messages that no row was of, and they have the two sides
  of the window from the start, so a later task that finds one changes nothing.

So the loop keeps the two sides of every row apart exactly if `SidesDiffer` holds of the
command, the settings and the tables before it (`loopWritesApart_iff_sidesDiffer`).
-/

namespace PersonalIntelligence
namespace Tasks

open PyText Resumption
open Memory (Db Task TaskUpdate Draft Drawn Person PersonUpsert)

/-! ## The first speaker -/

/-- The first sender of a window. -/
def firstSender (command : ProjectionCommand) : Option ℤ :=
  (Memory.senders command.messages).head?

/-- The first person that is enrolled is the first sender. -/
theorem head_enrolments [CharData] (settings : Memory.Settings) (topics : List String)
    (messages : List WindowMessagePayload) :
    (Memory.enrolments settings topics [] messages).head?.map (·.tgUserId) =
      (Memory.senders messages).head? := by
  induction messages with
  | nil => rfl
  | cons message rest ih =>
    unfold Memory.enrolments Memory.senders
    cases hsender : message.tgSenderId with
    | none =>
      rw [List.filterMap_cons_none hsender]
      exact ih
    | some sender =>
      rw [List.filterMap_cons_some hsender]
      rfl

section Speaker

variable [CharData] (settings : Memory.Settings) (now : Timestamp) (command : ProjectionCommand)
  (t : Draft)

/-- **The first participant** is the first sender, with the identifier of the person. -/
theorem head_participantsOf : (t.participantsOf settings now command).head? =
    (firstSender command).map fun u => (u, t.db.personId u (t.drawn + 1)) := by
  unfold firstSender
  rw [← head_enrolments settings (command.result.topics.take 8)]
  unfold Draft.participantsOf Memory.participants
  cases Memory.enrolments settings (command.result.topics.take 8) [] command.messages with
  | nil => rfl
  | cons person rest => rfl

end Speaker

/-! ## The owner -/

/-- The entry of a person of the table, if it is an owner once others are upserted: the
account and the time of the last mention. -/
def ownerEntry (now : Timestamp) (shown : List PersonUpsert) (row : Person) :
    Option (Option ℤ × Timestamp) :=
  match shown.find? fun p => row.tgUserId = some p.tgUserId with
  | some p => if row.isOwner || p.isOwner then some (row.tgUserId, now) else none
  | none => if row.isOwner then some (row.tgUserId, row.updatedAt) else none

/-- The owners once persons are upserted: those of the table, and the new ones. -/
def ownersFound (now : Timestamp) (shown : List PersonUpsert) (rows : List Person) :
    List (Option ℤ × Timestamp) :=
  rows.filterMap (ownerEntry now shown) ++
    (shown.filter fun p => p.isOwner ∧ some p.tgUserId ∉ rows.map (·.tgUserId)).map
      fun p => (some p.tgUserId, now)

/-- The account of the owner that a projection looks up, if there is an owner: the one with
the last mention. -/
def ownerFound [CharData] (settings : Memory.Settings) (now : Timestamp)
    (command : ProjectionCommand) (rows : List Person) : Option (Option ℤ) :=
  (Table.first (Memory.later Prod.snd)
    (ownersFound now (Memory.participants settings command) rows)).map (·.1)

section Owner

variable {now : Timestamp} {shown : List PersonUpsert} {rows : List Person}

/-- Without upserts, the owners are those of the table. -/
theorem ownersFound_nil : ownersFound now [] rows =
    (rows.filter (·.isOwner)).map fun row => (row.tgUserId, row.updatedAt) := by
  unfold ownersFound
  rw [List.filter_nil, List.map_nil, List.append_nil]
  induction rows with
  | nil => rfl
  | cons row rest ih =>
    cases howner : row.isOwner with
    | true =>
      have hentry : ownerEntry now [] row = some (row.tgUserId, row.updatedAt) := if_pos howner
      rw [List.filterMap_cons_some hentry, List.filter_cons_of_pos howner, ih]
      rfl
    | false =>
      have hentry : ownerEntry now [] row = none := if_neg (by simp [howner])
      rw [List.filterMap_cons_none hentry, List.filter_cons_of_neg (by simp [howner]), ih]

/-- A row of another account. -/
theorem ownerEntry_cons_of_ne {p : PersonUpsert} {row : Person} (hne : row.tgUserId ≠ some p.tgUserId) :
    ownerEntry now (p :: shown) row = ownerEntry now shown row := by
  unfold ownerEntry
  rw [List.find?_cons_of_neg (by simpa using hne)]

/-- An account that is not upserted. -/
theorem find?_shown {p : PersonUpsert} (hnew : p.tgUserId ∉ shown.map (·.tgUserId)) :
    (shown.find? fun q => some p.tgUserId = some q.tgUserId) = none := by
  refine List.find?_eq_none.mpr fun q hq heq => hnew ?_
  have hsame : p.tgUserId = q.tgUserId := Option.some.inj (of_decide_eq_true heq)
  exact hsame ▸ List.mem_map_of_mem hq

/-- A row of the account. -/
theorem ownerEntry_cons_of_eq {p : PersonUpsert} (hnew : p.tgUserId ∉ shown.map (·.tgUserId))
    {row : Person} (heq : row.tgUserId = some p.tgUserId) :
    ownerEntry now (p :: shown) row = ownerEntry now shown (p.merge now row) := by
  have hmerge : (p.merge now row).tgUserId = some p.tgUserId := heq
  unfold ownerEntry
  rw [List.find?_cons_of_pos (by simpa using heq), hmerge, find?_shown hnew, heq]
  rfl

/-- The new owners, if there is one more person. -/
theorem filter_newcomers {accounts : List (Option ℤ)} {p : PersonUpsert}
    (hnew : p.tgUserId ∉ shown.map (·.tgUserId)) :
    (shown.filter fun q => q.isOwner ∧ some q.tgUserId ∉ accounts ++ [some p.tgUserId]) =
      shown.filter fun q => q.isOwner ∧ some q.tgUserId ∉ accounts := by
  refine List.filter_congr fun q hq => ?_
  have hne : q.tgUserId ≠ p.tgUserId := fun heq => hnew (heq ▸ List.mem_map_of_mem hq)
  simp [hne]

/-- **One upsert** may be made beforehand. -/
theorem ownersFound_cons {p : PersonUpsert} (hnew : p.tgUserId ∉ shown.map (·.tgUserId))
    (id : Ident) : ownersFound now (p :: shown) rows = ownersFound now shown
      (Table.upsert Person.tgUserId (p.merge now) (p.fresh now id) rows) := by
  unfold ownersFound
  by_cases hmem : some p.tgUserId ∈ rows.map Person.tgUserId
  · have hupsert : Table.upsert Person.tgUserId (p.merge now) (p.fresh now id) rows =
        Table.update (fun row => row.tgUserId = some p.tgUserId) (p.merge now) rows := if_pos hmem
    have hkeys : (Table.update (fun row => row.tgUserId = some p.tgUserId) (p.merge now) rows).map
        (fun row => row.tgUserId) = rows.map fun row => row.tgUserId := Table.map_update fun _ => rfl
    have hrows : rows.filterMap (ownerEntry now (p :: shown)) =
        (Table.update (fun row => row.tgUserId = some p.tgUserId) (p.merge now) rows).filterMap
          (ownerEntry now shown) := by
      rw [Table.update, List.filterMap_map]
      refine List.filterMap_congr fun row _ => ?_
      rw [Function.comp_apply]
      split_ifs with heq
      · exact ownerEntry_cons_of_eq hnew (of_decide_eq_true heq)
      · exact ownerEntry_cons_of_ne (by simpa using heq)
    rw [hupsert, hkeys, hrows, List.filter_cons_of_neg (by simpa using fun _ => List.mem_map.mp hmem)]
  · have hupsert : Table.upsert Person.tgUserId (p.merge now) (p.fresh now id) rows =
        rows ++ [p.fresh now id] := if_neg hmem
    have hkeys : (rows ++ [p.fresh now id]).map (fun row => row.tgUserId) =
        rows.map (fun row => row.tgUserId) ++ [some p.tgUserId] := List.map_append
    have hrows : rows.filterMap (ownerEntry now (p :: shown)) =
        rows.filterMap (ownerEntry now shown) := by
      refine List.filterMap_congr fun row hrow => ownerEntry_cons_of_ne fun heq => ?_
      exact hmem (heq ▸ List.mem_map_of_mem hrow)
    rw [hupsert, hkeys, hrows, List.filterMap_append, filter_newcomers hnew, List.append_assoc]
    have hentry : ownerEntry now shown (p.fresh now id) =
        if p.isOwner then some (some p.tgUserId, now) else none := by
      unfold ownerEntry
      have hkey : (p.fresh now id).tgUserId = some p.tgUserId := rfl
      rw [hkey, find?_shown hnew]
      rfl
    congr 1
    cases howner : p.isOwner with
    | true =>
      rw [List.filter_cons_of_pos (by simpa [howner] using hmem), List.filterMap_cons_some
        (hentry.trans (if_pos howner))]
      rfl
    | false =>
      rw [List.filter_cons_of_neg (by simp [howner]), List.filterMap_cons_none
        (hentry.trans (if_neg (by simp [howner])))]
      rfl

variable {chatId : Ident}

/-- **The upserts of a projection.** -/
theorem ownersFound_enrolAll (hnodup : (shown.map (·.tgUserId)).Nodup) (t : Draft) :
    ownersFound now shown t.db.person =
      ((t.enrolAll now chatId shown).db.person.filter (·.isOwner)).map
        fun row => (row.tgUserId, row.updatedAt) := by
  induction shown generalizing t with
  | nil => exact ownersFound_nil
  | cons p rest ih =>
    obtain ⟨hnew, hrest⟩ := List.nodup_cons.mp hnodup
    rw [ownersFound_cons hnew t.drawn]
    have hstep : (t.enrol now chatId p).db.person = Table.upsert Person.tgUserId (p.merge now)
        (p.fresh now t.drawn) t.db.person := t.enrol_person p
    rw [← hstep]
    exact ih hrest (t.enrol now chatId p)

variable [CharData] (settings : Memory.Settings) (now : Timestamp) (command : ProjectionCommand)
  (t : Draft)

theorem analysed_person : (t.analysed settings now command).person =
    (t.enrolled settings now command).db.person := by
  rw [Draft.analysed, Db.replaceSignals_eq, Db.replaceFacts_eq]
  rfl

/-- **The owner that a projection looks up.** -/
theorem selectOwner_analysed :
    (∃ row ∈ (t.analysed settings now command).person,
      (t.analysed settings now command).selectOwner = some row.id ∧
        ownerFound settings now command t.db.person = some row.tgUserId) ∨
    (t.analysed settings now command).selectOwner = none ∧
      ownerFound settings now command t.db.person = none := by
  have howners : ownersFound now (Memory.participants settings command) t.db.person =
      ((t.analysed settings now command).person.filter (·.isOwner)).map
        fun row => (row.tgUserId, row.updatedAt) := by
    rw [analysed_person]
    exact ownersFound_enrolAll (Memory.nodup_enrolments _ _ _ _) (t.upsertChat command)
  unfold ownerFound Db.selectOwner
  rw [howners, Table.first_map, Option.map_map]
  have hbefore : (fun x y : Person => Memory.later Prod.snd (x.tgUserId, x.updatedAt)
      (y.tgUserId, y.updatedAt)) = Memory.later Person.updatedAt := rfl
  rw [hbefore]
  cases hfirst : Table.first (Memory.later Person.updatedAt)
      ((t.analysed settings now command).person.filter (·.isOwner)) with
  | none => exact .inr ⟨rfl, rfl⟩
  | some row =>
    exact .inl ⟨row, (List.mem_filter.mp (Table.mem_of_first hfirst)).1, rfl, rfl⟩

variable {settings now command t} {u : ℤ}

/-- The first speaker is a person. -/
theorem hasPerson_firstSender (hu : firstSender command = some u) :
    (t.analysed settings now command).HasPerson u (t.db.personId u (t.drawn + 1)) := by
  have hhead := head_participantsOf settings now command t
  rw [hu, Option.map_some] at hhead
  have hperson := Draft.hasPerson_of_mem_participantMap (List.mem_of_mem_head? hhead)
  unfold Db.HasPerson
  rw [analysed_person]
  exact hperson

/-- **The owner is the first speaker** exactly if the account is. -/
theorem selectOwner_eq_speaker_iff (h : t.db.PersonsSound t.drawn)
    (hu : firstSender command = some u) : (t.analysed settings now command).selectOwner =
      some (t.db.personId u (t.drawn + 1)) ↔
        ownerFound settings now command t.db.person = some (some u) := by
  have hchat : (t.upsertChat command).db.PersonsSound (t.upsertChat command).drawn :=
    (h.mono (Nat.le_succ _)).congr rfl
  have hsound : (t.analysed settings now command).PersonsSound
      (t.enrolled settings now command).drawn :=
    (hchat.enrolAll now _ _).congr (analysed_person settings now command t)
  have hspeaker := @hasPerson_firstSender _ settings now command t u hu
  rcases selectOwner_analysed settings now command t with
    ⟨row, hrow, howner, hfound⟩ | ⟨howner, hfound⟩
  · rw [howner, hfound, Option.some_inj, Option.some_inj]
    constructor
    · intro hid
      obtain ⟨row', hrow', hu', hid'⟩ := hspeaker
      rw [List.inj_on_of_nodup_map hsound.ids.nodup hrow hrow' (hid.trans hid'.symm)]
      exact hu'
    · intro haccount
      exact hsound.accounts u _ _ ⟨row, hrow, haccount, rfl⟩ hspeaker
  · rw [howner, hfound]
    exact iff_of_false (by simp) (by simp)

end Owner

/-! ## The writes of the loop -/

/-- The owner is not the counterpart, where both are known. -/
def Apart (row : Task) : Prop := ∀ p ∈ row.ownerPersonId, row.counterpartPersonId ≠ some p

/-- The columns of a row that a write finds; a new row has none. -/
def sidesFound (db : Db) (chatId : Ident) (task : StructuredTask) : Option Ident × Option Ident :=
  ((db.findTask chatId (Memory.evidenceId task)).bind (selectSides db)).getD (none, none)

/-- What a write leaves in the two columns is not one person: the new owner, or the old one
if there is none, is not the first speaker, or the old counterpart if there is none. -/
def WritesApart (ownerPersonId firstCounterpart : Option Ident)
    (found : Option Ident × Option Ident) : Prop :=
  ∀ p ∈ ownerPersonId.or found.1, firstCounterpart.or found.2 ≠ some p

/-- Every write of the loop of a projection does so. -/
def LoopWritesApart (now : Timestamp) (chatId : Ident) (command : ProjectionCommand)
    (ownerPersonId firstCounterpart : Option Ident) : Draft → List StructuredTask → Prop :=
  Runs.Meets
    (fun (t : Draft) task => (t.syncTask now chatId command ownerPersonId firstCounterpart task).2)
    fun t task => WritesApart ownerPersonId firstCounterpart (sidesFound t.db chatId task)

/-- The row of a table that a task finds. -/
def foundRow (chatId : Ident) (rows : List Task) (task : StructuredTask) : Option Task :=
  Table.first Memory.Db.taskBefore (rows.filter fun row =>
    row.chatId = some chatId ∧ row.sourceMessageRef.tgMessageId = Memory.evidenceId task)

/-- What later tasks see of a row that was found: it is updated now, and has an owner if
there is one. -/
def markFound (now : Timestamp) (ownerPersonId : Option Ident) (row : Task) : Task :=
  { row with ownerPersonId := ownerPersonId.or row.ownerPersonId, updatedAt := now }

/-- The rows of a table that the tasks of a window find, one after the other. -/
def foundRows (now : Timestamp) (chatId : Ident) (ownerPersonId : Option Ident) :
    List Task → List StructuredTask → List Task
  | _, [] => []
  | rows, task :: rest =>
    match foundRow chatId rows task with
    | none => foundRows now chatId ownerPersonId rows rest
    | some row => row :: foundRows now chatId ownerPersonId
        (Table.update (fun other => other.id = row.id) (markFound now ownerPersonId) rows) rest

section Loop

variable {now : Timestamp} {chatId : Ident} {command : ProjectionCommand}
  {ownerPersonId firstCounterpart : Option Ident} {task : StructuredTask} {t : Draft}
  {rows : List Task} {row row' : Task}

/-- A row that is found is in the table, and of the message. -/
theorem mem_of_foundRow (h : foundRow chatId rows task = some row) :
    row ∈ rows ∧ row.OfSource chatId (Memory.evidenceId task) := by
  obtain ⟨hrow, hsource⟩ := List.mem_filter.mp (Table.mem_of_first h)
  have hof : row.chatId = some chatId ∧ row.sourceMessageRef.tgMessageId =
    Memory.evidenceId task := of_decide_eq_true hsource
  exact ⟨hrow, hof⟩

/-- The columns of a row that is there. -/
theorem selectSides_of_mem {db : Db} (hids : (db.task.map (·.id)).Nodup) (hrow : row ∈ db.task) :
    selectSides db row.id = some (row.ownerPersonId, row.counterpartPersonId) := by
  unfold selectSides
  rw [Table.find?_of_mem hids hrow]
  rfl

variable (now chatId command ownerPersonId firstCounterpart task) in
/-- **What a write does**: it updates the row that it finds, with these columns, or inserts
one. -/
theorem syncTask_sides (hids : Drawn (t.db.task.map (·.id)) t.drawn) :
    (∃ row, foundRow chatId t.db.task task = some row ∧
      sidesFound t.db chatId task = (row.ownerPersonId, row.counterpartPersonId) ∧
      (t.syncTask now chatId command ownerPersonId firstCounterpart task).2.db.task =
        Table.update (fun other => other.id = row.id)
          ((Memory.taskColumns ownerPersonId firstCounterpart task).apply now) t.db.task) ∨
    foundRow chatId t.db.task task = none ∧ sidesFound t.db chatId task = (none, none) ∧
      (t.syncTask now chatId command ownerPersonId firstCounterpart task).2.db.task =
        t.db.task ++ [(Memory.taskColumns ownerPersonId firstCounterpart task).fresh now t.drawn
          chatId ⟨command.tgChatId, Memory.evidenceId task, command.sourceWindowId⟩] := by
  have hfind : t.db.findTask chatId (Memory.evidenceId task) =
      (foundRow chatId t.db.task task).map (·.id) := rfl
  simp only [Draft.syncTask, sidesFound, hfind]
  cases hfound : foundRow chatId t.db.task task with
  | none => exact .inr ⟨rfl, rfl, rfl⟩
  | some row =>
    refine .inl ⟨row, rfl, ?_, rfl⟩
    rw [Option.map_some, Option.bind_some, selectSides_of_mem hids.nodup (mem_of_foundRow hfound).1]
    rfl

/-! ## The rows of the loop and the rows before it -/

/-- A row of the loop is a row of the table before it, as far as searches and the two columns
go; the counterpart counts if the window has none. -/
structure Traced (firstCounterpart : Option Ident) (row row' : Task) : Prop where
  id : row'.id = row.id
  chatId : row'.chatId = row.chatId
  source : row'.sourceMessageRef = row.sourceMessageRef
  owner : row'.ownerPersonId = row.ownerPersonId
  counterpart :
    firstCounterpart.or row'.counterpartPersonId = firstCounterpart.or row.counterpartPersonId
  createdAt : row'.createdAt = row.createdAt
  updatedAt : row'.updatedAt = row.updatedAt

/-- A row that the loop inserted has the two sides of the window, and is of a message that no
row before was of. -/
structure Inserted (chatId : Ident) (ownerPersonId firstCounterpart : Option Ident)
    (rows : List Task) (row : Task) : Prop where
  owner : row.ownerPersonId = ownerPersonId
  counterpart : row.counterpartPersonId = firstCounterpart
  alone : ∀ other ∈ rows, ¬ other.OfSource chatId row.sourceMessageRef.tgMessageId

/-- The rows of the loop are those before it, and new ones. -/
structure Traces (chatId : Ident) (ownerPersonId firstCounterpart : Option Ident)
    (rows : List Task) (t : Draft) : Prop where
  ids : Drawn (t.db.task.map (·.id)) t.drawn
  rows : ∃ old new, t.db.task = old ++ new ∧ List.Forall₂ (Traced firstCounterpart) rows old ∧
    ∀ row ∈ new, Inserted chatId ownerPersonId firstCounterpart rows row

namespace Traced

theorem refl (firstCounterpart : Option Ident) (row : Task) : Traced firstCounterpart row row :=
  ⟨rfl, rfl, rfl, rfl, rfl, rfl, rfl⟩

/-- A search orders them alike, -/
theorem taskBefore {other other' : Task} (h : Traced firstCounterpart row row')
    (ho : Traced firstCounterpart other other') :
    Memory.Db.taskBefore row other = Memory.Db.taskBefore row' other' := by
  unfold Memory.Db.taskBefore Memory.later
  rw [h.owner, ho.owner, h.updatedAt, ho.updatedAt, h.createdAt, ho.createdAt]

/-- a write is good for both or for none, -/
theorem writesApart_iff (h : Traced firstCounterpart row row') :
    WritesApart ownerPersonId firstCounterpart (row'.ownerPersonId, row'.counterpartPersonId) ↔
      WritesApart ownerPersonId firstCounterpart (row.ownerPersonId, row.counterpartPersonId) := by
  unfold WritesApart
  rw [h.owner, h.counterpart]

/-- and a write leaves what it was. -/
theorem apply (h : Traced firstCounterpart row row') : Traced firstCounterpart
    (markFound now ownerPersonId row)
    ((Memory.taskColumns ownerPersonId firstCounterpart task).apply now row') where
  id := h.id
  chatId := h.chatId
  source := h.source
  owner := congrArg ownerPersonId.or h.owner
  counterpart := by
    have hcolumn : ((Memory.taskColumns ownerPersonId firstCounterpart task).apply now
        row').counterpartPersonId = firstCounterpart.or row'.counterpartPersonId := rfl
    rw [hcolumn, ← Option.or_assoc, Option.or_self]
    exact h.counterpart
  createdAt := h.createdAt
  updatedAt := rfl

end Traced

/-- Of a message no row of which was there. -/
theorem Inserted.markFound (h : Inserted chatId ownerPersonId firstCounterpart rows row)
    (id : Ident) : Inserted chatId ownerPersonId firstCounterpart
      (Table.update (fun other => other.id = id) (Tasks.markFound now ownerPersonId) rows) row :=
  ⟨h.owner, h.counterpart, Table.forall_update h.alone fun _ _ _ hother => hother⟩

/-- A write leaves an inserted row its sides. -/
theorem Inserted.apply (h : Inserted chatId ownerPersonId firstCounterpart rows row) :
    Inserted chatId ownerPersonId firstCounterpart rows
      ((Memory.taskColumns ownerPersonId firstCounterpart task).apply now row) where
  owner := (congrArg ownerPersonId.or h.owner).trans Option.or_self
  counterpart := (congrArg firstCounterpart.or h.counterpart).trans Option.or_self
  alone := h.alone

/-- A task finds no row, so no row is of its message. -/
theorem not_ofSource_of_foundRow (h : foundRow chatId rows task = none) :
    ∀ other ∈ rows, ¬ other.OfSource chatId (Memory.evidenceId task) := by
  intro other hother hof
  have hsource : other.chatId = some chatId ∧
    other.sourceMessageRef.tgMessageId = Memory.evidenceId task := hof
  exact List.filter_eq_nil_iff.mp (Table.first_eq_none_iff.mp h) other hother
    (decide_eq_true hsource)

/-- What is found before the loop and in it: the same row, or nothing and at most a row that
the loop inserted. -/
theorem foundRow_append_cases {old new : List Task}
    (hold : List.Forall₂ (Traced firstCounterpart) rows old)
    (hnew : ∀ row ∈ new, Inserted chatId ownerPersonId firstCounterpart rows row) :
    (∃ row row', foundRow chatId rows task = some row ∧
      foundRow chatId (old ++ new) task = some row' ∧ Traced firstCounterpart row row') ∨
    foundRow chatId rows task = none ∧ ∀ row', foundRow chatId (old ++ new) task = some row' →
      row' ∈ new := by
  let ofTask (row : Task) : Bool :=
    row.chatId = some chatId ∧ row.sourceMessageRef.tgMessageId = Memory.evidenceId task
  have hfilter : List.Forall₂ (Traced firstCounterpart) (rows.filter ofTask) (old.filter ofTask) :=
    List.rel_filter (fun row row' hrow => by simp only [ofTask, hrow.chatId, hrow.source]) hold
  cases hrows : foundRow chatId rows task with
  | some row =>
    obtain ⟨hrow, hsource⟩ := mem_of_foundRow hrows
    have hnone : new.filter ofTask = [] := by
      refine List.filter_eq_nil_iff.mpr fun other hother hof => ?_
      have hsame : other.sourceMessageRef.tgMessageId = Memory.evidenceId task :=
        (of_decide_eq_true hof).2
      exact (hnew other hother).alone row hrow (hsame.symm ▸ hsource)
    have hfound : foundRow chatId (old ++ new) task =
        Table.first Memory.Db.taskBefore (old.filter ofTask) := by
      unfold foundRow
      rw [List.filter_append]
      exact congrArg _ ((congrArg _ hnone).trans (List.append_nil _))
    have hrel : Option.Rel (Traced firstCounterpart) (foundRow chatId rows task)
        (Table.first Memory.Db.taskBefore (old.filter ofTask)) :=
      Table.first_rel (fun hrow hother => hrow.taskBefore hother) hfilter
    rw [hrows, ← hfound] at hrel
    generalize foundRow chatId (old ++ new) task = found at hrel
    cases hrel with
    | some hrow => exact .inl ⟨_, _, rfl, rfl, hrow⟩
  | none =>
    refine .inr ⟨rfl, fun row' hrow' => ?_⟩
    have hempty : rows.filter ofTask = [] := Table.first_eq_none_iff.mp hrows
    rw [hempty, List.forall₂_nil_left_iff] at hfilter
    obtain ⟨hmem, hsource⟩ := mem_of_foundRow hrow'
    rcases List.mem_append.mp hmem with hmem | hmem
    · have hof : row' ∈ old.filter ofTask := List.mem_filter.mpr ⟨hmem, decide_eq_true hsource⟩
      rw [hfilter] at hof
      cases hof
    · exact hmem

variable (now chatId command ownerPersonId firstCounterpart task) in
/-- **One task of the loop**, beside the row of the table before the loop that it finds. -/
theorem Traces.syncTask (h : Traces chatId ownerPersonId firstCounterpart rows t) :
    (∃ row, foundRow chatId rows task = some row ∧
      (WritesApart ownerPersonId firstCounterpart (sidesFound t.db chatId task) ↔
        WritesApart ownerPersonId firstCounterpart (row.ownerPersonId, row.counterpartPersonId)) ∧
      Traces chatId ownerPersonId firstCounterpart
        (Table.update (fun other => other.id = row.id) (markFound now ownerPersonId) rows)
        (t.syncTask now chatId command ownerPersonId firstCounterpart task).2) ∨
    foundRow chatId rows task = none ∧
      (WritesApart ownerPersonId firstCounterpart (sidesFound t.db chatId task) ↔
        WritesApart ownerPersonId firstCounterpart (none, none)) ∧
      Traces chatId ownerPersonId firstCounterpart rows
        (t.syncTask now chatId command ownerPersonId firstCounterpart task).2 := by
  have hids := @Draft.drawn_syncTask t now chatId command ownerPersonId firstCounterpart task h.ids
  obtain ⟨old, new, htask, hold, hnew⟩ := h.rows
  have hcases := @foundRow_append_cases chatId _ _ task rows old new hold hnew
  rw [← htask] at hcases
  rcases hcases with ⟨row, row', hrow, hrow', htraced⟩ | ⟨hnone, hinserted⟩
  · rcases syncTask_sides now chatId command ownerPersonId firstCounterpart task h.ids with
      ⟨found, hfound, hsides, hstep⟩ | ⟨hfound, -, -⟩
    · obtain rfl := Option.some.inj (hrow'.symm.trans hfound)
      refine .inl ⟨row, hrow, ?_, hids, ?_⟩
      · rw [hsides]
        exact htraced.writesApart_iff
      · rw [htask, htraced.id, Table.update, List.map_append] at hstep
        refine ⟨_, _, hstep, Table.update_rel (fun hx => ?_) (fun hx => hx.apply) hold, ?_⟩
        · rw [hx.id]
        · exact Table.forall_update (fun other hother => (hnew other hother).markFound row.id)
            fun other _ _ hother => hother.apply
    · rw [hrow'] at hfound
      cases hfound
  · refine .inr ⟨hnone, ?_⟩
    rcases syncTask_sides now chatId command ownerPersonId firstCounterpart task h.ids with
      ⟨found, hfound, hsides, hstep⟩ | ⟨-, hsides, hstep⟩
    · have hfoundNew := hinserted found hfound
      have hsame := hnew found hfoundNew
      refine ⟨?_, hids, ?_⟩
      · rw [hsides, hsame.owner, hsame.counterpart, WritesApart, WritesApart, Option.or_self,
          Option.or_self, Option.or_none, Option.or_none]
      · have hother : ∀ other ∈ old, other.id ≠ found.id := by
          intro other hother hid
          have hnodup := h.ids.nodup
          rw [htask, List.map_append] at hnodup
          exact List.disjoint_of_nodup_append hnodup (List.mem_map_of_mem hother)
            (hid ▸ List.mem_map_of_mem hfoundNew)
        rw [htask, Table.update, List.map_append, ← Table.update,
          Table.update_eq_self fun other hmem => decide_eq_false (hother other hmem)] at hstep
        refine ⟨old, _, hstep, hold, ?_⟩
        exact Table.forall_update hnew fun other _ _ hother => hother.apply
    · rw [htask, List.append_assoc] at hstep
      refine ⟨by rw [hsides], hids, old, _, hstep, hold, fun row hrow => ?_⟩
      rcases List.mem_append.mp hrow with hrow | hrow
      · exact hnew row hrow
      · rw [List.mem_singleton.mp hrow]
        exact ⟨rfl, rfl, not_ofSource_of_foundRow hnone⟩

variable (now chatId command ownerPersonId firstCounterpart) in
/-- **The loop writes good sides** exactly if it does so to the rows that its tasks find, as
they are before it. -/
theorem Traces.loopWritesApart_iff (h : Traces chatId ownerPersonId firstCounterpart rows t)
    (hfresh : WritesApart ownerPersonId firstCounterpart (none, none))
    (tasks : List StructuredTask) :
    LoopWritesApart now chatId command ownerPersonId firstCounterpart t tasks ↔
      ∀ row ∈ foundRows now chatId ownerPersonId rows tasks,
        WritesApart ownerPersonId firstCounterpart (row.ownerPersonId, row.counterpartPersonId) := by
  induction tasks generalizing rows t with
  | nil => exact iff_of_true trivial fun _ hrow => (by cases hrow)
  | cons task rest ih =>
    have hmeets : LoopWritesApart now chatId command ownerPersonId firstCounterpart t (task :: rest) ↔
        WritesApart ownerPersonId firstCounterpart (sidesFound t.db chatId task) ∧
          LoopWritesApart now chatId command ownerPersonId firstCounterpart
            (t.syncTask now chatId command ownerPersonId firstCounterpart task).2 rest := Iff.rfl
    rw [hmeets, foundRows]
    rcases h.syncTask now chatId command ownerPersonId firstCounterpart task with
      ⟨row, hrow, hwrite, hnext⟩ | ⟨hnone, hwrite, hnext⟩
    · rw [hrow, hwrite, ih hnext, List.forall_mem_cons]
    · rw [hnone, hwrite, and_iff_right hfresh]
      exact ih hnext

/-- Before its first task. -/
theorem Traces.refl (h : Drawn (t.db.task.map (·.id)) t.drawn) :
    Traces chatId ownerPersonId firstCounterpart t.db.task t :=
  ⟨h, t.db.task, [], (List.append_nil _).symm, List.forall₂_same.mpr fun _ _ => .refl _ _,
    fun _ hrow => (by cases hrow)⟩

/-- The rows that are found are rows of the table, with their two sides, if there is no
owner. -/
theorem foundRows_sides {P : Option Ident × Option Ident → Prop}
    (h : ∀ row ∈ rows, P (row.ownerPersonId, row.counterpartPersonId)) (tasks : List StructuredTask) :
    ∀ row ∈ foundRows now chatId none rows tasks, P (row.ownerPersonId, row.counterpartPersonId) := by
  induction tasks generalizing rows with
  | nil => exact fun _ hrow => (by cases hrow)
  | cons task rest ih =>
    rw [foundRows]
    cases hfound : foundRow chatId rows task with
    | none => exact ih h
    | some row =>
      have hrest : ∀ other ∈ Table.update (fun other => other.id = row.id) (markFound now none) rows,
          P (other.ownerPersonId, other.counterpartPersonId) :=
        Table.forall_update h fun _ _ _ hother => hother
      exact List.forall_mem_cons.mpr ⟨h row (mem_of_foundRow hfound).1, ih hrest⟩

/-- With a first speaker and no owner, a write keeps the owner of the row. -/
theorem writesApart_speaker_iff {p : Ident} {found : Option Ident × Option Ident} :
    WritesApart none (some p) found ↔ found.1 ≠ some p where
  mp h hfound := h p hfound rfl
  mpr h _ hq hp := h (hq.trans hp.symm)

/-- One person on both sides spoils every write. -/
theorem loopWritesApart_self {p : Ident} {tasks : List StructuredTask} :
    LoopWritesApart now chatId command (some p) (some p) t tasks ↔ tasks = [] := by
  cases tasks with
  | nil => exact iff_of_true trivial rfl
  | cons task rest => exact iff_of_false (fun h => h.1 p rfl rfl) (by simp)

/-- Two persons spoil none. -/
theorem loopWritesApart_of_ne {o p : Ident} (hne : o ≠ p) (tasks : List StructuredTask) :
    LoopWritesApart now chatId command (some o) (some p) t tasks := by
  induction tasks generalizing t with
  | nil => exact trivial
  | cons task rest ih =>
    refine ⟨fun q hq hp => hne ?_, ih⟩
    exact (Option.some.inj hq).trans (Option.some.inj hp).symm

end Loop

/-! ## The sides of a projection -/

/-- The two sides of the tasks of a window differ.  The condition is on the command, the
settings and the tables before the projection. -/
structure SidesDiffer [CharData] (settings : Memory.Settings) (now : Timestamp)
    (command : ProjectionCommand) (db : Db) (drawn : Ident) : Prop where
  /-- If the owner of the account speaks first, there is no task. -/
  speaker : ∀ u ∈ firstSender command,
    ownerFound settings now command db.person = some (some u) → command.result.tasks = []
  /-- If there is no owner, the first speaker owns none of the tasks that are found. -/
  unowned : ∀ u ∈ firstSender command, ownerFound settings now command db.person = none →
    ∀ row ∈ foundRows now (db.chatId command.tgChatId drawn) none db.task command.result.tasks,
      row.ownerPersonId ≠ some (db.personId u (drawn + 1))
  /-- If nobody speaks, the owner is the counterpart of none of them. -/
  silent : firstSender command = none → ∀ owner ∈ db.selectOwner,
    ∀ row ∈ foundRows now (db.chatId command.tgChatId drawn) (some owner) db.task
      command.result.tasks, row.counterpartPersonId ≠ some owner

instance [CharData] (settings : Memory.Settings) (now : Timestamp) (command : ProjectionCommand)
    (db : Db) (drawn : Ident) : Decidable (SidesDiffer settings now command db drawn) :=
  decidable_of_iff
    ((∀ u ∈ firstSender command,
      ownerFound settings now command db.person = some (some u) → command.result.tasks = []) ∧
    (∀ u ∈ firstSender command, ownerFound settings now command db.person = none →
      ∀ row ∈ foundRows now (db.chatId command.tgChatId drawn) none db.task command.result.tasks,
        row.ownerPersonId ≠ some (db.personId u (drawn + 1))) ∧
    (firstSender command = none → ∀ owner ∈ db.selectOwner,
      ∀ row ∈ foundRows now (db.chatId command.tgChatId drawn) (some owner) db.task
        command.result.tasks, row.counterpartPersonId ≠ some owner))
    ⟨fun h => ⟨h.1, h.2.1, h.2.2⟩, fun h => ⟨h.speaker, h.unowned, h.silent⟩⟩

section Sides

variable [CharData] {settings : Memory.Settings} {now : Timestamp} {command : ProjectionCommand}
  {t : Draft}

/-- A window in which nobody speaks leaves the owner. -/
theorem selectOwner_of_silent (h : firstSender command = none) :
    (t.analysed settings now command).selectOwner = t.db.selectOwner := by
  have hnone : Memory.participants settings command = [] := by
    unfold firstSender at h
    rw [← head_enrolments settings (command.result.topics.take 8), Option.map_eq_none_iff] at h
    exact List.head?_eq_none_iff.mp h
  have hperson : (t.analysed settings now command).person = t.db.person := by
    rw [analysed_person, Draft.enrolled, hnone]
    rfl
  unfold Db.selectOwner
  rw [hperson]

/-- What is asked if nobody speaks, -/
theorem sidesDiffer_iff_of_silent {db : Db} {drawn : Ident} (h : firstSender command = none) :
    SidesDiffer settings now command db drawn ↔ ∀ owner ∈ db.selectOwner,
      ∀ row ∈ foundRows now (db.chatId command.tgChatId drawn) (some owner) db.task
        command.result.tasks, row.counterpartPersonId ≠ some owner where
  mp hdiffer := hdiffer.silent h
  mpr hall := ⟨by simp [h], by simp [h], fun _ => hall⟩

/-- and if somebody does. -/
theorem sidesDiffer_iff_of_speaker {db : Db} {drawn : Ident} {u : ℤ}
    (h : firstSender command = some u) : SidesDiffer settings now command db drawn ↔
      (ownerFound settings now command db.person = some (some u) → command.result.tasks = []) ∧
        (ownerFound settings now command db.person = none →
          ∀ row ∈ foundRows now (db.chatId command.tgChatId drawn) none db.task
            command.result.tasks, row.ownerPersonId ≠ some (db.personId u (drawn + 1))) where
  mp hdiffer := ⟨hdiffer.speaker u h, hdiffer.unowned u h⟩
  mpr hall := by
    refine ⟨fun v hv => ?_, fun v hv => ?_, fun hnone => ?_⟩
    · obtain rfl := Option.some.inj (h.symm.trans hv)
      exact hall.1
    · obtain rfl := Option.some.inj (h.symm.trans hv)
      exact hall.2
    · rw [h] at hnone
      cases hnone

/-- The loop begins with the rows of the tables before the projection. -/
theorem traces_analysed (hids : Drawn (t.db.task.map (·.id)) t.drawn) (chatId : Ident)
    (owner first : Option Ident) : Traces chatId owner first t.db.task
      ⟨t.analysed settings now command, (t.enrolled settings now command).drawn⟩ := by
  have htask := t.analysed_task settings now command
  have hmore := hids.mono (t.le_drawn_enrolled settings now command)
  rw [← htask] at hmore ⊢
  exact Traces.refl
    (t := ⟨t.analysed settings now command, (t.enrolled settings now command).drawn⟩) hmore

/-- **The loop of a projection writes good sides** exactly if the two sides differ. -/
theorem loopWritesApart_iff_sidesDiffer (hpersons : t.db.PersonsSound t.drawn)
    (hids : Drawn (t.db.task.map (·.id)) t.drawn) (hapart : ∀ row ∈ t.db.task, Apart row) :
    LoopWritesApart now (t.db.chatId command.tgChatId t.drawn) command
      (t.analysed settings now command).selectOwner
      ((t.participantsOf settings now command).head?.map (·.2))
      ⟨t.analysed settings now command, (t.enrolled settings now command).drawn⟩
      command.result.tasks ↔ SidesDiffer settings now command t.db t.drawn := by
  have htraces := @traces_analysed _ settings now command t hids
    (t.db.chatId command.tgChatId t.drawn)
  rw [head_participantsOf, Option.map_map]
  cases hspeaker : firstSender command with
  | none =>
    rw [Option.map_none, selectOwner_of_silent hspeaker, sidesDiffer_iff_of_silent hspeaker,
      (htraces t.db.selectOwner none).loopWritesApart_iff now _ command _ _ (by simp [WritesApart])]
    cases howner : t.db.selectOwner with
    | none =>
      -- nothing is written to either column
      refine iff_of_true (foundRows_sides (P := WritesApart none none) (fun row hrow => ?_) _) ?_
      · simpa [WritesApart, Apart] using hapart row hrow
      · simp
    | some owner => simp [WritesApart]
  | some u =>
    rw [Option.map_some, Function.comp_apply, sidesDiffer_iff_of_speaker hspeaker]
    by_cases haccount : ownerFound settings now command t.db.person = some (some u)
    · rw [(selectOwner_eq_speaker_iff hpersons hspeaker).mpr haccount, loopWritesApart_self]
      simp [haccount]
    · have hdiffer := mt (selectOwner_eq_speaker_iff hpersons hspeaker).mp haccount
      rcases selectOwner_analysed settings now command t with
        ⟨row, -, howner, hfound⟩ | ⟨howner, hfound⟩
      · -- two persons are written
        rw [howner] at hdiffer ⊢
        refine iff_of_true (loopWritesApart_of_ne (fun hid => hdiffer (congrArg some hid)) _) ?_
        exact ⟨fun hsome => absurd hsome haccount, by simp [hfound]⟩
      · -- the counterpart is written, and the owner of the row stays
        rw [howner, (htraces none (some _)).loopWritesApart_iff now _ command _ _
          (by simp [WritesApart])]
        simp [writesApart_speaker_iff, hfound]

end Sides

end Tasks
end PersonalIntelligence
