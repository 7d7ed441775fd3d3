import PersonalIntelligence.Memory.ProjectorRuns

/-!
# What projections keep of the tables

Whatever fails, a run of the projector keeps the keys of its tables and lists the senders
of a window among its participants.  A person, once there, keeps its identifier and its
Telegram account.
-/

namespace PersonalIntelligence
namespace Memory

open PyText Resumption

/-- Identifiers without repetitions that were drawn before `drawn`. -/
structure Drawn (ids : List Ident) (drawn : Ident) : Prop where
  nodup : ids.Nodup
  lt : ∀ id ∈ ids, id < drawn

namespace Drawn

variable {ids : List Ident} {drawn : Ident}

theorem empty : Drawn [] drawn := ⟨List.nodup_nil, fun _ h => by cases h⟩

theorem mono {drawn' : Ident} (h : Drawn ids drawn) (hle : drawn ≤ drawn') : Drawn ids drawn' :=
  ⟨h.nodup, fun id hid => (h.lt id hid).trans_le hle⟩

theorem more (h : Drawn ids drawn) : Drawn ids (drawn + 1) := h.mono (Nat.le_succ _)

/-- The identifier to be drawn next is not in use. -/
theorem not_mem (h : Drawn ids drawn) : drawn ∉ ids := fun hmem => lt_irrefl _ (h.lt _ hmem)

/-- It may be used. -/
theorem append (h : Drawn ids drawn) : Drawn (ids ++ [drawn]) (drawn + 1) where
  nodup := List.nodup_append.mpr ⟨h.nodup, List.nodup_singleton _, fun a ha b hb hab =>
    h.not_mem (List.mem_singleton.mp hb ▸ hab ▸ ha)⟩
  lt id hid := by
    rcases List.mem_append.mp hid with hold | hnew
    · exact h.more.lt id hold
    · rw [List.mem_singleton.mp hnew]
      exact Nat.lt_succ_self drawn

/-- So an upsert may insert a row with it. -/
theorem upsert {ρ κ : Type} [DecidableEq κ] {key : ρ → κ} {f : ρ → ρ} {fresh : ρ} {rows : List ρ}
    {id : ρ → Ident} (h : Drawn (rows.map id) drawn) (hf : ∀ r, id (f r) = id r)
    (hfresh : id fresh = drawn) : Drawn ((Table.upsert key f fresh rows).map id) (drawn + 1) := by
  rw [Table.map_upsert hf]
  split_ifs
  · exact h.more
  · rw [hfresh]
    exact h.append

end Drawn

/-- Persons, tasks and interactions have identifiers of their own, persons have accounts
of their own, and a window lists its senders. -/
structure Db.Sound (db : Db) (drawn : Ident) : Prop where
  personIds : Drawn (db.person.map Person.id) drawn
  accounts : (db.person.map Person.tgUserId).Nodup
  taskIds : Drawn (db.task.map Task.id) drawn
  interactionIds : Drawn (db.interaction.map Interaction.id) drawn
  windows : ∀ w ∈ db.analysisWindow, ∀ u ∈ senders w.messages, u ∈ w.participantTgIds

namespace Db.Sound

variable {db db' : Db} {drawn : Ident}

theorem congr (h : db.Sound drawn) (hperson : db'.person = db.person) (htask : db'.task = db.task)
    (hinteraction : db'.interaction = db.interaction)
    (hwindow : db'.analysisWindow = db.analysisWindow) : db'.Sound drawn := by
  constructor
  · rw [hperson]
    exact h.personIds
  · rw [hperson]
    exact h.accounts
  · rw [htask]
    exact h.taskIds
  · rw [hinteraction]
    exact h.interactionIds
  · rw [hwindow]
    exact h.windows

theorem drawMore (h : db.Sound drawn) : db.Sound (drawn + 1) :=
  ⟨h.personIds.more, h.accounts, h.taskIds.more, h.interactionIds.more, h.windows⟩

theorem upsertPerson (h : db.Sound drawn) (now : Timestamp) (person : PersonUpsert) :
    (db.upsertPerson now drawn person).Sound (drawn + 1) where
  personIds := h.personIds.upsert (fun _ => rfl) rfl
  accounts := Table.nodup_keys_upsert (fun _ h => h) h.accounts
  taskIds := h.taskIds.more
  interactionIds := h.interactionIds.more
  windows := h.windows

theorem upsertWindow (h : db.Sound drawn) {command : ProjectionCommand} {window : AnalysisWindow}
    (hwindow : WindowOf command window) : (db.upsertWindow window).Sound drawn where
  personIds := h.personIds
  accounts := h.accounts
  taskIds := h.taskIds
  interactionIds := h.interactionIds
  windows := by
    have hlisted : ∀ u ∈ senders window.messages, u ∈ window.participantTgIds := fun u hu =>
      (hwindow.participants u).mpr (hwindow.messages ▸ hu)
    exact Table.forall_upsert h.windows (fun _ _ _ _ => hlisted) hlisted

theorem updateTask (h : db.Sound drawn) (now : Timestamp) (id : Ident) (columns : TaskUpdate) :
    (db.updateTask now id columns).Sound drawn where
  personIds := h.personIds
  accounts := h.accounts
  taskIds := by
    have hids : (db.updateTask now id columns).task.map Task.id = db.task.map Task.id :=
      Table.map_update fun _ => rfl
    rw [hids]
    exact h.taskIds
  interactionIds := h.interactionIds
  windows := h.windows

theorem insertTask (h : db.Sound drawn) {row : Task} (hid : row.id = drawn) :
    (db.insertTask row).Sound (drawn + 1) where
  personIds := h.personIds.more
  accounts := h.accounts
  taskIds := by
    rw [Db.insertTask, List.map_append, List.map_singleton, hid]
    exact h.taskIds.append
  interactionIds := h.interactionIds.more
  windows := h.windows

theorem updateInteraction (h : db.Sound drawn) (id : Ident) (createdAt : Timestamp)
    (columns : InteractionUpdate) : (db.updateInteraction id createdAt columns).Sound drawn where
  personIds := h.personIds
  accounts := h.accounts
  taskIds := h.taskIds
  interactionIds := by
    have hids : (db.updateInteraction id createdAt columns).interaction.map Interaction.id =
        db.interaction.map Interaction.id := Table.map_update fun _ => rfl
    rw [hids]
    exact h.interactionIds
  windows := h.windows

theorem insertInteraction (h : db.Sound drawn) {row : Interaction} (hid : row.id = drawn) :
    (db.insertInteraction row).Sound (drawn + 1) where
  personIds := h.personIds.more
  accounts := h.accounts
  taskIds := h.taskIds.more
  interactionIds := by
    rw [Db.insertInteraction, List.map_append, List.map_singleton, hid]
    exact h.interactionIds.append
  windows := h.windows

end Db.Sound

/-- The committed tables and those of an open transaction. -/
structure World.Sound (s : World) : Prop where
  db : s.db.Sound s.drawn
  tx : ∀ t ∈ s.tx, t.Sound s.drawn

namespace World.Sound

variable {s : World}

theorem tables (h : s.Sound) : s.tables.Sound s.drawn := by
  cases htx : s.tx with
  | none => exact (World.tables_of_closed htx).symm ▸ h.db
  | some t => exact (World.tables_of_open htx).symm ▸ h.tx t htx

theorem setTables (h : s.Sound) {db : Db} (hdb : db.Sound s.drawn) : (s.setTables db).Sound := by
  cases htx : s.tx with
  | none =>
    rw [World.setTables_of_closed htx]
    exact ⟨hdb, fun t ht => h.tx t ht⟩
  | some t =>
    rw [World.setTables_of_open htx]
    exact ⟨h.db, fun t ht => Option.some.inj ht ▸ hdb⟩

theorem insert (h : s.Sound) {db : Db} (hdb : db.Sound (s.drawn + 1)) : (s.insert db).Sound := by
  unfold World.insert
  cases htx : s.tx with
  | none =>
    rw [World.setTables_of_closed htx]
    exact ⟨hdb, fun t ht => (h.tx t ht).drawMore⟩
  | some t =>
    rw [World.setTables_of_open htx]
    exact ⟨h.db.drawMore, fun t ht => Option.some.inj ht ▸ hdb⟩

/-- What each command of a projection keeps. -/
theorem effect (h : s.Sound) {command : ProjectionCommand} {c : Cmd}
    (hc : (entryOf command).allowed c) : (s.effect c).2.Sound := by
  cases c with
  | selectProcessed | selectOwner | findTask | selectInteraction => exact h
  | begin => exact ⟨h.db, fun t ht => Option.some.inj ht ▸ h.db⟩
  | commit => exact ⟨h.tables, fun t ht => by cases ht⟩
  | rollback => exact ⟨h.db, fun t ht => by cases ht⟩
  | upsertChat => exact h.insert (h.tables.drawMore.congr rfl rfl rfl rfl)
  | upsertPerson person => exact h.insert (h.tables.upsertPerson s.now person)
  | insertMembership row =>
    refine h.setTables (h.tables.congr ?_ ?_ ?_ ?_) <;>
    · unfold Db.insertMembership
      split_ifs <;> rfl
  | upsertWindow window =>
    rcases hc with hwindow | hstage | hstage
    · exact h.setTables (h.tables.upsertWindow hwindow)
    · cases hstage
    · cases hstage
  | updateTask id columns => exact h.setTables (h.tables.updateTask s.now id columns)
  | insertTask => exact h.insert (h.tables.insertTask rfl)
  | updateInteraction => exact h.setTables (h.tables.updateInteraction _ _ _)
  | insertInteraction => exact h.insert (h.tables.insertInteraction rfl)
  | insertProcessed eventId =>
    refine h.setTables (h.tables.congr ?_ ?_ ?_ ?_) <;>
    · unfold Db.insertProcessed
      dsimp only
      split_ifs <;> rfl
  | putRaw | executeWrite | xaddEmbedding | xaddInteraction | xack => exact ⟨h.db, h.tx⟩
  | _ => exact h.setTables (h.tables.congr rfl rfl rfl rfl)

theorem run (h : s.Sound) (env : Env) {command : ProjectionCommand} {c : Cmd}
    (hc : (entryOf command).allowed c) : (env.run c s).2.Sound :=
  env.run_invariant (fun _ h => ⟨h.db, h.tx⟩) (fun h => h.effect hc) h

end World.Sound

/-! ## Persons -/

/-- The person of a Telegram account. -/
def Db.HasPerson (db : Db) (tgUserId : ℤ) (personId : Ident) : Prop :=
  ∃ row ∈ db.person, row.tgUserId = some tgUserId ∧ row.id = personId

section Persons

variable {db : Db} {tgUserId : ℤ} {personId : Ident} {now : Timestamp} {drawn : Ident}
  {person : PersonUpsert}

theorem Db.HasPerson.upsertPerson (h : db.HasPerson tgUserId personId) :
    (db.upsertPerson now drawn person).HasPerson tgUserId personId := by
  obtain ⟨row, hrow, hu, hid⟩ := h
  by_cases hkey : row.tgUserId = (person.fresh now drawn).tgUserId
  · exact ⟨person.merge now row, Table.mem_upsert_of_eq hrow hkey, hu, hid⟩
  · exact ⟨row, Table.mem_upsert_of_ne hrow hkey, hu, hid⟩

/-- The identifier that an upsert of a person answers. -/
theorem Db.hasPerson_upsertPerson (db : Db) (now : Timestamp) (drawn : Ident)
    (person : PersonUpsert) : (db.upsertPerson now drawn person).HasPerson person.tgUserId
      (db.personId person.tgUserId drawn) := by
  unfold Db.personId
  cases hfind : db.person.find? fun row => row.tgUserId = some person.tgUserId with
  | some row =>
    have hkey : row.tgUserId = some person.tgUserId := by simpa using List.find?_some hfind
    exact ⟨person.merge now row, Table.mem_upsert_of_eq (List.mem_of_find?_eq_some hfind) hkey,
      hkey, rfl⟩
  | none =>
    refine ⟨person.fresh now drawn, Table.fresh_mem_upsert fun hmem => ?_, rfl, rfl⟩
    obtain ⟨row, hrow, hkey⟩ := List.mem_map.mp hmem
    exact List.find?_eq_none.mp hfind row hrow (decide_eq_true hkey)

/-- An account has one person. -/
theorem Db.Sound.eq_of_hasPerson (h : db.Sound drawn) {row : Person} (hrow : row ∈ db.person)
    (hu : row.tgUserId = some tgUserId) (hperson : db.HasPerson tgUserId personId) :
    personId = row.id := by
  obtain ⟨other, hother, hotherU, rfl⟩ := hperson
  rw [List.inj_on_of_nodup_map h.accounts hother hrow (hotherU.trans hu.symm)]

end Persons

/-- The stores before the first projection.  Mentions, annotations and owner profiles are
not the projector's. -/
def World.start (mentions : List Mention) (annotations : List RelationshipAnnotation)
    (owners : List OwnerProfile) : World where
  db := { mention := mentions, relationshipAnnotation := annotations, ownerProfile := owners }

theorem World.sound_start (mentions : List Mention) (annotations : List RelationshipAnnotation)
    (owners : List OwnerProfile) : (World.start mentions annotations owners).Sound where
  db := ⟨Drawn.empty, List.nodup_nil, Drawn.empty, Drawn.empty, fun _ h => (by cases h)⟩
  tx _ h := by cases h

/-- **Every state that projections reach** is sound. -/
theorem World.Sound.deliverAll [CharData] (env : Env) (settings : Settings) {s : World}
    (h : s.Sound) (deliveries : List (StreamEntry × Timestamp)) :
    (env.deliverAll settings s deliveries).Sound :=
  env.deliverAll_invariant settings (fun _ _ h => ⟨h.db, h.tx⟩) (fun _ h => ⟨h.db, h.tx⟩)
    (fun _ _ _ _ hc h => h.effect hc) h

end Memory
end PersonalIntelligence
