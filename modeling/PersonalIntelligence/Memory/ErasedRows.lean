import PersonalIntelligence.Memory.Acknowledge
import PersonalIntelligence.Memory.EraseRuns
import PersonalIntelligence.Memory.Soundness

/-!
# What an erase leaves in Postgres

An erase finds its rows by four different keys: windows by the Telegram id among their
participants, interactions by the person among theirs, tasks by owner and counterpart,
and the rest by foreign keys.  For the windows this is enough, because every projection
writes the senders of a window to its participants (`Db.Sound.windows`).  For the tasks it
is not: a task belongs to the owner and to whoever wrote first in its window, and not to
the sender of its evidence.  The erase is complete exactly if the two agree
(`erasedCompletely_iff`).
-/

namespace PersonalIntelligence
namespace Memory

open PyText Resumption

/-! ## The erase -/

/-- The user has sent the message, by what the commands say. -/
def SentBy (commands : List ProjectionCommand) (ref : SourceMessageRef) (u : ℤ) : Prop :=
  ∃ command ∈ commands, command.tgChatId = ref.tgChatId ∧
    ∃ m ∈ command.messages, m.tgMessageId = ref.tgMessageId ∧ m.tgSenderId = some u

/-- Nothing in the tables `after` comes from a message that `u` sent.  The windows of facts
and signals are those `before`. -/
structure ErasedCompletely (commands : List ProjectionCommand) (personId : Ident) (u : ℤ)
    (before after : Db) : Prop where
  windows : ∀ w ∈ after.analysisWindow, u ∉ senders w.messages
  facts : ∀ fact ∈ after.extractedFact, ∀ w ∈ before.analysisWindow, w.id = fact.windowId →
    u ∉ senders w.messages
  signals : ∀ signal ∈ after.analyticsSignal, ∀ w ∈ before.analysisWindow,
    w.id = signal.windowId → u ∉ senders w.messages
  interactions : ∀ i ∈ after.interaction, personId ∉ i.participants
  memberships : ∀ m ∈ after.chatMembership, m.personId ≠ personId
  mentions : ∀ m ∈ after.mention, m.speakerPersonId ≠ personId ∧ m.mentionedPersonId ≠ personId
  annotations : ∀ a ∈ after.relationshipAnnotation, a.personId ≠ some personId
  tasks : ∀ task ∈ after.task, ¬ SentBy commands task.sourceMessageRef u

/-- Every task whose evidence `u` has sent is a task of the person. -/
def TasksFound (commands : List ProjectionCommand) (personId : Ident) (u : ℤ) (db : Db) : Prop :=
  ∀ task ∈ db.task, SentBy commands task.sourceMessageRef u →
    task.ownerPersonId = some personId ∨ task.counterpartPersonId = some personId

section Erased

variable {db : Db} {drawn : Ident} {personId : Ident} {u : ℤ} {commands : List ProjectionCommand}

/-- A window of the sender is among the deleted. -/
theorem Db.Sound.mem_windowsOf (h : db.Sound drawn) {w : AnalysisWindow}
    (hw : w ∈ db.analysisWindow) (hu : u ∈ senders w.messages) : w.id ∈ db.windowsOf u :=
  List.mem_map.mpr ⟨w, List.mem_filter.mpr ⟨hw, by simpa using h.windows w hw u hu⟩, rfl⟩

/-- A task is found by owner and counterpart.  Its identifier is its own, so it is not
found through another task. -/
theorem Db.Sound.mem_tasksOf (h : db.Sound drawn) {task : Task} (htask : task ∈ db.task) :
    task.id ∈ db.tasksOf personId ↔
      task.ownerPersonId = some personId ∨ task.counterpartPersonId = some personId := by
  unfold Db.tasksOf
  rw [List.mem_map]
  constructor
  · rintro ⟨other, hother, hid⟩
    obtain ⟨hmem, hfound⟩ := List.mem_filter.mp hother
    obtain rfl := List.inj_on_of_nodup_map h.taskIds.nodup hmem htask hid
    exact of_decide_eq_true hfound
  · intro hfound
    exact ⟨task, List.mem_filter.mpr ⟨htask, decide_eq_true hfound⟩, rfl⟩

/-- The tasks an erase leaves, up to their references to the person. -/
theorem mem_erased_task {tgUserId : Option ℤ} {task : Task} :
    task ∈ (db.erased personId tgUserId).task ↔ ∃ old ∈ db.task, old.id ∉ db.tasksOf personId ∧
      { old with
        ownerPersonId := Db.clearReference personId old.ownerPersonId
        counterpartPersonId := Db.clearReference personId old.counterpartPersonId } = task := by
  have htask : (db.erased personId tgUserId).task =
      (db.task.filter fun row => row.id ∉ db.tasksOf personId).map fun old =>
        { old with
          ownerPersonId := Db.clearReference personId old.ownerPersonId
          counterpartPersonId := Db.clearReference personId old.counterpartPersonId } := rfl
  rw [htask, List.mem_map]
  simp only [List.mem_filter, decide_eq_true_eq, and_assoc]

/-- The tasks come out right exactly if they are found. -/
theorem Db.Sound.tasks_iff (h : db.Sound drawn) {tgUserId : Option ℤ} :
    (∀ task ∈ (db.erased personId tgUserId).task, ¬ SentBy commands task.sourceMessageRef u) ↔
      TasksFound commands personId u db := by
  constructor
  · intro hall task htask hsent
    by_contra hmissed
    refine hall _ (mem_erased_task.mpr ⟨task, htask, ?_, rfl⟩) hsent
    rw [h.mem_tasksOf htask]
    exact hmissed
  · intro hfound task htask hsent
    obtain ⟨old, hold, hleft, rfl⟩ := mem_erased_task.mp htask
    rw [h.mem_tasksOf hold] at hleft
    exact hleft (hfound old hold hsent)

/-- **An erase is complete** exactly if it finds the tasks. -/
theorem Db.Sound.erasedCompletely_iff (h : db.Sound drawn) :
    ErasedCompletely commands personId u db (db.erased personId (some u)) ↔
      TasksFound commands personId u db := by
  refine ⟨fun hall => h.tasks_iff.mp hall.tasks, fun hfound => ?_⟩
  have hrow : ∀ {ρ : Type} {rows : List ρ} (key : ρ → Ident) {row : ρ},
      row ∈ rows.filter (fun row => key row ∉ db.windowsOf u) → ∀ w ∈ db.analysisWindow,
        w.id = key row → u ∉ senders w.messages := by
    intro ρ rows key row hmem w hw hid hu
    have hleft := of_decide_eq_true (List.mem_filter.mp hmem).2
    exact hleft (hid ▸ h.mem_windowsOf hw hu)
  constructor
  · intro w hw
    exact hrow AnalysisWindow.id hw w (List.mem_filter.mp hw).1 rfl
  · exact fun fact hfact => hrow ExtractedFact.windowId hfact
  · exact fun signal hsignal => hrow AnalyticsSignalRow.windowId hsignal
  · intro i hi hlisted
    obtain ⟨hmem, hleft⟩ := List.mem_filter.mp hi
    refine of_decide_eq_true hleft (List.mem_map.mpr ⟨(i.id, i.sourceObjectRef), ?_, rfl⟩)
    exact List.mem_map.mpr ⟨i, List.mem_filter.mpr ⟨hmem, decide_eq_true hlisted⟩, rfl⟩
  · exact fun m hm => of_decide_eq_true (List.mem_filter.mp hm).2
  · exact fun m hm => of_decide_eq_true (List.mem_filter.mp hm).2
  · exact fun a ha => of_decide_eq_true (List.mem_filter.mp ha).2
  · exact h.tasks_iff.mpr hfound

end Erased

section Runs

variable [CharData] (env : Env) (settings : Settings) (mentions : List Mention)
  (annotations : List RelationshipAnnotation) (owners : List OwnerProfile)
  (deliveries : List (StreamEntry × Timestamp)) (eraseEnv : EraseEnv)
  (hashIdentifier : Ident → ℕ) (restSettings : RestSettings) (actor : String)

/-- **Erasing after any run.**  The projections are those of any deliveries under any
failures, and so is the erase, as long as it commits: that is, the person is gone. -/
theorem erase_completely_iff {s s' : World} {person : Person} {u : ℤ}
    (hs : env.deliverAll settings (World.start mentions annotations owners) deliveries = s)
    (hs' : (exec eraseEnv.run
      (erasePersonCascade hashIdentifier restSettings actor person.id) s).2 = s')
    (hperson : person ∈ s.db.person) (hu : person.tgUserId = some u)
    (hgone : ∀ row ∈ s'.db.person, row.id ≠ person.id) :
    ErasedCompletely (deliveries.map (·.1.command)) person.id u s.db s'.db ↔
      TasksFound (deliveries.map (·.1.command)) person.id u s.db := by
  subst hs
  have hsound := (World.sound_start mentions annotations owners).deliverAll env settings deliveries
  have hclosed := env.deliverAll_closed settings
    (s := World.start mentions annotations owners) rfl deliveries
  rcases exec_erasePersonCascade_cases eraseEnv hashIdentifier restSettings actor person.id
    hclosed with ⟨row, warnings, r, s₁, hexec, hrow, -, herased, -⟩ | ⟨e, n, hexec⟩
  · rw [hexec] at hs'
    obtain rfl := hs'
    obtain rfl : row = person := List.inj_on_of_nodup_map hsound.db.personIds.nodup
      (List.mem_of_find?_eq_some hrow) hperson (id_of_selectPerson person.id hrow)
    rw [← hsound.db.erasedCompletely_iff, herased.rows, hu]
    exact ⟨fun h => ⟨h.1, h.2, h.3, h.4, h.5, h.6, h.7, h.8⟩,
      fun h => ⟨h.1, h.2, h.3, h.4, h.5, h.6, h.7, h.8⟩⟩
  · rw [hexec] at hs'
    obtain rfl := hs'
    exact absurd rfl (hgone person hperson)

end Runs

/-- User 11 writes first, and user 12 asks for something. -/
def request : StreamEntry where
  id := 1
  command :=
    { commandId := 101
      sourceWindowId := 201
      sourceEventId := 301
      tgChatId := 7
      messages :=
        [{ tgMessageId := 1, tgSenderId := some 11, text := "привет", occurredAt := 60 },
          { tgMessageId := 2, tgSenderId := some 12, text := "пришли отчёт", occurredAt := 61 }]
      features := {}
      result :=
        { sourceWindowId := 201
          summary := "просьба"
          tasks := [{ title := "отчёт", evidenceMessageIds := [2] }] } }

/-- The stores after the request has been projected. -/
def requested : World :=
  @Env.deliverAll {} basicCharData {} (World.start [] [] []) [(request, 62)]

/-- The stores after a person has been erased. -/
def requestErased (personId : Ident) : World :=
  (exec (EraseEnv.run {}) (erasePersonCascade id {} "admin" personId) requested).2

/-- The row of user 11. -/
def greeter : Person where
  id := 1
  tgUserId := some 11
  username := none
  displayName := "tg:11"
  topics := []
  lastInteractionAt := some 60
  isOwner := false
  updatedAt := 62

theorem erase_completely_iff_request :
    ErasedCompletely [request.command] 1 11 requested.db (requestErased 1).db ↔
      TasksFound [request.command] 1 11 requested.db :=
  @erase_completely_iff basicCharData {} {} [] [] [] [(request, 62)] {} id {} "admin" requested
    (requestErased 1) greeter 11 rfl rfl (by decide) rfl (by decide)

/-- User 12 is erased, and the task from the message of user 12 stays. -/
theorem not_erasedCompletely_request :
    (∀ row ∈ (requestErased 2).db.person, row.tgUserId ≠ some 12) ∧
      ¬ ErasedCompletely [request.command] 2 12 requested.db (requestErased 2).db := by
  refine ⟨by decide, fun h => ?_⟩
  obtain ⟨task, htask, href⟩ : ∃ task ∈ (requestErased 2).db.task,
      task.sourceMessageRef = ⟨7, 2, some 201⟩ := by decide
  refine h.tasks task htask ⟨request.command, List.mem_singleton_self _, ?_⟩
  rw [href]
  exact ⟨rfl, request.command.messages[1], List.getElem_mem _, rfl, rfl⟩

end Memory
end PersonalIntelligence
