import PersonalIntelligence.Library.Contract
import PersonalIntelligence.Library.Runs
import PersonalIntelligence.Memory.ProjectedTables
import PersonalIntelligence.Tasks.Lifecycle

/-!
# Whether the events of the extractor match the table

The extractor changes a row, publishes an event and marks the message, in three steps.  If
it fails between the first and the second, the event it was handling comes back from the
dead letters, and then it finds the task created or closed already and takes another branch:
what has not been published never will be.

Every event that is handled is a full step of the life of the tasks, or a cut one, and it is
cut exactly if a call between the row and its event raises (`settles_processStream`).  So the
events match the table after a run, whatever is replayed in it, exactly if no such call
raised in the run (`lifecycle_iff`).
-/

namespace PersonalIntelligence
namespace Tasks

open PyText Resumption
open Memory (Db Task TaskStatus Drawn)

/-- The calls between the change of a row and its event, this one included. -/
def Cmd.publishing : Cmd → Prop
  | .selectSides _ | .xaddCreated _ | .xaddResolved _ => True
  | _ => False

instance : DecidablePred Cmd.publishing := fun c => by
  cases c <;> unfold Cmd.publishing <;> infer_instance

/-! ## What a call does to the life of the tasks -/

/-- Nothing has happened but that identifiers were drawn. -/
def Life.Idle (l l' : Life) : Prop := l.drawn ≤ l'.drawn ∧ l' = { l with drawn := l'.drawn }

theorem Life.Idle.refl (l : Life) : l.Idle l := ⟨le_rfl, rfl⟩

theorem Life.Idle.full {l l' : Life} (h : l.Idle l') : l.Full l' := by
  rw [h.2]
  exact .idle _ h.1

theorem Life.Idle.openOf {l l' : Life} (h : l.Idle l') (q : ℤ × ℤ → Bool) :
    l'.openOf q = l.openOf q := by
  rw [h.2]
  rfl

theorem Life.Idle.close {l l' : Life} (h : l.Idle l') (q : ℤ × ℤ → Bool) (resolution : Resolution)
    (sent : List (Ident × Resolution)) (drawn : Ident) :
    l'.close q resolution sent drawn = l.close q resolution sent drawn := by
  rw [h.2]
  rfl

/-- The calls that leave the life of the tasks alone. -/
def Cmd.idle : Cmd → Prop
  | .resolveTask _ _ _ | .insertTask _ | .dropTasks _ _ | .xaddCreated _ | .xaddResolved _ => False
  | _ => True

section Calls

variable {l : Life} {s : World}

theorem Life.Idle.effect (h : l.Idle s.life) {c : Cmd} (hc : c.idle) :
    l.Idle (s.effect c).2.tick.life := by
  cases c with
  | resolveTask resolvedAt tgChatId tgMessageId => cases hc
  | insertTask new => cases hc
  | dropTasks tgChatId tgMessageIds => cases hc
  | xaddCreated event => cases hc
  | xaddResolved event => cases hc
  | editTask taskId candidate =>
    have hrows : (editTask s.db s.store.now taskId candidate).task.map lifeRow =
        s.db.task.map lifeRow := Table.map_update fun _ => rfl
    refine ⟨h.1, Eq.trans ?_ h.2⟩
    simp only [World.life, World.effect, World.setDb, World.tick, Memory.World.tick, World.db, hrows]
  | insertProcessed eventId =>
    refine ⟨h.1, Eq.trans ?_ h.2⟩
    simp only [World.life, World.effect, World.setDb, World.tick, Memory.World.tick, World.db]
    rw [Db.insertProcessed_frame]
  | upsertChat tgChatId kind title =>
    exact ⟨h.1.trans (Nat.le_succ _), congrArg (fun l' : Life =>
      ({ l' with drawn := s.store.drawn + 1 } : Life)) h.2⟩
  | upsertPerson person =>
    exact ⟨h.1.trans (Nat.le_succ _), congrArg (fun l' : Life =>
      ({ l' with drawn := s.store.drawn + 1 } : Life)) h.2⟩
  | _ => exact h

/-- The open rows of some messages, and what the extractor sees of them. -/
theorem life_openRows {p : Task → Bool} {q : ℤ × ℤ → Bool}
    (hp : ∀ row, p row = q (lifeRow row).source) :
    (openRows p s.db.task).map lifeRow = s.life.openOf q := by
  simp only [openRows, Life.openOf, World.life, List.filter_map]
  congr 1
  exact List.filter_congr fun row _ => congrArg _ (hp row)

/-- A statement that closes tasks. -/
theorem life_close {resolution : Resolution} {p : Task → Bool} {q : ℤ × ℤ → Bool}
    {change : Task → Task} (hp : ∀ row, p row = q (lifeRow row).source)
    (hchange : ∀ row, lifeRow (change row) = { lifeRow row with status := statusOf resolution }) :
    (s.close resolution p change).tick.life = s.life.close q resolution [] s.store.drawn := by
  have hrows : (Table.update (fun row => row.status = .open && p row) change s.db.task).map lifeRow =
      Table.update (fun row => row.status = .open && q row.source)
        (fun row => { row with status := statusOf resolution }) (s.db.task.map lifeRow) := by
    simp only [Table.update, List.map_map]
    refine List.map_congr_left fun row _ => ?_
    simp only [Function.comp_apply, hp row, apply_ite lifeRow, hchange]
    rfl
  have hclosing : (openRows p s.db.task).map (fun row => (row.id, resolution)) =
      s.life.closing q resolution := by
    rw [Life.closing, ← life_openRows hp, List.map_map]
    rfl
  simp only [World.close, World.tick, Memory.World.tick, World.life, closeTasks, Life.close, hrows,
    hclosing, List.append_nil]

theorem life_xaddCreated (event : TaskCreatedEvent) :
    (s.effect (.xaddCreated event)).2.tick.life =
      { s.life with created := s.life.created ++ [event.taskId] } := by
  simp [World.life, World.effect, World.tick, Memory.World.tick]

theorem life_xaddResolved (event : TaskResolvedEvent) :
    (s.effect (.xaddResolved event)).2.tick.life =
      { s.life with resolved := s.life.resolved ++ [(event.taskId, event.resolution)] } := by
  simp [World.life, World.effect, World.tick, Memory.World.tick]

/-- The row of a new task. -/
theorem life_insertTask (new : NewTask) :
    (s.effect (.insertTask new)).2.tick.life =
      s.life.create ⟨s.store.drawn, (new.tgChatId, new.tgMessageId), .open⟩ []
        (s.store.drawn + 1) := by
  simp [World.life, World.effect, World.insert, World.tick, Memory.World.tick, Db.insertTask,
    Life.create, lifeRow, NewTask.fresh]

/-- A message without a task. -/
theorem source_not_mem {tgChatId tgMessageId : ℤ}
    (h : findTaskBySource s.db tgChatId tgMessageId = none) :
    (tgChatId, tgMessageId) ∉ s.life.rows.map (·.source) := by
  have hnone := Table.first_eq_none_iff.mp (Option.map_eq_none_iff.mp h)
  intro hmem
  obtain ⟨life, hlife, hsource⟩ := List.mem_map.mp hmem
  obtain ⟨row, hrow, rfl⟩ := List.mem_map.mp hlife
  refine List.filter_eq_nil_iff.mp hnone row hrow (decide_eq_true ?_)
  exact Prod.mk.inj hsource

theorem decide_ofMessage (tgChatId tgMessageId : ℤ) (row : Task) :
    decide (OfMessage tgChatId tgMessageId row) =
      decide ((lifeRow row).source = (tgChatId, tgMessageId)) :=
  decide_eq_decide.mpr (by simp [OfMessage, lifeRow])

/-- Resolving the task of a message closes it, -/
theorem life_resolveTask (occurredAt : Timestamp) (tgChatId tgMessageId : ℤ) :
    (s.effect (.resolveTask occurredAt tgChatId tgMessageId)).2.tick.life =
      s.life.close (· = (tgChatId, tgMessageId)) .done [] s.store.drawn :=
  life_close (q := (· = (tgChatId, tgMessageId))) (decide_ofMessage tgChatId tgMessageId)
    fun _ => rfl

/-- and answers with its id. -/
theorem answer_resolveTask (occurredAt : Timestamp) (tgChatId tgMessageId : ℤ) :
    (s.effect (.resolveTask occurredAt tgChatId tgMessageId)).1 =
      (s.life.openOf (· = (tgChatId, tgMessageId))).head?.map (·.id) := by
  rw [← life_openRows (decide_ofMessage tgChatId tgMessageId), List.head?_map, Option.map_map]
  rfl

/-- Closing nothing. -/
theorem Life.close_of_openOf_nil {q : ℤ × ℤ → Bool} {resolution : Resolution} {drawn : Ident}
    (h : l.openOf q = []) : l.close q resolution [] drawn = { l with drawn } := by
  have hrows : Table.update (fun row => row.status = .open && q row.source)
      (fun row => { row with status := statusOf resolution }) l.rows = l.rows :=
    Table.update_eq_self fun row hrow =>
      Bool.eq_false_iff.mpr (List.filter_eq_nil_iff.mp h row hrow)
  simp [Life.close, Life.closing, h, hrows]

/-- The open rows of one message are one at most. -/
theorem Life.Recorded.openOf_singleton (h : l.Recorded) {source : ℤ × ℤ} {row : LifeRow}
    {rest : List LifeRow} (hopen : l.openOf (· = source) = row :: rest) : rest = [] := by
  cases rest with
  | nil => rfl
  | cons other rest =>
    have hsources : ((l.openOf (· = source)).map (·.source)).Nodup :=
      h.sources.sublist (List.filter_sublist.map _)
    have hsource : ∀ r ∈ l.openOf (· = source), r.source = source := by
      intro r hr
      simpa using (Bool.and_eq_true_iff.mp (List.mem_filter.mp hr).2).2
    rw [hopen] at hsources hsource
    rw [List.map_cons, List.map_cons, hsource row (by simp), hsource other (by simp)] at hsources
    simp at hsources

end Calls

/-! ## What a handler does -/

section Settles

variable {env : Env} {l : Life} {s : World} {α β : Type}

/-- The run of the program from `s` makes a step of `l`: a full one, or a cut one if a call
before an event raises. -/
def Settles (env : Env) (l : Life) (p : Extracting α) (s : World) : Prop :=
  (¬ p.Raised env.run Cmd.publishing s ∧ l.Full (exec env.run p s).2.life) ∨
    (p.Raised env.run Cmd.publishing s ∧ l.Cut (exec env.run p s).2.life)

theorem Env.run_cases (env : Env) (c : Cmd) (s : World) :
    env.run c s = (.ok (s.effect c).1, (s.effect c).2.tick) ∨
      env.run c s = (.error .callFailed, s.tick) := by
  unfold Env.run
  split_ifs
  · exact .inr rfl
  · exact .inl rfl

theorem settles_ret (a : α) (h : l.Full s.life) : Settles env l (pure a) s := .inl ⟨id, h⟩

theorem settles_raise (e : Exc) (h : l.Full s.life) :
    Settles env l (throw e : Extracting α) s := .inl ⟨id, h⟩

/-- **The rule of a call.**  If it raises, what has happened so far is the step. -/
theorem settles_bind (c : Cmd) {f : Ans c → Extracting β}
    (hok : Settles env l (f (s.effect c).1) (s.effect c).2.tick)
    (hfull : ¬ c.publishing → l.Full s.life) (hcut : c.publishing → l.Cut s.life) :
    Settles env l (await c >>= f) s := by
  unfold Settles
  rcases env.run_cases c s with hrun | hrun
  · rw [await, raised_perform_bind_of_ok hrun, exec_perform_bind, hrun, andThen_ok]
    exact hok
  · rw [await, exec_perform_bind, hrun, andThen_error]
    by_cases hc : c.publishing
    · exact .inr ⟨raised_perform_bind_of_error hc hrun, hcut hc⟩
    · refine .inl ⟨?_, hfull hc⟩
      rw [raised_bind_of_error ((exec_perform env.run c s).trans hrun), raised_perform]
      exact fun h => hc h.1

/-- A call that is none of those before an event. -/
theorem settles_idle (c : Cmd) {f : Ans c → Extracting β} (hc : c.idle) (hpub : ¬ c.publishing)
    (h : l.Idle s.life)
    (hok : l.Idle (s.effect c).2.tick.life →
      Settles env l (f (s.effect c).1) (s.effect c).2.tick) :
    Settles env l (await c >>= f) s :=
  settles_bind c (hok (h.effect hc)) (fun _ => h.full) fun hp => absurd hp hpub

/-- The mark comes last. -/
theorem settles_mark (eventId : Ident) (h : l.Full s.life) :
    Settles env l (await (.insertProcessed eventId)) s := by
  have hidle := (Life.Idle.refl s.life).effect (c := .insertProcessed eventId) trivial
  have hmarked : l.Full (s.effect (.insertProcessed eventId)).2.tick.life := by
    rw [hidle.2]
    exact h.later hidle.1
  rw [← bind_pure (await (.insertProcessed eventId))]
  exact settles_bind (.insertProcessed eventId) (settles_ret _ hmarked) (fun _ => h) fun hp => hp.elim

theorem settles_unlessProcessed {eventId : Ident} {body : Extracting Unit}
    (h : ∀ s', s'.life = s.life → Settles env s.life body s') :
    Settles env s.life (unlessProcessed eventId body) s := by
  refine settles_idle (.selectProcessed eventId) trivial id (Life.Idle.refl _) fun hidle => ?_
  cases (s.effect (.selectProcessed eventId)).1 with
  | true => exact settles_ret () hidle.full
  | false => exact h _ rfl

/-! ### Creating a task -/

theorem settles_ensurePerson {event : TelegramMessageEvent} {f : Option Ident → Extracting β}
    (h : l.Idle s.life) (hf : ∀ sender s', l.Idle s'.life → Settles env l (f sender) s') :
    Settles env l (ensurePerson event >>= f) s := by
  unfold ensurePerson
  cases event.tgSenderId with
  | none =>
    rw [pure_bind]
    exact hf none s h
  | some tgUserId =>
    rw [bind_assoc]
    refine settles_idle (.upsertPerson _) trivial id h fun hidle => ?_
    rw [pure_bind]
    exact hf _ _ hidle

/-- The event of a task that has been inserted. -/
theorem settles_announce {row : LifeRow} {drawn : Ident} (hnew : l.New row drawn)
    (hlife : s.life = l.create row [] drawn) (event : TelegramMessageEvent)
    (candidate : TaskCandidate) :
    Settles env l (do
      let createdEvent ← buildTaskCreatedEvent row.id event candidate
      await (.xaddCreated createdEvent)
      await (.insertProcessed event.eventId)) s := by
  have hcut : l.Cut s.life := hlife ▸ .create row drawn hnew
  unfold buildTaskCreatedEvent
  rw [bind_assoc]
  refine settles_bind (.selectSides row.id) ?_ (fun h => absurd trivial h) fun _ => hcut
  rw [pure_bind]
  refine settles_bind (.xaddCreated _) ?_ (fun h => absurd trivial h) fun _ => hcut
  refine settles_mark event.eventId ?_
  have hselected : (s.effect (.selectSides row.id)).2.tick.life = l.create row [] drawn := hlife
  rw [life_xaddCreated, hselected]
  simp only [Life.create, List.append_nil]
  exact .create row drawn hnew

/-- **Creating a task** of a message that has none. -/
theorem settles_publishTask (h : l.Idle s.life) {event : TelegramMessageEvent}
    (hsource : (event.tgChatId, event.tgMessageId) ∉ l.rows.map (·.source))
    (candidate : TaskCandidate) : Settles env l (publishTask event candidate) s := by
  unfold publishTask createTask
  simp only [bind_assoc]
  refine settles_idle (.upsertChat _ _ _) trivial id h fun hchat => ?_
  refine settles_ensurePerson hchat fun sender s₁ hsender => ?_
  refine settles_idle .selectOwner trivial id hsender fun howner => ?_
  refine settles_bind (.insertTask _) ?_ (fun _ => howner.full) fun hp => hp.elim
  have hrow : l.New ⟨s₁.store.drawn, (event.tgChatId, event.tgMessageId), .open⟩
      (s₁.store.drawn + 1) := ⟨rfl, howner.1, Nat.lt_succ_self _, hsource⟩
  refine settles_announce hrow ?_ event candidate
  rw [life_insertTask, howner.2]
  rfl

/-! ### Closing tasks -/

/-- **Resolving the task of a message** is a step, and if nothing was resolved, the handler
goes on. -/
theorem settles_resolveTask (hl : l.Recorded) (h : l.Idle s.life) [CharData]
    {event : TelegramMessageEvent} {text : String} {f : Option Ident → Extracting β}
    (hnone : ∀ s', l.Idle s'.life → Settles env l (f none) s')
    (hsome : ∀ taskId s', l.Full s'.life → Settles env l (f (some taskId)) s') :
    Settles env l (resolveTask event text >>= f) s := by
  unfold resolveTask resolveRepliedTask
  split_ifs with hdetect
  · cases event.replyToMessageId.filter (· ≠ 0) with
    | none =>
      dsimp only
      rw [pure_bind]
      exact hnone s h
    | some reply =>
      dsimp only
      rw [bind_assoc]
      refine settles_bind (.resolveTask event.occurredAt event.tgChatId reply) ?_
        (fun _ => h.full) fun hp => hp.elim
      have hclosed := life_resolveTask (s := s) event.occurredAt event.tgChatId reply
      have hanswer := answer_resolveTask (s := s) event.occurredAt event.tgChatId reply
      rw [h.close] at hclosed
      rw [h.openOf] at hanswer
      rw [hanswer]
      cases hopen : l.openOf (· = (event.tgChatId, reply)) with
      | nil =>
        refine hnone _ ?_
        rw [hclosed, Life.close_of_openOf_nil hopen]
        exact ⟨h.1, rfl⟩
      | cons row rest =>
        have hclosing : l.closing (· = (event.tgChatId, reply)) .done = [(row.id, .done)] := by
          rw [Life.closing, hopen, hl.openOf_singleton hopen]
          rfl
        dsimp only [List.head?_cons, Option.map_some]
        rw [bind_assoc]
        refine settles_bind (.xaddResolved _) ?_ (fun hp => absurd trivial hp) fun _ => ?_
        · rw [pure_bind]
          refine hsome _ _ ?_
          rw [life_xaddResolved, hclosed]
          have hfull := Life.Full.close (l := l) (· = (event.tgChatId, reply)) .done s.store.drawn h.1
          rw [hclosing] at hfull
          simpa [Life.close] using hfull
        · rw [hclosed]
          exact .close _ _ [] _ h.1 (List.nil_subset _) (row.id, .done)
            (hclosing ▸ List.mem_singleton_self _) List.not_mem_nil
  · rw [pure_bind]
    exact hnone s h

/-- The loop over the tasks that were dropped. -/
theorem settles_dropped (hl : l.Recorded) {q : ℤ × ℤ → Bool} {drawn : Ident}
    (hdrawn : l.drawn ≤ drawn) (event : TelegramMessageDeletedEvent) (rest : List Ident)
    {sent : List (Ident × Resolution)} (hlife : s.life = l.close q .dropped sent drawn)
    (hall : sent ++ rest.map (·, .dropped) = l.closing q .dropped) :
    Settles env l (do
      forM rest fun taskId => await (.xaddResolved (droppedEvent event taskId))
      await (.insertProcessed event.eventId)) s := by
  induction rest generalizing s sent with
  | nil =>
    rw [List.forM_nil, pure_bind]
    refine settles_mark event.eventId ?_
    rw [List.map_nil, List.append_nil] at hall
    rw [hlife, hall]
    exact .close q .dropped drawn hdrawn
  | cons taskId rest ih =>
    rw [List.forM_cons, bind_assoc]
    have hmem : (taskId, .dropped) ∈ l.closing q .dropped := by
      rw [← hall]
      simp
    have hnot : (taskId, Resolution.dropped) ∉ sent := by
      have hnodup : (l.closing q .dropped).Nodup := hl.nodup_closing
      rw [← hall] at hnodup
      exact fun hsent => (List.nodup_append'.mp hnodup).2.2 hsent (by simp)
    refine settles_bind (.xaddResolved _) ?_ (fun hp => absurd trivial hp) fun _ => ?_
    · have hafter : (s.effect (.xaddResolved (droppedEvent event taskId))).2.tick.life =
          l.close q .dropped (sent ++ [(taskId, .dropped)]) drawn := by
        rw [life_xaddResolved, hlife]
        simp [Life.close, droppedEvent]
      exact ih hafter (by simpa using hall)
    · rw [hlife]
      refine .close q .dropped sent drawn hdrawn (fun t ht => ?_) _ hmem hnot
      rw [← hall]
      exact List.mem_append_left _ ht

/-- **Dropping the tasks of deleted messages.** -/
theorem settles_processDeletion (hs : s.life.Recorded) (event : TelegramMessageDeletedEvent)
    {s' : World} (hlife : s'.life = s.life) :
    Settles env s.life (processDeletion event) s' := by
  unfold processDeletion
  let q : ℤ × ℤ → Bool := fun source => decide (source.1 = event.tgChatId) &&
    event.tgMessageIds.contains source.2
  have hsource : ∀ row : Task, ofMessages event.tgChatId event.tgMessageIds row =
      q (lifeRow row).source := fun row => rfl
  refine settles_bind (.dropTasks event.tgChatId event.tgMessageIds) ?_
    (fun _ => hlife ▸ (Life.Idle.refl s.life).full) fun hp => hp.elim
  have hclosed : (s'.close .dropped (ofMessages event.tgChatId event.tgMessageIds)
      (dropped s'.store.now)).tick.life = s'.life.close q .dropped [] s'.store.drawn :=
    life_close hsource fun row => rfl
  rw [hlife] at hclosed
  have hdrawn : s.life.drawn ≤ s'.store.drawn := by
    rw [← hlife]
    exact le_rfl
  refine settles_dropped hs hdrawn event _ hclosed ?_
  rw [List.nil_append, Life.closing, ← hlife, ← life_openRows hsource, List.map_map]
  simp [World.effect, lifeRow, Function.comp_def]

/-! ### The handlers -/

variable [CharData] (settings : Settings) (searchDates : SearchDates)

theorem settles_extractTask (h : l.Idle s.life) (event : TelegramMessageEvent) (text : String) :
    Settles env l (extractTask settings searchDates event text) s := by
  unfold extractTask
  cases extractTaskCandidate searchDates event.occurredAt text
      (some ⟨event.occurredAt, some 0⟩) with
  | none => exact settles_mark event.eventId h.full
  | some candidate =>
    dsimp only
    split_ifs with hsure
    · exact settles_mark event.eventId h.full
    · refine settles_idle (.findTask event.tgChatId event.tgMessageId) trivial id h fun hidle => ?_
      cases hfind : (s.effect (.findTask event.tgChatId event.tgMessageId)).1 with
      | some taskId => exact settles_mark event.eventId hidle.full
      | none =>
        have hsource := source_not_mem hfind
        rw [h.2] at hsource
        exact settles_publishTask hidle hsource candidate

theorem settles_processMessage (hl : l.Recorded) (h : l.Idle s.life) (event : TelegramMessageEvent)
    (text : String) : Settles env l (processMessage settings searchDates event text) s :=
  settles_resolveTask hl h
    (fun _ hidle => settles_extractTask settings searchDates hidle event text)
    fun _ _ hfull => settles_mark event.eventId hfull

theorem settles_processEdit (h : l.Idle s.life) (event : TelegramMessageEditedEvent)
    (text : String) : Settles env l (processEdit searchDates event text) s := by
  unfold processEdit
  refine settles_idle (.findTask event.tgChatId event.tgMessageId) trivial id h fun hidle => ?_
  cases (s.effect (.findTask event.tgChatId event.tgMessageId)).1 with
  | none => exact settles_mark event.eventId hidle.full
  | some existingId =>
    dsimp only
    cases extractTaskCandidate searchDates event.occurredAt text
        (some ⟨event.occurredAt, some 0⟩) with
    | none => exact settles_mark event.eventId hidle.full
    | some candidate =>
      refine settles_idle (.editTask existingId candidate) trivial id hidle fun hedited => ?_
      exact settles_mark event.eventId hedited.full

/-- **Every event that is handled** is a step of the life of the tasks. -/
theorem settles_processStream (hs : s.life.Recorded) (payload : Payload) :
    Settles env s.life (processStream settings searchDates payload) s := by
  have hdone := (Life.Idle.refl s.life).full
  have hidle (s' : World) (hlife : s'.life = s.life) : s.life.Idle s'.life :=
    hlife ▸ Life.Idle.refl s.life
  cases payload with
  | message event =>
    simp only [processStream, handleMessage]
    split_ifs
    · exact settles_ret () hdone
    · exact settles_unlessProcessed fun s' hlife =>
        settles_processMessage settings searchDates hs (hidle s' hlife) event _
  | messageEdited event =>
    simp only [processStream, handleMessageEdited]
    split_ifs
    · exact settles_ret () hdone
    · exact settles_unlessProcessed fun s' hlife =>
        settles_processEdit searchDates (hidle s' hlife) event _
  | messageDeleted event =>
    simp only [processStream, handleMessageDeleted]
    split_ifs
    · exact settles_ret () hdone
    · exact settles_unlessProcessed fun s' hlife => settles_processDeletion hs event hlife
  | malformed => exact settles_raise .validation hdone
  | unknownStream => exact settles_ret () hdone

end Settles

/-! ## Runs -/

section Runs

variable [CharData] (env : Env) (settings : Settings) (searchDates : SearchDates)

/-- Every task has exactly one `TaskCreatedEvent`, and every closing of a task exactly one
`TaskResolvedEvent` that names the task and the resolution. -/
structure LifecycleMatches (s : World) : Prop where
  created : ∀ row ∈ s.db.task, s.taskCreated.countP (fun event => event.taskId = row.id) = 1
  resolved : ∀ t ∈ s.closed,
    s.taskResolved.countP (fun event => (event.taskId, event.resolution) = t) = 1

/-- Handling the entry, a call between the change of a row and its event raises. -/
def Env.LosesEvent (s : World) (delivery : StreamEntry × Timestamp) : Prop :=
  (processStream settings searchDates delivery.1.payload).Raised env.run Cmd.publishing
    (s.at delivery.2)

omit [CharData] in
theorem lifecycleMatches_iff (s : World) : LifecycleMatches s ↔ s.life.Matches := by
  have hcreated : Outbox.Exact s.life.ids s.life.created ↔ ∀ row ∈ s.db.task,
      s.taskCreated.countP (fun event => event.taskId = row.id) = 1 := by
    simp [Outbox.exact_map_iff, World.life, Life.ids, lifeRow]
  exact ⟨fun h => ⟨hcreated.mpr h.created, Outbox.exact_map_iff.mpr h.resolved⟩,
    fun h => ⟨hcreated.mp h.created, Outbox.exact_map_iff.mp h.resolved⟩⟩

/-- The dead letters and the acknowledgement are not about tasks. -/
theorem life_deliver (s : World) (delivery : StreamEntry × Timestamp) :
    (env.deliver settings searchDates s delivery).life =
      (exec env.run (processStream settings searchDates delivery.1.payload)
        (s.at delivery.2)).2.life := by
  have hack (s' : World) : (exec env.run (await (.xack delivery.1)) s').2.life = s'.life := by
    rw [exec_perform]
    rcases env.run_cases (.xack delivery.1) s' with hrun | hrun
    · rw [hrun]
      rfl
    · rw [hrun]
      rfl
  unfold Env.deliver handleEntry
  rw [exec_bind, exec_tryCatch]
  rcases exec env.run (processStream settings searchDates delivery.1.payload) (s.at delivery.2) with
    ⟨error | _, s'⟩
  · dsimp only
    rw [exec_tryCatch, await, exec_perform]
    rcases env.run_cases (.xaddDeadLetter ⟨delivery.1, error⟩) s' with hrun | hrun
    · rw [hrun]
      exact hack _
    · rw [hrun]
      exact hack _
  · exact hack s'

variable {settings searchDates} in
/-- **One delivery** is a full step, or a cut one if it loses an event. -/
theorem deliver_life_cases {s : World} (h : s.life.Recorded) (delivery : StreamEntry × Timestamp) :
    (¬ env.LosesEvent settings searchDates s delivery ∧
        s.life.Full (env.deliver settings searchDates s delivery).life) ∨
      (env.LosesEvent settings searchDates s delivery ∧
        s.life.Cut (env.deliver settings searchDates s delivery).life) := by
  rw [life_deliver]
  have hat : (s.at delivery.2).life.Recorded := h
  have hsettles : Settles env (s.at delivery.2).life
      (processStream settings searchDates delivery.1.payload) (s.at delivery.2) :=
    settles_processStream settings searchDates hat delivery.1.payload
  exact hsettles

/-- **The events match the table** after a run, whatever is delivered again in it, exactly if
no delivery loses an event. -/
theorem lifecycle_iff (store : Memory.World) (deliveries : List (StreamEntry × Timestamp)) :
    LifecycleMatches
        (env.deliverAll settings searchDates (World.withoutTasks store) deliveries) ↔
      Runs.Meets (env.deliver settings searchDates)
        (fun s delivery => ¬ env.LosesEvent settings searchDates s delivery)
        (World.withoutTasks store) deliveries := by
  have hstart : (World.withoutTasks store).life.Recorded ∧ (World.withoutTasks store).life.Matches :=
    ⟨⟨.empty, List.nodup_nil, ⟨List.nodup_nil, List.nil_subset _⟩,
      ⟨List.nodup_nil, List.nil_subset _⟩, fun t ht => (by cases ht)⟩,
      ⟨Outbox.exact_nil, Outbox.exact_nil⟩⟩
  refine Runs.final_iff_meets (P := LifecycleMatches)
    (I := fun s => s.life.Recorded ∧ s.life.Matches)
    (L := fun s => s.life.Recorded ∧ s.life.Unmatched) ?_ ?_ ?_ ?_ ?_ deliveries hstart
  · exact fun s hs => (lifecycleMatches_iff s).mpr hs.2
  · intro s delivery hs hcalm
    rcases deliver_life_cases env hs.1 delivery with ⟨-, hfull⟩ | ⟨hloses, -⟩
    · exact ⟨hs.1.full hfull, hs.2.full hs.1 hfull⟩
    · exact absurd hloses hcalm
  · intro s delivery hs hloses
    rcases deliver_life_cases env hs.1 delivery with ⟨hcalm, -⟩ | ⟨-, hcut⟩
    · exact absurd hcalm hloses
    · exact ⟨hs.1.cut hcut, hs.1.unmatched hcut⟩
  · intro s delivery hs
    rcases deliver_life_cases env hs.1 delivery with ⟨-, hfull⟩ | ⟨-, hcut⟩
    · exact ⟨hs.1.full hfull, hs.2.stays hs.1 (.inl hfull)⟩
    · exact ⟨hs.1.cut hcut, hs.2.stays hs.1 (.inr hcut)⟩
  · exact fun s hs hmatches => hs.2.not_matches ((lifecycleMatches_iff s).mp hmatches)

/-! ### Runs in which everything that failed was replayed -/

/-- The handler raises. -/
def Env.fails (s : World) (delivery : StreamEntry × Timestamp) : Bool :=
  match (exec env.run (processStream settings searchDates delivery.1.payload)
      (s.at delivery.2)).1 with
  | .ok _ => false
  | .error _ => true

/-- One of the deliveries is of this event, and does not fail. -/
def Env.succeedsOn (payload : Payload) : World → List (StreamEntry × Timestamp) → Bool
  | _, [] => false
  | s, delivery :: rest =>
    (delivery.1.payload = payload && !env.fails settings searchDates s delivery) ||
      Env.succeedsOn payload (env.deliver settings searchDates s delivery) rest

/-- Every event that failed is delivered again later, and succeeds. -/
def Env.replayed : World → List (StreamEntry × Timestamp) → Bool
  | _, [] => true
  | s, delivery :: rest =>
    let s' := env.deliver settings searchDates s delivery
    (!env.fails settings searchDates s delivery ||
      env.succeedsOn settings searchDates delivery.1.payload s' rest) &&
    Env.replayed s' rest

end Runs

/-- A promise, delivered twice. -/
def promiseAgain : List (StreamEntry × Timestamp) :=
  let promise : StreamEntry := ⟨1, .message
    { eventId := 1, occurredAt := 60, tgChatId := 7, tgMessageId := 1, tgSenderId := some 11
      text := some "сделаю отчёт" }⟩
  [(promise, 61), (promise, 90)]

/-- Redis refuses the first `TaskCreatedEvent`. -/
def refusingOnce : Env where
  faults n c := match c with
    | .xaddCreated _ => n < 10
    | _ => false

/-- The replay succeeds, and the task still has no event. -/
theorem not_lifecycle_promiseAgain :
    @Env.replayed basicCharData refusingOnce {} none (World.withoutTasks {}) promiseAgain = true ∧
      ¬ LifecycleMatches (@Env.deliverAll refusingOnce basicCharData {} none
        (World.withoutTasks {}) promiseAgain) := by
  refine ⟨by decide +kernel, fun h => ?_⟩
  have hrow : ∃ row ∈ (@Env.deliverAll refusingOnce basicCharData {} none
      (World.withoutTasks {}) promiseAgain).db.task, (@Env.deliverAll refusingOnce basicCharData {}
        none (World.withoutTasks {}) promiseAgain).taskCreated.countP
          (fun event => event.taskId = row.id) = 0 := by
    decide +kernel
  obtain ⟨row, hmem, hnone⟩ := hrow
  have hone := h.created row hmem
  omega

end Tasks
end PersonalIntelligence
