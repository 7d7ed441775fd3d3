import PersonalIntelligence.Library.Runs
import PersonalIntelligence.Library.Triple
import PersonalIntelligence.Summarizer.Consumer

/-!
# What a flush leaves behind

A flush writes to three stores, and the order is: the rows, in an open transaction, then
`XADD`, then `COMMIT`, then `DEL`.  Whatever raises before `COMMIT` is rolled back before
anything is published (`fileRows_triple`), so the flush leaves nothing behind.  If `COMMIT`
raises, the event is out and its row is gone, and if `DEL` raises, the list is still there
and will be flushed again.  A flush is therefore all or nothing exactly if neither of the
two raises, and the published events keep naming committed rows as long as no `COMMIT`
raises.
-/

namespace PersonalIntelligence
namespace Summarizer

open Resumption

/-! ## What a flush is meant to leave -/

/-- The row has what the event says. -/
structure Interaction.Shows (row : Interaction) (event : InteractionUpdatedEvent) : Prop where
  id : row.id = event.interactionId
  chatId : row.chatId = event.chatId
  windowStart : row.windowStart = event.windowStart
  windowEnd : row.windowEnd = event.windowEnd
  participants : row.participants = event.participants
  topics : row.topics = event.topics
  sentiment : row.sentiment = event.sentiment
  summary : row.summary = event.summary
  tasks : row.tasks = event.taskIds

/-- The event is one of the flush. -/
def Flush.Announces (flush : Flush) (event : InteractionUpdatedEvent) : Prop :=
  ∃ interactionId chatId participants taskIds,
    event = flush.updatedEvent interactionId chatId (flush.columns participants taskIds)

/-- One event has been published, for a committed row with what it says. -/
structure Filed (event : InteractionUpdatedEvent) (s s' : World) : Prop where
  interactionUpdated : s'.interactionUpdated = s.interactionUpdated ++ [event]
  row : ∃ row ∈ s'.db.interaction, row.Shows event
  /-- The rows that were there, by their ids. -/
  rows : ∀ row ∈ s.db.interaction, row.id ∈ s'.db.interaction.map (·.id)

/-- The list of the chat has been filed and deleted. -/
structure Completed (env : Env) (chat : ℤ) (s s' : World) : Prop where
  filed : ∃ flush : Flush, flush.tgChatId = chat ∧ flush.messages = env.live s chat ∧
    ∃ event, flush.Announces event ∧ Filed event s s'
  deleted : s'.window chat = []

/-- Events have been published, and neither the tables nor the lists have changed. -/
structure Unfiled (published : List InteractionUpdatedEvent) (s s' : World) : Prop where
  db : s'.db = s.db
  interactionUpdated : s'.interactionUpdated = s.interactionUpdated ++ published
  window : s'.window = s.window
  deadline : s'.deadline = s.deadline

/-- The flush has completed, or it has left nothing behind. -/
def AllOrNothing (env : Env) (chat : ℤ) (s s' : World) : Prop :=
  Completed env chat s s' ∨ Unfiled [] s s'

/-- The flush has published an event and the list is still there. -/
structure Torn (chat : ℤ) (s s' : World) : Prop where
  interactionUpdated : s'.interactionUpdated ≠ s.interactionUpdated
  window : s'.window chat ≠ []

theorem Torn.not_allOrNothing {env : Env} {chat : ℤ} {s s' : World} (h : Torn chat s s') :
    ¬ AllOrNothing env chat s s' := by
  rintro (hcompleted | huntouched)
  · exact h.window hcompleted.deleted
  · exact h.interactionUpdated (by simpa using huntouched.interactionUpdated)

/-! ## Single calls -/

section Calls

variable (env : Env) {bad : Cmd → Prop} [DecidablePred bad]

/-- A command either has its effect or raises and has none. -/
theorem Env.run_cases (c : Cmd) (s : World) :
    env.run c s = (.ok (env.effect c s).1, (env.effect c s).2.tick) ∨
      (c.infallible = false ∧ env.run c s = (.error .callFailed, s.tick)) := by
  unfold Env.run
  split_ifs with h
  · rw [Bool.and_eq_true, Bool.not_eq_true'] at h
    exact .inr ⟨h.1, rfl⟩
  · exact .inl rfl

/-- No call in `bad` has raised, and the stores are as in `I`. -/
def Calm (I : World → Prop) (t : World × Bool) : Prop := t.2 = false ∧ I t.1

/-- A call that is not in `bad` has raised. -/
theorem Calm.tick {I : World → Prop} {c : Cmd} (hbad : ¬ bad c) {s : World} {seen : Bool}
    (htick : I s → I s.tick) (h : Calm I (s, seen)) : Calm I (s.tick, seen || decide (bad c)) := by
  refine ⟨?_, htick h.2⟩
  rw [decide_eq_false hbad, Bool.or_false]
  exact h.1

/-- The rule of a single call, with an eye on the calls in `bad`. -/
theorem Env.triple_await {c : Cmd} {P E : World × Bool → Prop} {Q : Ans c → World × Bool → Prop}
    (hok : ∀ s seen, P (s, seen) → Q (env.effect c s).1 ((env.effect c s).2.tick, seen))
    (herr : c.infallible = false → ∀ s seen, P (s, seen) → E (s.tick, seen || decide (bad c))) :
    Triple (env.run.watching bad) P (await c) Q E := by
  refine triple_perform fun t ht => ?_
  rcases env.run_cases c t.1 with hrun | ⟨hfallible, hrun⟩
  · exact .inl ⟨_, _, watching_of_ok env.run bad hrun t.2, hok t.1 t.2 ht⟩
  · exact .inr ⟨_, _, watching_of_error env.run bad hrun t.2, herr hfallible t.1 t.2 ht⟩

/-- A call that is not in `bad` keeps what its effect keeps. -/
theorem Env.calm_watching {I : World → Prop} {c : Cmd} (hbad : ¬ bad c)
    (htick : ∀ s, I s → I s.tick) (heffect : ∀ s, I s → I (env.effect c s).2) {t : World × Bool}
    (h : Calm I t) : Calm I (env.run.watching bad c t).2 := by
  rcases env.run_cases c t.1 with hrun | ⟨-, hrun⟩
  · rw [watching_of_ok env.run bad hrun t.2]
    exact ⟨h.1, htick _ (heffect _ h.2)⟩
  · rw [watching_of_error env.run bad hrun t.2]
    exact Calm.tick hbad (htick _) h

end Calls

/-! ## The transaction -/

/-- The calls of the transaction before `XADD`. -/
def Cmd.Statement : Cmd → Prop
  | .upsertChat _ | .updateChat _ _ _ | .upsertPerson _ _ | .selectTasks _ _
  | .selectInteraction _ _ | .updateInteraction _ _ _ | .insertInteraction _ _ _
  | .putObject _ _ | .setObjectRef _ _ => True
  | _ => False

/-- The calls after which a flush is not undone. -/
def Cmd.Closes : Cmd → Prop
  | .commit | .delete _ => True
  | _ => False

theorem Cmd.Statement.not_closes {c : Cmd} (h : c.Statement) : ¬ c.Closes := by
  cases c with
  | commit | delete => exact h.elim
  | _ => exact id

/-- `s'` is reached from `s` inside the transaction. -/
structure Inside (published : List InteractionUpdatedEvent) (s s' : World) : Prop
    extends Unfiled published s s' where
  opened : s'.tx.isSome = true
  rows : ∀ row ∈ s.db.interaction, row.id ∈ s'.tables.interaction.map (·.id)
  shown : ∀ event ∈ published, ∃ row ∈ s'.tables.interaction, row.Shows event

section Transaction

variable {published : List InteractionUpdatedEvent} {event : InteractionUpdatedEvent} {s s' : World}

theorem Unfiled.refl (s : World) : Unfiled [] s s := ⟨rfl, (List.append_nil _).symm, rfl, rfl⟩

theorem Unfiled.tick (h : Unfiled published s s') : Unfiled published s s'.tick :=
  ⟨h.1, h.2, h.3, h.4⟩

theorem Inside.tick (h : Inside published s s') : Inside published s s'.tick :=
  ⟨h.1.tick, h.2, h.3, h.4⟩

theorem Unfiled.begin (env : Env) (h : Unfiled [] s s') : Inside [] s (env.effect .begin s').2 := by
  refine ⟨⟨h.1, h.2, h.3, h.4⟩, rfl, fun row hrow => ?_, fun event hevent => by cases hevent⟩
  show row.id ∈ s'.db.interaction.map (·.id)
  rw [h.db]
  exact List.mem_map_of_mem hrow

/-- A write of the tables, in an open transaction. -/
theorem Inside.setTables (h : Inside [] s s') {db : Db}
    (hdb : s'.tables.interaction.map (·.id) ⊆ db.interaction.map (·.id)) :
    Inside [] s (s'.setTables db) ∧ (s'.setTables db).tables = db := by
  obtain ⟨t, ht⟩ := Option.isSome_iff_exists.mp h.opened
  have hset : s'.setTables db = { s' with tx := some db } := by simp [World.setTables, ht]
  rw [hset]
  exact ⟨⟨⟨h.db, h.interactionUpdated, h.window, h.deadline⟩, rfl,
    fun row hrow => hdb (h.rows row hrow), fun event hevent => by cases hevent⟩, rfl⟩

theorem Inside.insert (h : Inside [] s s') {db : Db}
    (hdb : s'.tables.interaction.map (·.id) ⊆ db.interaction.map (·.id)) :
    Inside [] s (s'.insert db) ∧ (s'.insert db).tables = db := by
  obtain ⟨hset, htables⟩ := h.setTables hdb
  exact ⟨⟨⟨hset.db, hset.interactionUpdated, hset.window, hset.deadline⟩, hset.opened, hset.rows,
    hset.shown⟩, htables⟩

theorem Inside.rollback (env : Env) (h : Inside published s s') :
    Unfiled published s (env.effect .rollback s').2 :=
  ⟨h.db, h.interactionUpdated, h.window, h.deadline⟩

theorem Inside.commit (env : Env) (h : Inside [event] s s') :
    Filed event s (env.effect .commit s').2 :=
  ⟨h.interactionUpdated, h.shown event (List.mem_singleton_self _), h.rows⟩

theorem ids_subset_update {rows : List Interaction} {p : Interaction → Bool}
    {f : Interaction → Interaction} (hf : ∀ row, (f row).id = row.id) :
    rows.map (·.id) ⊆ (Table.update p f rows).map (·.id) := by
  rw [Table.map_update hf]
  exact List.Subset.refl _

/-- The statements stay inside the transaction, and none of them removes an interaction. -/
theorem Inside.effect (env : Env) {c : Cmd} (hc : c.Statement) (h : Inside [] s s') :
    Inside [] s (env.effect c s').2 := by
  cases c with
  | upsertChat | upsertPerson =>
    refine (h.insert ?_).1
    exact List.Subset.refl _
  | updateChat =>
    refine (h.setTables ?_).1
    exact List.Subset.refl _
  | updateInteraction | setObjectRef =>
    refine (h.setTables ?_).1
    exact ids_subset_update fun _ => rfl
  | insertInteraction =>
    refine (h.insert ?_).1
    exact List.map_subset _ (List.subset_append_left _ _)
  | selectTasks | selectInteraction => exact h
  | putObject key body => exact ⟨⟨h.db, h.interactionUpdated, h.window, h.deadline⟩, h.2, h.3, h.4⟩
  | _ => exact hc.elim

/-- Some interaction, as the transaction sees it, has what the event says. -/
def Shown (event : InteractionUpdatedEvent) (s : World) : Prop :=
  ∃ row ∈ s.tables.interaction, row.Shows event

/-- The object and the reference to it change nothing an event says. -/
theorem Shown.setObjectRef (hin : Inside [] s s') (h : Shown event s') (id : Ident)
    (key : WindowObjectKey) : Shown event (s'.setTables (s'.tables.setObjectRef id key)) := by
  have hids : s'.tables.interaction.map (·.id) ⊆
      (s'.tables.setObjectRef id key).interaction.map (·.id) := ids_subset_update fun _ => rfl
  obtain ⟨row, hrow, hshows⟩ := h
  unfold Shown
  rw [(hin.setTables hids).2]
  refine ⟨_, Table.mem_update.mpr ⟨row, hrow, rfl⟩, ?_⟩
  split_ifs
  · exact ⟨hshows.1, hshows.2, hshows.3, hshows.4, hshows.5, hshows.6, hshows.7, hshows.8, hshows.9⟩
  · exact hshows

end Transaction

/-! ## The rows -/

/-- The contract of the statements. -/
def filing : Contract Cmd Ans Exc where
  allowed := Cmd.Statement

/-- The contract of what follows the interaction row. -/
def storing : Contract Cmd Ans Exc where
  allowed
    | .putObject _ _ | .setObjectRef _ _ => True
    | _ => False

section Rows

variable {settings : Settings} {flush : Flush}

theorem ensureParticipantsFrom_keeps (messages : List WindowMessage) (seen : List ℤ)
    (participants : List Ident) :
    (ensureParticipantsFrom messages seen participants).Keeps filing fun _ => True := by
  induction messages generalizing seen participants with
  | nil => exact Prog.keeps_ret.mpr trivial
  | cons message rest ih =>
    unfold ensureParticipantsFrom
    cases message.tgSenderId with
    | none => exact ih seen participants
    | some tgUserId =>
      dsimp only
      split_ifs
      · exact ih seen participants
      · exact Prog.keeps_perform_bind trivial fun personId _ => ih _ _

theorem storeObject_keeps (interactionId : Ident) :
    (storeObject settings flush interactionId).Keeps storing fun _ => True := by
  unfold storeObject
  split_ifs
  · refine Prog.keeps_perform_bind trivial fun _ _ => ?_
    exact Prog.keeps_perform (Cmd.setObjectRef _ _) trivial fun _ _ => trivial
  · exact Prog.keeps_ret.mpr trivial

variable {env : Env} {bad : Cmd → Prop} [DecidablePred bad] (hbad : ∀ c, bad c → c.Closes)
  {s : World}

include hbad

/-- A program of statements stays inside the transaction. -/
theorem triple_filing {α : Type} {p : Summarizing α} {post : α → Prop} (hp : p.Keeps filing post) :
    Triple (env.run.watching bad) (Calm (Inside [] s)) p (fun _ => Calm (Inside [] s))
      (Calm (Inside [] s)) := by
  refine (hp.triple (fun _ _ _ _ => trivial) fun c t hc ht => ?_).conseq (fun _ => id)
    (fun _ _ => And.right) fun _ => id
  exact env.calm_watching (I := Inside [] s) (fun hb => hc.not_closes (hbad c hb))
    (fun _ => Inside.tick) (fun _ => Inside.effect env hc) ht

/-- A single statement stays inside the transaction. -/
theorem triple_statement {c : Cmd} (hc : c.Statement) :
    Triple (env.run.watching bad) (Calm (Inside [] s)) (await c) (fun _ => Calm (Inside [] s))
      (Calm (Inside [] s)) := by
  have hkeeps : (await c).Keeps filing fun _ => True :=
    Prog.keeps_perform c hc fun _ _ => trivial
  exact triple_filing hbad hkeeps

/-- A call of the transaction that raises leaves it as it is. -/
theorem calm_tick {c : Cmd} (hc : ¬ c.Closes) {s' : World} {seen : Bool}
    (h : Calm (Inside [] s) (s', seen)) :
    Calm (Inside [] s) (s'.tick, seen || decide (bad c)) :=
  Calm.tick (fun hb => hc (hbad c hb)) Inside.tick h

omit hbad in
/-- The row that `UPDATE` finds has what the event says afterwards, -/
theorem shows_updateInteraction {db : Db} {chatId : Ident} {existing : Ident × Timestamp}
    (hfound : db.selectInteraction chatId flush.windowStart = some existing)
    (participants taskIds : List Ident) :
    ∃ row ∈ (db.updateInteraction existing.1 existing.2
      (flush.columns participants taskIds)).interaction,
      row.Shows (flush.updatedEvent existing.1 chatId (flush.columns participants taskIds)) := by
  obtain ⟨row, hfirst, rfl⟩ := Option.map_eq_some_iff.mp hfound
  obtain ⟨hrow, hkey⟩ := List.mem_filter.mp (Table.mem_of_first hfirst)
  have hkey := of_decide_eq_true hkey
  refine ⟨_, Table.mem_update.mpr ⟨row, hrow, rfl⟩, ?_⟩
  rw [if_pos (by simp)]
  exact ⟨rfl, hkey.1, hkey.2, rfl, rfl, rfl, rfl, rfl, rfl⟩

omit hbad in
/-- and so has the row that `INSERT` makes. -/
theorem shows_insertInteraction (db : Db) (now : Timestamp) (id chatId : Ident)
    (participants taskIds : List Ident) :
    ∃ row ∈ (db.insertInteraction ((flush.columns participants taskIds).fresh now id chatId
      flush.windowStart)).interaction,
      row.Shows (flush.updatedEvent id chatId (flush.columns participants taskIds)) :=
  ⟨_, List.mem_append_right _ (List.mem_singleton_self _),
    ⟨rfl, rfl, rfl, rfl, rfl, rfl, rfl, rfl, rfl⟩⟩

/-- The row of the interaction, updated or inserted. -/
theorem upsertInteraction_triple (chatId : Ident) (participants taskIds : List Ident) :
    Triple (env.run.watching bad) (Calm (Inside [] s))
      (upsertInteraction chatId flush.windowStart (flush.columns participants taskIds))
      (fun interactionId => Calm fun s' => Inside [] s s' ∧
        Shown (flush.updatedEvent interactionId chatId (flush.columns participants taskIds)) s')
      (Calm (Inside [] s)) := by
  unfold upsertInteraction
  refine Triple.bind (Q := fun found => Calm fun s' => Inside [] s s' ∧
    s'.tables.selectInteraction chatId flush.windowStart = found) ?_ fun found => ?_
  · exact env.triple_await (fun s' seen h => ⟨h.1, h.2.tick, rfl⟩) fun _ s' seen h =>
      calm_tick hbad id h
  cases found with
  | some existing =>
    refine Triple.bind (Q := fun _ => Calm fun s' => Inside [] s s' ∧ Shown
      (flush.updatedEvent existing.1 chatId (flush.columns participants taskIds)) s') ?_
      fun _ => triple_ret fun _ h => h
    refine env.triple_await (fun s' seen ⟨hcalm, hin, hfound⟩ => ?_) fun _ s' seen h =>
      calm_tick hbad id ⟨h.1, h.2.1⟩
    have hids : s'.tables.interaction.map (·.id) ⊆ (s'.tables.updateInteraction existing.1
        existing.2 (flush.columns participants taskIds)).interaction.map (·.id) :=
      ids_subset_update fun _ => rfl
    obtain ⟨hset, htables⟩ := hin.setTables hids
    refine ⟨hcalm, hset.tick, ?_⟩
    show Shown _ (s'.setTables _)
    rw [Shown, htables]
    exact shows_updateInteraction hfound participants taskIds
  | none =>
    refine env.triple_await (fun s' seen ⟨hcalm, hin, _⟩ => ?_) fun _ s' seen h =>
      calm_tick hbad id ⟨h.1, h.2.1⟩
    have hids : s'.tables.interaction.map (·.id) ⊆ (s'.tables.insertInteraction
        ((flush.columns participants taskIds).fresh s'.now s'.drawn chatId
          flush.windowStart)).interaction.map (·.id) :=
      List.map_subset _ (List.subset_append_left _ _)
    obtain ⟨hset, htables⟩ := hin.insert hids
    refine ⟨hcalm, hset.tick, ?_⟩
    show Shown _ (s'.insert _)
    rw [Shown, htables]
    exact shows_insertInteraction s'.tables s'.now s'.drawn chatId participants taskIds

/-- The object is stored without a change to what the event says. -/
theorem storeObject_triple (interactionId : Ident) (event : InteractionUpdatedEvent) :
    Triple (env.run.watching bad) (Calm fun s' => Inside [] s s' ∧ Shown event s')
      (storeObject settings flush interactionId)
      (fun _ => Calm fun s' => Inside [] s s' ∧ Shown event s')
      (Calm fun s' => Inside [] s s' ∧ Shown event s') := by
  refine (((storeObject_keeps interactionId).triple (fun _ _ _ _ => trivial)
    fun c t hc ht => ?_).conseq (fun _ => id) (fun _ _ => And.right) fun _ => id)
  have hstatement : c.Statement := by
    cases c with
    | putObject | setObjectRef => trivial
    | _ => exact hc.elim
  refine env.calm_watching (I := fun s' => Inside [] s s' ∧ Shown event s')
    (fun hb => hstatement.not_closes (hbad c hb)) (fun s' h => ⟨h.1.tick, h.2⟩)
    (fun s' h => ⟨h.1.effect env hstatement, ?_⟩) ht
  cases c with
  | putObject => exact h.2
  | setObjectRef id key => exact h.2.setObjectRef h.1 id key
  | _ => exact hc.elim

/-- **The rows of a flush.**  Nothing has been published when they are written, and the row
has what the event will say. -/
theorem fileRows_triple :
    Triple (env.run.watching bad) (Calm (Inside [] s)) (fileRows settings flush)
      (fun event => Calm fun s' => flush.Announces event ∧ Inside [] s s' ∧ Shown event s')
      (Calm (Inside [] s)) := by
  refine (triple_statement hbad (c := .upsertChat _) trivial).bind fun chatId => ?_
  refine (triple_statement hbad (c := .updateChat ..) trivial).bind fun _ => ?_
  refine (triple_filing hbad (ensureParticipantsFrom_keeps ..)).bind fun participants => ?_
  refine (triple_statement hbad (c := .selectTasks ..) trivial).bind fun taskIds => ?_
  refine (upsertInteraction_triple hbad chatId participants taskIds).bind fun interactionId => ?_
  refine ((storeObject_triple hbad interactionId _).conseq (fun _ => id) (fun _ _ => id)
    fun _ h => ⟨h.1, h.2.1⟩).bind fun _ => ?_
  exact triple_ret fun t h => ⟨h.1, ⟨interactionId, chatId, participants, taskIds, rfl⟩, h.2⟩

/-- The event is published inside the transaction. -/
theorem fileWindow_triple :
    Triple (env.run.watching bad) (Calm (Inside [] s)) (fileWindow settings flush)
      (fun _ => Calm fun s' => ∃ event, flush.Announces event ∧ Inside [event] s s')
      (Calm (Inside [] s)) := by
  refine (fileRows_triple hbad).bind fun event => ?_
  refine env.triple_await (fun s' seen ⟨hcalm, hannounces, hin, hshown⟩ => ?_)
    fun _ s' seen h => calm_tick hbad id ⟨h.1, h.2.2.1⟩
  refine ⟨hcalm, event, hannounces, ⟨⟨hin.db, ?_, hin.window, hin.deadline⟩, hin.opened, hin.rows,
    fun event' hevent' => ?_⟩⟩
  · show s'.interactionUpdated ++ [event] = _
    rw [hin.interactionUpdated, List.append_nil]
  · rw [List.mem_singleton.mp hevent']
    exact hshown

/-- **The transaction of a flush.**  It commits the row of the event it has published, or it
is rolled back.  What it has published by then stays published, and that is so exactly if
`COMMIT` raises. -/
theorem transaction_triple (hcommit : bad .commit) :
    Triple (env.run.watching bad) (Calm (Unfiled [] s)) (transaction (fileWindow settings flush))
      (fun _ => Calm fun s' => ∃ event, flush.Announces event ∧ Filed event s s' ∧
        s'.window = s.window)
      (fun t => Calm (Unfiled [] s) t ∨ (t.2 = true ∧ ∃ event, Unfiled [event] s t.1)) := by
  refine Triple.transaction (B := Calm (Inside [] s))
    (Q := fun _ => Calm fun s' => ∃ event, flush.Announces event ∧ Inside [event] s s')
    (F := fun t => Calm (Inside [] s) t ∨ (t.2 = true ∧ ∃ event, Inside [event] s t.1))
    ?_ ?_ (fun _ => ?_) ?_
  · -- `BEGIN`
    refine env.triple_await (fun s' seen h => ⟨h.1, (h.2.begin env).tick⟩) fun _ s' seen h => ?_
    exact .inl (Calm.tick (hbad .begin) Unfiled.tick h)
  · exact (fileWindow_triple hbad).conseq (fun _ => id) (fun _ _ => id) fun _ => .inl
  · -- `COMMIT`
    refine env.triple_await (fun s' seen ⟨hcalm, event, hannounces, hin⟩ => ?_)
      fun _ s' seen ⟨_, event, _, hin⟩ => ?_
    · have hfiled := hin.commit env
      exact ⟨hcalm, event, hannounces, ⟨hfiled.1, hfiled.2, hfiled.3⟩, hin.window⟩
    · exact .inr ⟨by simp [hcommit], event, hin.tick⟩
  · -- `ROLLBACK`
    refine env.triple_await (fun s' seen h => ?_) fun hno => by cases hno
    rcases h with ⟨hcalm, hin⟩ | ⟨hseen, event, hin⟩
    · exact .inl ⟨hcalm, (hin.rollback env).tick⟩
    · exact .inr ⟨hseen, event, (hin.rollback env).tick⟩

end Rows

/-! ## A flush -/

/-- The calls that end a flush of the chat. -/
def EndsFlush (chat : ℤ) (c : Cmd) : Prop := c = .commit ∨ c = .delete chat

instance (chat : ℤ) (c : Cmd) : Decidable (EndsFlush chat c) := inferInstanceAs (Decidable (_ ∨ _))

theorem EndsFlush.closes {chat : ℤ} {c : Cmd} (h : EndsFlush chat c) : c.Closes := by
  rcases h with rfl | rfl
  · trivial
  · trivial

section Flushes

variable {env : Env} {settings : Settings} {chat : ℤ} {traceId : Option String} {s s' : World}

theorem torn_of_published (hlive : env.live s chat ≠ []) {event : InteractionUpdatedEvent}
    (hpublished : s'.interactionUpdated = s.interactionUpdated ++ [event])
    (hwindow : s'.window = s.window) : Torn chat s s' where
  interactionUpdated heq := by simp [heq] at hpublished
  window hnil := by
    rw [hwindow] at hnil
    exact hlive (by simp [Env.live, hnil])

/-- **A flush** ends in one of three ways, and it is torn exactly if a call that ends it has
raised. -/
theorem flushWindow_triple :
    Triple (env.run.watching (EndsFlush chat)) (fun t => t = (s, false))
      (flushWindow settings chat traceId)
      (fun _ t => Calm (AllOrNothing env chat s) t ∨ (t.2 = true ∧ Torn chat s t.1))
      (fun t => Calm (AllOrNothing env chat s) t ∨ (t.2 = true ∧ Torn chat s t.1)) := by
  have hends (c : Cmd) : EndsFlush chat c → c.Closes := EndsFlush.closes
  unfold flushWindow
  refine Triple.bind (Q := fun messages t => messages = env.live s chat ∧ Calm (Unfiled [] s) t)
    ?_ fun messages t ⟨hmessages, ht⟩ => ?_
  · refine env.triple_await ?_ ?_
    · rintro s' seen ⟨⟩
      exact ⟨rfl, rfl, (Unfiled.refl s).tick⟩
    · rintro - s' seen ⟨⟩
      exact .inl ⟨by simp [EndsFlush], .inr (Unfiled.refl s).tick⟩
  subst hmessages
  refine (?_ : Triple _ (Calm (Unfiled [] s)) _ _ _) t ht
  split_ifs with hnonempty
  · exact triple_ret fun t h => .inl ⟨h.1, .inr h.2⟩
  refine Triple.bind (Q := fun _ => Calm (Unfiled [] s)) ?_ fun summary => ?_
  · refine env.triple_await (fun s' seen h => ⟨h.1, h.2.tick⟩) fun _ s' seen h => ?_
    exact .inl ⟨(Calm.tick (hends (.summarize _)) Unfiled.tick h).1, .inr h.2.tick⟩
  refine ((transaction_triple hends (.inl rfl)).conseq (fun _ => id) (fun _ _ => id)
    fun t h => ?_).bind fun _ => ?_
  · rcases h with ⟨hcalm, hunfiled⟩ | ⟨hseen, event, hunfiled⟩
    · exact .inl ⟨hcalm, .inr hunfiled⟩
    · exact .inr ⟨hseen, torn_of_published hnonempty hunfiled.interactionUpdated hunfiled.window⟩
  · refine env.triple_await (fun s' seen ⟨hcalm, event, hannounces, hfiled, _⟩ => ?_)
      fun _ s' seen ⟨_, event, _, hfiled, hwindow⟩ => ?_
    · refine .inl ⟨hcalm, .inl ⟨⟨_, rfl, rfl, event, hannounces, ?_⟩, ?_⟩⟩
      · exact ⟨hfiled.1, hfiled.2, hfiled.3⟩
      · exact Function.update_self ..
    · have htorn : Torn chat s s'.tick :=
        torn_of_published hnonempty hfiled.interactionUpdated hwindow
      exact .inr ⟨by simp [EndsFlush], htorn⟩

variable (env settings chat traceId s) in
/-- A flush is all or nothing exactly if no call that ends it raises. -/
theorem allOrNothing_iff :
    AllOrNothing env chat s (exec env.run (flushWindow settings chat traceId) s).2 ↔
      ¬ (flushWindow settings chat traceId).Raised env.run (EndsFlush chat) s := by
  have hseen := seen_exec_watching_iff env.run (EndsFlush chat)
    (flushWindow settings chat traceId) s false
  rw [← exec_watching env.run (EndsFlush chat) (flushWindow settings chat traceId) (s, false)]
  rcases flushWindow_triple.final (s := (s, false)) rfl with ⟨hcalm, hall⟩ | ⟨htrue, htorn⟩
  · refine iff_of_true hall fun hraised => ?_
    rw [hseen.mpr (.inr hraised)] at hcalm
    cases hcalm
  · exact iff_of_false htorn.not_allOrNothing
      (not_not.mpr ((hseen.mp htrue).resolve_left Bool.false_ne_true))

end Flushes

end Summarizer
end PersonalIntelligence
