import PersonalIntelligence.Summarizer.Flush

/-!
# The published events of a run

The summarizer never removes an interaction, so an event that names a committed row when
its flush ends names it from then on.  A flush whose `COMMIT` raises is the only one that
leaves an event without a row, whatever else raises, and `World.Named` is kept by every
delivery in which no `COMMIT` raises.
-/

namespace PersonalIntelligence
namespace Summarizer

open Resumption

/-- Every published event names a committed interaction. -/
def World.Named (s : World) : Prop :=
  ∀ event ∈ s.interactionUpdated, event.interactionId ∈ s.db.interaction.map (·.id)

instance (s : World) : Decidable s.Named := inferInstanceAs (Decidable (∀ _ ∈ _, _))

section Named

variable {s s' : World}

theorem World.Named.unfiled (h : s.Named) (hunfiled : Unfiled [] s s') : s'.Named := by
  unfold World.Named
  rw [hunfiled.interactionUpdated, hunfiled.db, List.append_nil]
  exact h

/-- A flush that has filed its window adds the row of its event and keeps the others. -/
theorem World.Named.filed (h : s.Named) {event : InteractionUpdatedEvent}
    (hfiled : Filed event s s') : s'.Named := by
  intro event' hevent'
  rw [hfiled.interactionUpdated] at hevent'
  rcases List.mem_append.mp hevent' with hold | hnew
  · obtain ⟨row, hrow, hid⟩ := List.mem_map.mp (h event' hold)
    rw [← hid]
    exact hfiled.rows row hrow
  · rw [List.mem_singleton.mp hnew]
    obtain ⟨row, hrow, hshows⟩ := hfiled.row
    exact List.mem_map.mpr ⟨row, hrow, hshows.id⟩

end Named

/-! ## What a delivery keeps -/

/-- A `COMMIT` has raised, or every published event names a committed interaction. -/
def Watched (t : World × Bool) : Prop := t.2 = true ∨ t.1.Named

/-- However it ends, the program keeps `Watched`. -/
def KeepsNamed {α : Type} (env : Env) (p : Summarizing α) : Prop :=
  Triple (env.run.watching (· = .commit)) Watched p (fun _ => Watched) Watched

/-- The calls outside the transaction, but for the publication. -/
def Cmd.Aside : Cmd → Prop
  | .selectProcessed _ | .insertProcessed _ | .lindexLast _ | .lrange _ | .rpush _ _ | .llen _
  | .expire _ _ | .delete _ | .summarize _ | .xaddDeadLetter _ | .xack _ => True
  | _ => False

section Keeps

variable {env : Env} {α β : Type}

theorem KeepsNamed.bind {p : Summarizing α} {f : α → Summarizing β} (hp : KeepsNamed env p)
    (hf : ∀ a, KeepsNamed env (f a)) : KeepsNamed env (p >>= f) := Triple.bind hp hf

theorem keepsNamed_pure (a : α) : KeepsNamed env (pure a) := triple_ret fun _ h => h

/-- What a call aside does to the rows and to the events: nothing. -/
theorem Cmd.Aside.named {c : Cmd} (hc : c.Aside) {s : World} (h : s.Named) :
    (env.effect c s).2.Named := by
  cases c with
  | insertProcessed eventId =>
    have hrows : (s.setTables (s.tables.insertProcessed s.now eventId)).db.interaction =
        s.db.interaction := by
      unfold World.setTables World.tables Db.insertProcessed
      cases s.tx with
      | some t => rfl
      | none =>
        dsimp only [Option.getD_none]
        split_ifs <;> rfl
    have hevents : (s.setTables (s.tables.insertProcessed s.now eventId)).interactionUpdated =
        s.interactionUpdated := by
      unfold World.setTables
      cases s.tx <;> rfl
    show World.Named (s.setTables _)
    unfold World.Named
    rw [hrows, hevents]
    exact h
  | expire chat ttl =>
    show World.Named (if env.live s chat = [] then s else s.setWindow _ _ _)
    split_ifs
    · exact h
    · exact h
  | selectProcessed | lindexLast | lrange | rpush | llen | delete | summarize
  | xaddDeadLetter | xack => exact h
  | _ => exact hc.elim

theorem keepsNamed_await {c : Cmd} (hc : c.Aside) : KeepsNamed env (await c) := by
  refine env.triple_await (fun s seen h => h.imp_right fun hs => ?_) fun _ s seen h => ?_
  · exact hc.named hs
  · rcases h with hseen | hs
    · exact .inl (by simpa using .inl hseen)
    · exact .inr hs

theorem keepsNamed_await_bind {c : Cmd} {f : Ans c → Summarizing α} (hc : c.Aside)
    (hf : ∀ a, KeepsNamed env (f a)) : KeepsNamed env (await c >>= f) :=
  (keepsNamed_await hc).bind hf

variable {settings : Settings}

/-- The transaction is left with its row committed, or rolled back before it has published
anything, or with a `COMMIT` that has raised. -/
theorem keepsNamed_transaction (flush : Flush) :
    KeepsNamed env (transaction (fileWindow settings flush)) := by
  rintro ⟨s, seen⟩ h
  have hcommit (c : Cmd) : c = .commit → c.Closes := by
    rintro rfl
    trivial
  cases seen with
  | true =>
    exact (triple_seen env.run (· = .commit) (transaction (fileWindow settings flush))).conseq
      (fun _ => id) (fun _ _ => .inl) (fun _ => .inl) (s, true) rfl
  | false =>
    have hnamed : s.Named := h.resolve_left Bool.false_ne_true
    have hstart : Calm (Unfiled [] s) (s, false) := ⟨rfl, Unfiled.refl s⟩
    refine (transaction_triple hcommit rfl).conseq (fun _ => id) ?_ ?_ (s, false) hstart
    · rintro a t ⟨-, event, -, hfiled, -⟩
      exact .inr (hnamed.filed hfiled)
    · rintro t (⟨-, hunfiled⟩ | ⟨hseen, -⟩)
      · exact .inr (hnamed.unfiled hunfiled)
      · exact .inl hseen

theorem keepsNamed_flushWindow (chat : ℤ) (traceId : Option String) :
    KeepsNamed env (flushWindow settings chat traceId) := by
  unfold flushWindow
  refine keepsNamed_await_bind trivial fun messages => ?_
  split_ifs
  · exact keepsNamed_pure ()
  refine keepsNamed_await_bind trivial fun summary => ?_
  exact (keepsNamed_transaction _).bind fun _ => keepsNamed_await trivial

theorem keepsNamed_shouldRollWindow (chat : ℤ) (occurredAt : Timestamp) :
    KeepsNamed env (shouldRollWindow settings chat occurredAt) := by
  unfold shouldRollWindow
  refine keepsNamed_await_bind trivial fun lastMessage => ?_
  cases lastMessage with
  | none => exact keepsNamed_pure false
  | some _ => exact keepsNamed_pure _

theorem keepsNamed_storeMessage (event : TelegramMessageEvent) :
    KeepsNamed env (storeMessage settings event) := by
  unfold storeMessage
  have hstore : KeepsNamed env (do
      await (.rpush event.tgChatId [windowMessage event])
      let size ← await (.llen event.tgChatId)
      await (.expire event.tgChatId (windowTtl settings))
      if settings.summarizerWindowSize ≤ size then
        flushWindow settings event.tgChatId event.traceId) := by
    refine keepsNamed_await_bind trivial fun _ => keepsNamed_await_bind trivial fun size => ?_
    refine keepsNamed_await_bind trivial fun _ => ?_
    split_ifs
    · exact keepsNamed_flushWindow event.tgChatId event.traceId
    · exact keepsNamed_pure ()
  refine (keepsNamed_shouldRollWindow event.tgChatId _).bind fun roll => ?_
  dsimp only
  split_ifs
  · exact (keepsNamed_flushWindow event.tgChatId event.traceId).bind fun _ => hstore
  · exact hstore

theorem keepsNamed_handleMessage (event : TelegramMessageEvent) :
    KeepsNamed env (handleMessage settings event) := by
  unfold handleMessage
  split_ifs
  · exact keepsNamed_pure ()
  refine keepsNamed_await_bind trivial fun processed => ?_
  split_ifs
  · exact keepsNamed_pure ()
  · exact keepsNamed_await_bind trivial fun _ => keepsNamed_storeMessage event

theorem keepsNamed_handleEditedMessage (event : TelegramMessageEditedEvent) :
    KeepsNamed env (handleEditedMessage settings event) := by
  unfold handleEditedMessage rewriteWindow
  split_ifs
  · exact keepsNamed_pure ()
  refine keepsNamed_await_bind trivial fun processed => ?_
  split_ifs
  · exact keepsNamed_pure ()
  refine keepsNamed_await_bind trivial fun _ => keepsNamed_await_bind trivial fun entries => ?_
  split_ifs
  · refine keepsNamed_await_bind trivial fun _ => keepsNamed_await_bind trivial fun _ => ?_
    exact keepsNamed_await trivial
  · exact keepsNamed_pure ()

theorem keepsNamed_processStream (entry : StreamEntry) :
    KeepsNamed env (processStream settings entry) := by
  unfold processStream
  cases entry.payload with
  | message event => exact keepsNamed_handleMessage event
  | messageEdited event => exact keepsNamed_handleEditedMessage event
  | invalid => exact triple_raise fun _ h => h
  | unknownStream => exact keepsNamed_pure ()

theorem keepsNamed_handleEntry (entry : StreamEntry) :
    KeepsNamed env (handleEntry settings entry) := by
  have hdead : KeepsNamed env
      (tryCatch (await (.xaddDeadLetter entry)) fun _ => pure () : Summarizing Unit) :=
    Triple.tryCatch (keepsNamed_await trivial) fun _ => keepsNamed_pure ()
  unfold handleEntry
  refine KeepsNamed.bind ?_ fun _ => keepsNamed_await trivial
  exact Triple.tryCatch (keepsNamed_processStream entry) fun _ => hdead

end Keeps

/-! ## Runs -/

section Runs

variable (env : Env) (settings : Settings)

/-- Some `COMMIT` raises while the entry is handled. -/
def Env.CommitRaises (s : World) (delivery : StreamEntry × Timestamp) : Prop :=
  (handleEntry settings delivery.1).Raised env.run (· = .commit) (s.at delivery.2)

instance (s : World) (delivery : StreamEntry × Timestamp) :
    Decidable (env.CommitRaises settings s delivery) := Prog.decidableRaised ..

variable {env settings} {s : World}

/-- A delivery in which no `COMMIT` raises keeps the events named. -/
theorem World.Named.deliver (h : s.Named) {delivery : StreamEntry × Timestamp}
    (hcommitted : ¬ env.CommitRaises settings s delivery) :
    (env.deliver settings s delivery).Named := by
  have hseen := seen_exec_watching_iff env.run (· = .commit) (handleEntry settings delivery.1)
    (s.at delivery.2) false
  have hkeeps : KeepsNamed env (handleEntry settings delivery.1) :=
    keepsNamed_handleEntry delivery.1
  have hnamed := Triple.final hkeeps (s := (s.at delivery.2, false)) (.inr h)
  rw [Watched, hseen, exec_watching] at hnamed
  rcases hnamed with (hfalse | hraised) | hnamed
  · cases hfalse
  · exact absurd hraised hcommitted
  · exact hnamed

/-- **What a flush leaves behind.**  A flush is all or nothing exactly if neither its
`COMMIT` nor the deletion of the list raises.  Throughout a run in which no `COMMIT` raises,
every published event names a committed interaction. -/
theorem allOrNothing_and_named (env : Env) (settings : Settings) :
    (∀ chat traceId s,
      AllOrNothing env chat s (exec env.run (flushWindow settings chat traceId) s).2 ↔
        ¬ (flushWindow settings chat traceId).Raised env.run (EndsFlush chat) s) ∧
    ∀ deliveries s, s.Named →
      Runs.Meets (env.deliver settings) (fun s d => ¬ env.CommitRaises settings s d) s deliveries →
      ∀ handled, handled <+: deliveries → (handled.foldl (env.deliver settings) s).Named := by
  refine ⟨fun chat traceId s => allOrNothing_iff env settings chat traceId s,
    fun deliveries s hs hmeets => ?_⟩
  exact hmeets.forall_prefix (fun s' d hs' hd => hs'.deliver hd) hs

end Runs

/-! ## One message -/

/-- An engine with one answer, and calls that raise where `faults` says so. -/
def envWith (faults : ℕ → Cmd → Bool) : Env where
  summarize _ _ := ⟨["plan"], .neutral, "a plan"⟩
  faults

/-- A message in chat 7. -/
def planMessage (eventId : Ident) : TelegramMessageEvent where
  eventId
  occurredAt := 0
  tgChatId := 7
  tgMessageId := eventId
  tgSenderId := some 1
  text := some "the plan"

/-- Two messages, a second apart. -/
def planDeliveries : List (StreamEntry × Timestamp) :=
  [(⟨1, .message (planMessage 1)⟩, 0), (⟨2, .message (planMessage 2)⟩, seconds 1)]

/-- The list of chat 7 has one message. -/
def plannedWorld : World where
  window chat := if chat = 7 then [windowMessage (planMessage 1)] else []

/-- The engine fails on the first window, and the second message is filed with the first. -/
theorem allOrNothing_and_named_engineFails :
    AllOrNothing (envWith fun n _ => n = 1) 7 plannedWorld
      (exec (envWith fun n _ => n = 1).run (flushWindow {} 7 none) plannedWorld).2 ∧
    ∀ handled, handled <+: planDeliveries → (handled.foldl ((envWith fun n _ => n = 7).deliver
      { summarizerWindowSize := 1, s3Configured := true }) {}).Named :=
  ⟨((allOrNothing_and_named (envWith fun n _ => n = 1) {}).1 7 none plannedWorld).mpr
      (by decide),
    (allOrNothing_and_named (envWith fun n _ => n = 7)
      { summarizerWindowSize := 1, s3Configured := true }).2 planDeliveries {}
      (by decide) (by decide)⟩

/-- `COMMIT` raises: the event is out, there is no interaction, and the list is still there.
A run that begins with the message ends so. -/
theorem not_allOrNothing_commitFails :
    ¬ AllOrNothing (envWith fun _ c => c = .commit) 7 plannedWorld
      (exec (envWith fun _ c => c = .commit).run (flushWindow {} 7 none) plannedWorld).2 ∧
    ¬ ((envWith fun _ c => c = .commit).deliver { summarizerWindowSize := 1 } {}
      (⟨1, .message (planMessage 1)⟩, 0)).Named :=
  ⟨Torn.not_allOrNothing ⟨by decide, by decide⟩, by decide⟩

end Summarizer
end PersonalIntelligence
