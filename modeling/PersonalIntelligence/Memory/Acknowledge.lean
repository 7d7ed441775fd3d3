import PersonalIntelligence.Library.Runs
import PersonalIntelligence.Memory.ProjectorRuns

/-!
# What an acknowledged command has left behind

An entry may be acknowledged when its command is done with: either all of its effect is
durable, or none is and somebody can find the entry among the dead letters.  `run`
acknowledges whatever happened, and there is no dead-letter stream, so an acknowledged
command is settled exactly if its delivery met no failure (`settled_iff`).  A failure of
the transaction loses the command.  A failure after it is worse: the mark is committed,
and no redelivery will publish what is missing.
-/

namespace PersonalIntelligence
namespace Memory

open PyText Resumption

/-! ## Settled commands -/

/-- The whole effect of a command.  Its mark is one of the rows of its transaction. -/
structure Durable (s : World) (command : ProjectionCommand) : Prop where
  committed : s.db.isProcessed consumerName command.commandId = true
  requested : ∃ job ∈ s.embeddingRequested, job.origin = command.commandId
  updated : ∃ event ∈ s.interactionUpdated, event.origin = command.commandId

/-- The command is done with. -/
def Settled (s : World) (entry : StreamEntry) : Prop :=
  Durable s entry.command ∨
    (s.db.isProcessed consumerName entry.command.commandId = false ∧ entry ∈ s.deadLetters)

/-- Every acknowledged command is done with. -/
def AckedSettled (s : World) : Prop := ∀ entry ∈ s.acked, Settled s entry

section Failures

variable [CharData] (env : Env) (settings : Settings)

/-- The handler meets no failure: the command has messages, the configured provider is
one that a job can name, and no call but those of the graph raises. -/
structure Unfailing (s : World) (command : ProjectionCommand) : Prop where
  messages : command.messages ≠ []
  provider : parseProvider settings.embeddingProvider ≠ none
  calls : ¬ (handleProjection settings command).Raised env.run Cmd.unguarded s

/-- No delivery of a command that is not marked yet meets a failure. -/
def UnfailingRun : World → List (StreamEntry × Timestamp) → Prop
  | _, [] => True
  | s, delivery :: rest =>
    (s.db.isProcessed consumerName delivery.1.command.commandId = false →
      Unfailing env settings (s.at delivery.2) delivery.1.command) ∧
    UnfailingRun (env.deliver settings s delivery) rest

end Failures

/-! ## One command -/

/-- The stores after a command that met no failure. -/
structure Projection (command : ProjectionCommand) (s s' : World) : Prop where
  closed : s'.tx = none
  processed : ∀ id, s'.db.isProcessed consumerName id = true ↔
    id = command.commandId ∨ s.db.isProcessed consumerName id = true
  requested : ∃ job, s'.embeddingRequested = s.embeddingRequested ++ [⟨command.commandId, job⟩]
  updated : ∃ event, s'.interactionUpdated = s.interactionUpdated ++ [⟨command.commandId, event⟩]
  deadLetters : s'.deadLetters = s.deadLetters
  acked : s'.acked = s.acked

/-- The stores after the two publications. -/
structure Published (command : ProjectionCommand) (s s' : World) : Prop where
  closed : s'.tx = none
  db : s'.db = s.db
  requested : ∃ job, s'.embeddingRequested = s.embeddingRequested ++ [⟨command.commandId, job⟩]
  updated : ∃ event, s'.interactionUpdated = s.interactionUpdated ++ [⟨command.commandId, event⟩]
  deadLetters : s'.deadLetters = s.deadLetters
  acked : s'.acked = s.acked

/-- The stores after a command that met a failure: what is left out is the commit or the
second publication. -/
structure CutShort (s s' : World) : Prop where
  closed : s'.tx = none
  unfinished : s'.db = s.db ∨ s'.interactionUpdated = s.interactionUpdated
  deadLetters : s'.deadLetters = s.deadLetters

theorem Committed.projection {command : ProjectionCommand} {s s₁ s₂ s₃ : World}
    (hcommitted : Committed command s s₁) (hsame : SameDb s₁ s₂)
    (hpublished : Published command s₂ s₃) : Projection command s s₃ where
  closed := hpublished.closed
  processed id := by
    rw [hpublished.db, hsame.db]
    exact hcommitted.processed id
  requested := by
    rw [← hcommitted.embeddingRequested, ← hsame.embeddingRequested]
    exact hpublished.requested
  updated := by
    rw [← hcommitted.interactionUpdated, ← hsame.interactionUpdated]
    exact hpublished.updated
  deadLetters := hpublished.deadLetters.trans (hsame.deadLetters.trans hcommitted.deadLetters)
  acked := hpublished.acked.trans (hsame.acked.trans hcommitted.acked)

theorem Committed.cutShort {command : ProjectionCommand} {s s₁ s₂ s₃ : World}
    (hcommitted : Committed command s s₁) (hsame : SameDb s₁ s₂) (hclosed : s₃.tx = none)
    (hevents : s₃.interactionUpdated = s₂.interactionUpdated)
    (hdead : s₃.deadLetters = s₂.deadLetters) : CutShort s s₃ where
  closed := hclosed
  unfinished := .inr (hevents.trans (hsame.interactionUpdated.trans hcommitted.interactionUpdated))
  deadLetters := hdead.trans (hsame.deadLetters.trans hcommitted.deadLetters)

theorem Projection.of_tick {command : ProjectionCommand} {s s' : World}
    (h : Projection command s.tick s') : Projection command s s' := ⟨h.1, h.2, h.3, h.4, h.5, h.6⟩

theorem CutShort.of_tick {s s' : World} (h : CutShort s.tick s') : CutShort s s' :=
  ⟨h.1, h.2, h.3⟩

section Command

variable (env : Env) (settings : Settings) {command : ProjectionCommand} {s : World}

/-- The graph is projected or the failure is logged. -/
theorem exec_projectNeo4j (hs : s.tx = none) (participantMap : ParticipantMap) :
    ∃ s', exec env.run (projectNeo4j settings command participantMap) s = (.ok (), s') ∧
      SameDb s s' ∧
      ¬ (projectNeo4j settings command participantMap).Raised env.run Cmd.unguarded s := by
  unfold projectNeo4j
  split_ifs
  · rw [exec_tryCatch, await, exec_perform, raised_tryCatch, raised_perform, exec_perform]
    have hquiet : ¬ ∃ e s', env.run (.executeWrite (graphStatements command participantMap)) s =
        (.error e, s') ∧ (pure () : Projecting Unit).Raised env.run Cmd.unguarded s' := by
      rintro ⟨e, s', -, hpure⟩
      exact raised_ret hpure
    rcases env.run_cases (.executeWrite (graphStatements command participantMap)) s with
      hrun | ⟨-, hrun⟩
    · rw [hrun] at hquiet ⊢
      exact ⟨_, rfl, ⟨⟨hs, rfl, rfl, rfl, rfl⟩, rfl⟩, fun h => h.elim And.left hquiet⟩
    · rw [hrun] at hquiet ⊢
      exact ⟨_, rfl, ⟨⟨hs, rfl, rfl, rfl, rfl⟩, rfl⟩, fun h => h.elim And.left hquiet⟩
  · exact ⟨s, rfl, ⟨⟨hs, rfl, rfl, rfl, rfl⟩, rfl⟩, raised_ret⟩

/-- The two publications, or a failure before the second. -/
theorem exec_publish_cases (hs : s.tx = none) (hne : command.messages ≠ [])
    (projected : Projected) :
    (∃ s', exec env.run (publish settings command projected) s = (.ok (), s') ∧
        Published command s s' ∧ parseProvider settings.embeddingProvider ≠ none ∧
        ¬ (publish settings command projected).Raised env.run Cmd.unguarded s) ∨
    (∃ e s', exec env.run (publish settings command projected) s = (.error e, s') ∧
        s'.tx = none ∧ s'.interactionUpdated = s.interactionUpdated ∧ s'.deadLetters = s.deadLetters ∧
        (parseProvider settings.embeddingProvider ≠ none →
          (publish settings command projected).Raised env.run Cmd.unguarded s)) := by
  obtain ⟨event, hevent, -⟩ := buildInteractionEvent_eq hne projected
  unfold publish
  rw [hevent]
  rcases buildEmbeddingJob_cases settings projected with ⟨hnone, hthrow⟩ | ⟨job, hsome, hjob, -⟩
  · rw [hthrow]
    exact .inr ⟨_, s, rfl, hs, rfl, rfl, fun h => absurd hnone h⟩
  · rw [hjob, pure_bind, pure_bind, await, await, exec_perform_bind]
    rcases env.run_cases (.xaddEmbedding ⟨command.commandId, job⟩) s with hadded | ⟨-, hadded⟩
    · rw [raised_perform_bind_of_ok hadded, hadded, andThen_ok, exec_perform]
      rcases env.run_cases (.xaddInteraction ⟨command.commandId, event⟩) _ with hadd | ⟨-, hadd⟩
      · rw [hadd]
        exact .inl ⟨_, rfl, ⟨hs, rfl, ⟨_, rfl⟩, ⟨_, rfl⟩, rfl, rfl⟩, hsome,
          raised_perform_of_ok hadd⟩
      · rw [hadd]
        exact .inr ⟨_, _, rfl, hs, rfl, rfl, fun _ => raised_perform_of_error trivial hadd⟩
    · rw [hadded]
      exact .inr ⟨_, _, rfl, hs, rfl, rfl, fun _ => raised_perform_bind_of_error trivial hadded⟩

variable [CharData]

/-- **A command that is not marked yet** is projected in full if it meets no failure, and
is cut short otherwise. -/
theorem exec_handleProjection_cases (hs : s.tx = none)
    (hnew : s.db.isProcessed consumerName command.commandId = false) :
    (Unfailing env settings s command ∧
      ∃ s', exec env.run (handleProjection settings command) s = (.ok (), s') ∧
        Projection command s s') ∨
    (¬ Unfailing env settings s command ∧
      ∃ e s', exec env.run (handleProjection settings command) s = (.error e, s') ∧
        CutShort s s') := by
  have hiff : Unfailing env settings s command ↔ command.messages ≠ [] ∧
      parseProvider settings.embeddingProvider ≠ none ∧
      ¬ (handleProjection settings command).Raised env.run Cmd.unguarded s :=
    ⟨fun h => ⟨h.messages, h.provider, h.calls⟩, fun h => ⟨h.1, h.2.1, h.2.2⟩⟩
  rw [hiff]
  unfold handleProjection
  rw [await, exec_perform_bind]
  rcases env.run_cases (.selectProcessed command.commandId) s with hrun | ⟨-, hrun⟩
  · have hselect : (s.effect (.selectProcessed command.commandId)).1 = false := by
      rw [World.effect, World.tables, hs]
      exact hnew
    have hstart : (s.effect (.selectProcessed command.commandId)).2.tick.tx = none := hs
    rw [hselect] at hrun
    rw [raised_perform_bind_of_ok hrun, hrun, andThen_ok, if_neg Bool.false_ne_true, exec_bind]
    rcases exec_transaction_cases env settings command hstart with
      ⟨projected, s₂, htx, hprojected, hcommitted, hquiet⟩ | ⟨e, s₂, htx, hrolled, hraise⟩
    · obtain ⟨s₃, hneo, hsame, hlogged⟩ :=
        exec_projectNeo4j env settings hcommitted.closed projected.participantMap
      rw [raised_bind_of_ok htx, raised_bind_of_ok hneo, htx, andThen_ok, exec_bind, hneo,
        andThen_ok]
      rcases exec_publish_cases env settings hsame.closed hprojected.nonempty projected with
        ⟨s₄, hpublish, hpublished, hprovider, hcalm⟩ |
        ⟨e, s₄, hpublish, hclosed, hevents, hdead, hraise⟩
      · refine .inl ⟨⟨hprojected.nonempty, hprovider, ?_⟩, s₄, hpublish,
          (hcommitted.projection hsame hpublished).of_tick⟩
        exact not_or.mpr ⟨hquiet, not_or.mpr ⟨hlogged, hcalm⟩⟩
      · refine .inr ⟨fun h => h.2.2 (.inr (.inr (hraise h.2.1))), e, s₄, hpublish, ?_⟩
        exact (hcommitted.cutShort hsame hclosed hevents hdead).of_tick
    · rw [raised_bind_of_error htx, htx]
      exact .inr ⟨fun h => h.2.2 (hraise h.1), e, s₂, rfl, hrolled.closed, .inl hrolled.db,
        hrolled.deadLetters⟩
  · rw [hrun]
    exact .inr ⟨fun h => h.2.2 (raised_perform_bind_of_error trivial hrun), _, _, rfl, hs, .inl rfl,
      rfl⟩

/-- A command that is marked is passed over. -/
theorem exec_handleProjection_of_marked (hs : s.tx = none)
    (hmarked : s.db.isProcessed consumerName command.commandId = true) :
    (exec env.run (handleProjection settings command) s).2 = s.tick := by
  unfold handleProjection
  rw [await, exec_perform_bind]
  rcases env.run_cases (.selectProcessed command.commandId) s with hrun | ⟨-, hrun⟩
  · have hselect : (s.effect (.selectProcessed command.commandId)).1 = true := by
      rw [World.effect, World.tables, hs]
      exact hmarked
    rw [hrun, andThen_ok, hselect, if_pos rfl]
    rfl
  · rw [hrun]
    rfl

end Command

/-! ## Runs -/

/-- Nothing is marked without being published, published without being marked, or
acknowledged without being marked. -/
structure Accounted (s : World) : Prop where
  closed : s.tx = none
  requested : ∀ id, s.db.isProcessed consumerName id = true →
    ∃ job ∈ s.embeddingRequested, job.origin = id
  updated : ∀ id, s.db.isProcessed consumerName id = true →
    ∃ event ∈ s.interactionUpdated, event.origin = id
  marked : ∀ event ∈ s.interactionUpdated, s.db.isProcessed consumerName event.origin = true
  acked : ∀ entry ∈ s.acked, s.db.isProcessed consumerName entry.command.commandId = true
  deadLetters : s.deadLetters = []

/-- The entry has been acknowledged. -/
def World.acknowledge (s : World) (entry : StreamEntry) : World :=
  { s with acked := s.acked ++ [entry], calls := s.calls + 1 }

theorem World.mem_acked_acknowledge (s : World) (entry : StreamEntry) :
    entry ∈ (s.acknowledge entry).acked :=
  List.mem_append_right _ (List.mem_singleton_self entry)

namespace Accounted

variable {s s' : World} {entry : StreamEntry}

theorem start : Accounted {} where
  closed := rfl
  requested _ h := by cases h
  updated _ h := by cases h
  marked _ h := by cases h
  acked _ h := by cases h
  deadLetters := rfl

theorem «at» (h : Accounted s) (now : Timestamp) : Accounted (s.at now) :=
  ⟨h.1, h.2, h.3, h.4, h.5, h.6⟩

theorem ackedSettled (h : Accounted s) : AckedSettled s := fun entry hentry =>
  have hmarked := h.acked entry hentry
  .inl ⟨hmarked, h.requested _ hmarked, h.updated _ hmarked⟩

/-- Acknowledging a marked command. -/
theorem acknowledge (h : Accounted s)
    (hmarked : s.db.isProcessed consumerName entry.command.commandId = true) :
    Accounted (s.acknowledge entry) where
  closed := h.closed
  requested := h.requested
  updated := h.updated
  marked := h.marked
  acked e he := by
    rcases List.mem_append.mp he with hold | hnew
    · exact h.acked e hold
    · rw [List.mem_singleton.mp hnew]
      exact hmarked
  deadLetters := h.deadLetters

theorem projection {command : ProjectionCommand} (h : Accounted s)
    (hp : Projection command s s') : Accounted s' where
  closed := hp.closed
  requested id hid := by
    obtain ⟨job, hjob⟩ := hp.requested
    rw [hjob]
    rcases (hp.processed id).mp hid with rfl | hold
    · exact ⟨_, List.mem_append_right _ (List.mem_singleton_self _), rfl⟩
    · obtain ⟨old, hmem, horigin⟩ := h.requested id hold
      exact ⟨old, List.mem_append_left _ hmem, horigin⟩
  updated id hid := by
    obtain ⟨event, hevent⟩ := hp.updated
    rw [hevent]
    rcases (hp.processed id).mp hid with rfl | hold
    · exact ⟨_, List.mem_append_right _ (List.mem_singleton_self _), rfl⟩
    · obtain ⟨old, hmem, horigin⟩ := h.updated id hold
      exact ⟨old, List.mem_append_left _ hmem, horigin⟩
  marked event hmem := by
    obtain ⟨new, hnew⟩ := hp.updated
    rw [hnew] at hmem
    rcases List.mem_append.mp hmem with hold | hlast
    · exact (hp.processed _).mpr (.inr (h.marked event hold))
    · rw [List.mem_singleton.mp hlast]
      exact (hp.processed _).mpr (.inl rfl)
  acked e he := by
    rw [hp.acked] at he
    exact (hp.processed _).mpr (.inr (h.acked e he))
  deadLetters := hp.deadLetters.trans h.deadLetters

/-- A command that was cut short is not settled. -/
theorem not_settled (h : Accounted s)
    (hnew : s.db.isProcessed consumerName entry.command.commandId = false) (hcut : CutShort s s') :
    ¬ Settled (s'.acknowledge entry) entry := by
  rintro (hdurable | ⟨-, hdead⟩)
  · rcases hcut.unfinished with hdb | hevents
    · have hcommitted : s'.db.isProcessed consumerName entry.command.commandId = true :=
        hdurable.committed
      rw [hdb, hnew] at hcommitted
      cases hcommitted
    · obtain ⟨event, hmem, horigin⟩ : ∃ event ∈ s'.interactionUpdated,
          event.origin = entry.command.commandId := hdurable.updated
      rw [hevents] at hmem
      have hmarked := h.marked event hmem
      rw [horigin, hnew] at hmarked
      cases hmarked
  · have hnone : s'.deadLetters = [] := hcut.deadLetters.trans h.deadLetters
    change entry ∈ s'.deadLetters at hdead
    rw [hnone] at hdead
    cases hdead

end Accounted

section Deliveries

variable [CharData] (env : Env) (settings : Settings) {s : World}

theorem Env.deliver_eq (s : World) (entry : StreamEntry) (now : Timestamp) :
    env.deliver settings s (entry, now) =
      (exec env.run (handleProjection settings entry.command) (s.at now)).2.acknowledge entry := by
  unfold Env.deliver handleEntry
  rw [exec_bind, exec_tryCatch, await]
  rcases exec env.run (handleProjection settings entry.command) (s.at now) with ⟨e | ⟨⟩, s'⟩
  · dsimp only
    rw [Prog.pure_eq, exec_ret, andThen_ok, exec_perform, env.run_of_infallible rfl]
    rfl
  · rw [andThen_ok, exec_perform, env.run_of_infallible rfl]
    rfl

/-- A delivery leaves no transaction open. -/
theorem Env.deliver_closed (hs : s.tx = none) (delivery : StreamEntry × Timestamp) :
    (env.deliver settings s delivery).tx = none := by
  obtain ⟨entry, now⟩ := delivery
  have hat : (s.at now).tx = none := hs
  rw [env.deliver_eq]
  cases hprocessed : (s.at now).db.isProcessed consumerName entry.command.commandId with
  | true =>
    rw [exec_handleProjection_of_marked env settings hat hprocessed]
    exact hs
  | false =>
    rcases exec_handleProjection_cases env settings hat hprocessed with
      ⟨-, s', hexec, hp⟩ | ⟨-, e, s', hexec, hcut⟩
    · rw [hexec]
      exact hp.closed
    · rw [hexec]
      exact hcut.closed

theorem Env.deliverAll_closed (hs : s.tx = none) (deliveries : List (StreamEntry × Timestamp)) :
    (env.deliverAll settings s deliveries).tx = none := by
  induction deliveries generalizing s with
  | nil => exact hs
  | cons delivery rest ih => exact ih (env.deliver_closed settings hs delivery)

/-- A delivery without failures keeps the books. -/
theorem Accounted.deliver (h : Accounted s) {delivery : StreamEntry × Timestamp}
    (hd : s.db.isProcessed consumerName delivery.1.command.commandId = false →
      Unfailing env settings (s.at delivery.2) delivery.1.command) :
    Accounted (env.deliver settings s delivery) := by
  obtain ⟨entry, now⟩ := delivery
  rw [env.deliver_eq]
  have hat := h.at now
  cases hprocessed : s.db.isProcessed consumerName entry.command.commandId with
  | true =>
    rw [exec_handleProjection_of_marked env settings hat.closed hprocessed]
    exact acknowledge (s := (s.at now).tick) ⟨hat.1, hat.2, hat.3, hat.4, hat.5, hat.6⟩ hprocessed
  | false =>
    rcases exec_handleProjection_cases env settings hat.closed hprocessed with
      ⟨-, s', hexec, hp⟩ | ⟨hfail, -⟩
    · rw [hexec]
      exact (hat.projection hp).acknowledge ((hp.processed _).mpr (.inl rfl))
    · exact absurd (hd hprocessed) hfail

/-- A delivery that settles its command met no failure. -/
theorem Accounted.unfailing (h : Accounted s) {delivery : StreamEntry × Timestamp}
    (hsettled : AckedSettled (env.deliver settings s delivery))
    (hnew : s.db.isProcessed consumerName delivery.1.command.commandId = false) :
    Unfailing env settings (s.at delivery.2) delivery.1.command := by
  obtain ⟨entry, now⟩ := delivery
  have hat := h.at now
  rcases exec_handleProjection_cases env settings hat.closed hnew with
    ⟨hok, -⟩ | ⟨-, e, s', hexec, hcut⟩
  · exact hok
  · rw [env.deliver_eq, hexec] at hsettled
    exact absurd (hsettled entry (World.mem_acked_acknowledge _ _)) (hat.not_settled hnew hcut)

/-- **Acknowledged commands are settled**, at every point of a run, exactly if no delivery
of a command that was not marked yet met a failure. -/
theorem Accounted.settled_iff (deliveries : List (StreamEntry × Timestamp)) (h : Accounted s) :
    (∀ handled, handled <+: deliveries → AckedSettled (env.deliverAll settings s handled)) ↔
      UnfailingRun env settings s deliveries :=
  @Runs.forall_prefix_iff World (StreamEntry × Timestamp) (env.deliver settings) Accounted
    AckedSettled (fun s delivery => s.db.isProcessed consumerName delivery.1.command.commandId =
      false → Unfailing env settings (s.at delivery.2) delivery.1.command)
    (UnfailingRun env settings) (fun _ => trivial) (fun _ _ _ => Iff.rfl) (fun _ h => h.ackedSettled)
    (fun _ _ h hd => h.deliver env settings hd) (fun _ _ h => h.unfailing env settings) deliveries s h

/-- **What an acknowledgement is worth**, for the runs of the projector. -/
theorem ackedSettled_iff_unfailingRun (deliveries : List (StreamEntry × Timestamp)) :
    (∀ handled, handled <+: deliveries → AckedSettled (env.deliverAll settings {} handled)) ↔
      UnfailingRun env settings {} deliveries :=
  Accounted.start.settled_iff env settings deliveries

end Deliveries

/-- One greeting in chat 7, from user 11. -/
def greeting : StreamEntry where
  id := 1
  command :=
    { commandId := 101
      sourceWindowId := 201
      sourceEventId := 301
      tgChatId := 7
      messages := [{ tgMessageId := 1, tgSenderId := some 11, text := "привет", occurredAt := 60 }]
      features := {}
      result := { sourceWindowId := 201, summary := "приветствие" } }

/-- The stream of embedding jobs takes nothing. -/
def withoutEmbeddings : Env where
  faults _ c := match c with
    | .xaddEmbedding _ => true
    | _ => false

/-- The command is committed and acknowledged, and will never be embedded. -/
theorem not_ackedSettled_greeting :
    ¬ AckedSettled (@Env.deliverAll withoutEmbeddings basicCharData {} {} [(greeting, 61)]) := by
  intro h
  have hacked : greeting ∈
      (@Env.deliverAll withoutEmbeddings basicCharData {} {} [(greeting, 61)]).acked := by
    decide +kernel
  rcases h greeting hacked with hdurable | ⟨-, hdead⟩
  · obtain ⟨job, hjob, -⟩ := hdurable.requested
    have hnone : (@Env.deliverAll withoutEmbeddings basicCharData {} {}
        [(greeting, 61)]).embeddingRequested = [] := by decide
    rw [hnone] at hjob
    cases hjob
  · have hnone : (@Env.deliverAll withoutEmbeddings basicCharData {} {}
        [(greeting, 61)]).deadLetters = [] := by decide
    rw [hnone] at hdead
    cases hdead

end Memory
end PersonalIntelligence
