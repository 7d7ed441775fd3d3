import PersonalIntelligence.Summarizer.FlushRuns

/-!
# What an edit does to a window

`_handle_edited_message` marks the event, reads the list, deletes it, and pushes all of it
again with the new text.  When no call raises that is an update in place (`Edited`).  The
list is gone, though, between `DEL` and `RPUSH`, and the event is marked before the list is
even read: if `RPUSH` raises, the window is lost, and if `LRANGE` or `DEL` raises, the edit
is, since a second delivery will be skipped.  An edit that changes nothing survives every
failure but that of `RPUSH`.
-/

namespace PersonalIntelligence
namespace Summarizer

open PyText Resumption

/-! ## An update in place -/

/-- The list is as long as before and in the same order; the entries of the message have the
new text, and the others are as they were. -/
def Edited (tgMessageId : ℤ) (text : String) (before after : List WindowMessage) : Prop :=
  List.Forall₂ (fun message message' =>
    (message.tgMessageId = tgMessageId → message' = { message with text }) ∧
      (message.tgMessageId ≠ tgMessageId → message' = message)) before after

/-- There is one way to edit a list. -/
theorem edited_iff {tgMessageId : ℤ} {text : String} {before after : List WindowMessage} :
    Edited tgMessageId text before after ↔ after = editMessages tgMessageId text before := by
  have hentry (message message' : WindowMessage) :
      ((message.tgMessageId = tgMessageId → message' = { message with text }) ∧
        (message.tgMessageId ≠ tgMessageId → message' = message)) ↔
      message' = if message.tgMessageId = tgMessageId then { message with text } else message := by
    split_ifs with hid
    · simp [hid]
    · simp [hid]
  unfold Edited editMessages
  simp only [hentry]
  rw [eq_comm, ← List.forall₂_eq_eq_eq, List.forall₂_map_left_iff]
  simp only [eq_comm]

/-- An edit of a message that the list does not have. -/
theorem editMessages_of_not_mem {tgMessageId : ℤ} {text : String} {messages : List WindowMessage}
    (h : tgMessageId ∉ messages.map (·.tgMessageId)) :
    editMessages tgMessageId text messages = messages := by
  rw [List.mem_map, not_exists] at h
  calc editMessages tgMessageId text messages
      = messages.map id := List.map_congr_left fun message hmessage =>
        if_neg fun hid => h message ⟨hmessage, hid⟩
    _ = messages := List.map_id messages

/-! ## Single calls -/

section Calls

variable (env : Env)

/-- A call in front of a program has its effect and the program goes on, or it raises and
nothing follows. -/
theorem Env.await_bind_cases {β : Type} (c : Cmd) (f : Ans c → Summarizing β) (s : World) :
    (exec env.run (await c >>= f) s =
        exec env.run (f (env.effect c s).1) (env.effect c s).2.tick ∧
      ∀ bad, (await c >>= f).Raised env.run bad s ↔
        (f (env.effect c s).1).Raised env.run bad (env.effect c s).2.tick) ∨
    (exec env.run (await c >>= f) s = (.error .callFailed, s.tick) ∧
      ∀ bad, (await c >>= f).Raised env.run bad s ↔ bad c) := by
  rcases env.run_cases c s with hrun | ⟨-, hrun⟩
  · refine .inl ⟨?_, fun bad => raised_perform_bind_of_ok hrun⟩
    rw [exec_perform_bind, hrun, andThen_ok]
  · refine .inr ⟨?_, fun bad => ?_⟩
    · rw [exec_perform_bind, hrun, andThen_error]
    · rw [raised_bind_of_error ((exec_perform env.run c s).trans hrun), raised_perform, hrun]
      exact and_iff_left ⟨_, rfl⟩

theorem Env.await_cases (c : Cmd) (s : World) :
    (exec env.run (await c) s = (.ok (env.effect c s).1, (env.effect c s).2.tick) ∧
      ∀ bad, ¬ (await c).Raised env.run bad s) ∨
    (exec env.run (await c) s = (.error .callFailed, s.tick) ∧
      ∀ bad, (await c).Raised env.run bad s ↔ bad c) := by
  rcases env.run_cases c s with hrun | ⟨-, hrun⟩
  · exact .inl ⟨(exec_perform env.run c s).trans hrun, fun bad => raised_perform_of_ok hrun⟩
  · refine .inr ⟨(exec_perform env.run c s).trans hrun, fun bad => ?_⟩
    rw [raised_perform, hrun]
    exact and_iff_left ⟨_, rfl⟩

variable (s : World) (chat : ℤ)

/-- A list is there until its deadline has passed. -/
theorem Env.live_setWindow (messages : List WindowMessage) {deadline : Option Timestamp}
    (hdeadline : ∀ time ∈ deadline, s.now ≤ time) :
    env.live (s.setWindow chat messages deadline) chat = messages := by
  cases deadline with
  | none => simp [Env.live, World.setWindow]
  | some time => simp [Env.live, World.setWindow, not_lt.mpr (hdeadline time rfl)]

theorem Env.live_delete : env.live (env.effect (.delete chat) s).2 chat = [] :=
  env.live_setWindow s chat [] fun _ htime => by cases htime

/-- A push to a list that is not there makes it, without a deadline. -/
theorem Env.live_rpush {s : World} {chat : ℤ} (h : env.live s chat = [])
    (entries : List WindowMessage) :
    env.live (env.effect (.rpush chat entries) s).2 chat = entries := by
  dsimp only [Env.effect]
  rw [h, if_pos rfl, List.nil_append]
  exact env.live_setWindow s chat entries fun _ htime => by cases htime

theorem Env.live_setTables (db : Db) : env.live (s.setTables db) chat = env.live s chat := by
  unfold World.setTables
  cases s.tx with
  | none => rfl
  | some _ => rfl

/-- A marked event is processed. -/
theorem marked_effect (eventId : Ident) :
    (env.effect (.insertProcessed eventId) s).2.tick.tables.isProcessed eventId = true := by
  have htables (db : Db) : (s.setTables db).tick.tables = db := by
    unfold World.setTables
    cases s.tx with
    | none => simp [World.tables, World.tick]
    | some _ => rfl
  show (s.setTables _).tick.tables.isProcessed eventId = true
  rw [htables]
  unfold Db.insertProcessed Db.isProcessed
  rw [List.any_eq_true]
  dsimp only
  split_ifs with hmem
  · exact ⟨_, hmem, by simp⟩
  · exact ⟨_, List.mem_append_right _ (List.mem_singleton_self _), by simp⟩

theorem windowTtl_pos (settings : Settings) : 0 < windowTtl settings := by
  unfold windowTtl seconds
  omega

/-- A new deadline leaves the list as it is. -/
theorem Env.live_expire (settings : Settings) :
    env.live (env.effect (.expire chat (windowTtl settings)) s).2 chat = env.live s chat := by
  by_cases hnil : env.live s chat = []
  · simp [Env.effect, hnil]
  · have hlive : env.live s chat = s.window chat := by
      unfold Env.live at hnil ⊢
      split_ifs with hexpired
      · simp [hexpired] at hnil
      · rfl
    dsimp only [Env.effect]
    rw [if_neg hnil, hlive]
    refine env.live_setWindow s chat _ fun time htime => ?_
    cases htime
    exact le_add_of_nonneg_right (windowTtl_pos settings).le

end Calls

/-! ## An edit -/

/-- The calls of Redis. -/
def Cmd.Redis : Cmd → Prop
  | .lindexLast _ | .lrange _ | .rpush _ _ | .llen _ | .expire _ _ | .delete _
  | .xaddInteraction _ | .xaddDeadLetter _ | .xack _ => True
  | _ => False

instance : DecidablePred Cmd.Redis := fun c => by
  cases c <;> unfold Cmd.Redis <;> infer_instance

def Cmd.Push : Cmd → Prop
  | .rpush _ _ => True
  | _ => False

instance : DecidablePred Cmd.Push := fun c => by
  cases c <;> unfold Cmd.Push <;> infer_instance

section Edits

variable (env : Env) (event : TelegramMessageEditedEvent)

/-- The text that the copies of the message get. -/
def newText : String := strip (event.newText.getD "")

/-- The edit has been made between the two states. -/
def Applied (s s' : World) : Prop :=
  Edited event.tgMessageId (newText event) (env.live s event.tgChatId)
    (env.live s' event.tgChatId)

/-- What is left of the window by an edit that ends in `outcome`, where `failed` says that a
call of Redis has raised. -/
structure Undamaged (s : World) (outcome : Except Exc Unit × World) (failed : Prop) : Prop where
  /-- The edit is made, unless the event has been handled before. -/
  done : outcome.1 = .ok () →
    if s.tables.isProcessed event.eventId = true then
      env.live outcome.2 event.tgChatId = env.live s event.tgChatId
    else Applied env event s outcome.2
  kept : failed → env.live outcome.2 event.tgChatId = env.live s event.tgChatId
  notLost : failed → outcome.2.tables.isProcessed event.eventId = true →
    Applied env event s outcome.2

variable {env event} {settings : Settings} {s t : World}

theorem applied_iff : Applied env event s t ↔
    env.live t event.tgChatId =
      editMessages event.tgMessageId (newText event) (env.live s event.tgChatId) := edited_iff

/-- After the event has been marked, a failure is harmless only where the list is as before
and the edit is made. -/
theorem undamaged_of_raised_iff (hmarked : t.tables.isProcessed event.eventId = true) :
    Undamaged env event s (.error .callFailed, t) True ↔
      env.live t event.tgChatId = env.live s event.tgChatId ∧ Applied env event s t where
  mp h := ⟨h.kept trivial, h.notLost trivial hmarked⟩
  mpr h := ⟨(nomatch ·), fun _ => h.1, fun _ _ => h.2⟩

theorem undamaged_of_applied (hfresh : s.tables.isProcessed event.eventId = false)
    (happlied : Applied env event s t) {failed : Prop} (hfailed : ¬ failed) :
    Undamaged env event s (.ok (), t) failed where
  done _ := by rwa [hfresh, if_neg Bool.false_ne_true]
  kept h := absurd h hfailed
  notLost h := absurd h hfailed

/-- A failure before anything has been written loses the edit, if it is one. -/
theorem undamaged_of_unwritten_iff (hmarked : t.tables.isProcessed event.eventId = true)
    (hlive : env.live t event.tgChatId = env.live s event.tgChatId) :
    Undamaged env event s (.error .callFailed, t) True ↔
      ¬ True ∨ (Applied env event s s ∧ ¬ False) := by
  rw [undamaged_of_raised_iff hmarked, applied_iff, applied_iff, hlive]
  simp

variable (env event settings s) in
/-- The list is deleted and pushed again with the new text. -/
def pushAgain : Summarizing Unit := do
  await (.delete event.tgChatId)
  await (.rpush event.tgChatId
    (editMessages event.tgMessageId (newText event) (env.live s event.tgChatId)))
  await (.expire event.tgChatId (windowTtl settings))

theorem pushAgain_undamaged_iff (hfresh : s.tables.isProcessed event.eventId = false)
    (hmarked : t.tables.isProcessed event.eventId = true)
    (hlive : env.live t event.tgChatId = env.live s event.tgChatId)
    (hnonempty : env.live s event.tgChatId ≠ []) :
    Undamaged env event s (exec env.run (pushAgain env event settings s) t)
        ((pushAgain env event settings s).Raised env.run Cmd.Redis t) ↔
      ¬ (pushAgain env event settings s).Raised env.run Cmd.Redis t ∨
        (Applied env event s s ∧ ¬ (pushAgain env event settings s).Raised env.run Cmd.Push t) := by
  unfold pushAgain
  rcases env.await_bind_cases (.delete event.tgChatId) _ t with ⟨hexec, hraised⟩ | ⟨hexec, hraised⟩
  swap
  · -- `DEL` raises
    rw [hexec, hraised, hraised]
    exact undamaged_of_unwritten_iff hmarked hlive
  rw [hexec, hraised, hraised]
  clear hexec hraised
  set t₁ := (env.effect (.delete event.tgChatId) t).2.tick with ht₁
  have hdeleted : env.live t₁ event.tgChatId = [] := env.live_delete t event.tgChatId
  have hmarked₁ : t₁.tables.isProcessed event.eventId = true := hmarked
  clear_value t₁
  set edited := editMessages event.tgMessageId (newText event) (env.live s event.tgChatId)
    with hedited
  rcases env.await_bind_cases (.rpush event.tgChatId edited) _ t₁ with
    ⟨hexec, hraised⟩ | ⟨hexec, hraised⟩
  swap
  · -- `RPUSH` raises: the list is gone
    rw [hexec, hraised, hraised]
    refine iff_of_false (fun h => hnonempty ?_) fun h => h.elim (· trivial) fun h => h.2 trivial
    exact (h.kept trivial).symm.trans hdeleted
  rw [hexec, hraised, hraised]
  clear hexec hraised
  set t₂ := (env.effect (.rpush event.tgChatId edited) t₁).2.tick with ht₂
  have hpushed : env.live t₂ event.tgChatId = edited := env.live_rpush hdeleted edited
  have hmarked₂ : t₂.tables.isProcessed event.eventId = true := hmarked₁
  clear_value t₂
  rcases env.await_cases (.expire event.tgChatId (windowTtl settings)) t₂ with
    ⟨hexec, hraised⟩ | ⟨hexec, hraised⟩
  swap
  · -- `EXPIRE` raises: the list is as it should be after the edit
    have happlied : Applied env event s t₂.tick := applied_iff.mpr hpushed
    have hsame : env.live t₂.tick event.tgChatId = edited := hpushed
    rw [hexec, hraised, hraised]
    refine (undamaged_of_raised_iff (t := t₂.tick) hmarked₂).trans ?_
    rw [hsame, applied_iff (t := s), ← hedited]
    refine ⟨fun h => .inr ⟨h.1.symm, id⟩, ?_⟩
    rintro (hnever | ⟨hsafe, -⟩)
    · exact absurd trivial hnever
    · exact ⟨hsafe.symm, happlied⟩
  · have happlied : Applied env event s
        (env.effect (.expire event.tgChatId (windowTtl settings)) t₂).2.tick :=
      applied_iff.mpr ((env.live_expire t₂ event.tgChatId settings).trans hpushed)
    rw [hexec]
    exact iff_of_true (undamaged_of_applied hfresh happlied (hraised _)) (.inl (hraised _))

variable (settings) in
/-- The list of a marked event is read and written.  That is safe if no call raises, and for
an edit that changes nothing also if none but `RPUSH` would. -/
theorem rewriteWindow_undamaged_iff (hfresh : s.tables.isProcessed event.eventId = false)
    (hmarked : t.tables.isProcessed event.eventId = true)
    (hlive : env.live t event.tgChatId = env.live s event.tgChatId) :
    Undamaged env event s (exec env.run (rewriteWindow settings event) t)
        ((rewriteWindow settings event).Raised env.run Cmd.Redis t) ↔
      ¬ (rewriteWindow settings event).Raised env.run Cmd.Redis t ∨
        (Applied env event s s ∧
          ¬ (rewriteWindow settings event).Raised env.run Cmd.Push t) := by
  unfold rewriteWindow
  rcases env.await_bind_cases (.lrange event.tgChatId) _ t with ⟨hexec, hraised⟩ | ⟨hexec, hraised⟩
  swap
  · -- `LRANGE` raises
    rw [hexec, hraised, hraised]
    exact undamaged_of_unwritten_iff hmarked hlive
  rw [hexec, hraised, hraised]
  have hentries : (env.effect (.lrange event.tgChatId) t).1 = env.live s event.tgChatId := hlive
  rw [hentries]
  by_cases hmem : event.tgMessageId ∈ (env.live s event.tgChatId).map (·.tgMessageId)
  · have hnonempty : env.live s event.tgChatId ≠ [] := by
      intro hnil
      simp [hnil] at hmem
    simp only [if_pos hmem]
    exact pushAgain_undamaged_iff hfresh hmarked hlive hnonempty
  · -- no entry is of the message
    have happlied : Applied env event s (env.effect (.lrange event.tgChatId) t).2.tick := by
      rw [applied_iff, editMessages_of_not_mem hmem]
      exact hlive
    simp only [if_neg hmem]
    exact iff_of_true (undamaged_of_applied hfresh happlied not_false) (.inl not_false)

variable (env settings event s) in
/-- **An edit** leaves the window undamaged exactly if no call of Redis raises, or if it
changes nothing and `RPUSH` does not raise. -/
theorem handleEditedMessage_undamaged_iff (hnew : isBlank (event.newText.getD "") = false) :
    Undamaged env event s (exec env.run (handleEditedMessage settings event) s)
        ((handleEditedMessage settings event).Raised env.run Cmd.Redis s) ↔
      ¬ (handleEditedMessage settings event).Raised env.run Cmd.Redis s ∨
        (Applied env event s s ∧
          ¬ (handleEditedMessage settings event).Raised env.run Cmd.Push s) := by
  have hcalls : handleEditedMessage settings event = await (.selectProcessed event.eventId) >>=
      fun processed => if processed = true then pure () else
        await (.insertProcessed event.eventId) >>= fun _ => rewriteWindow settings event := by
    unfold handleEditedMessage
    rw [hnew, if_neg Bool.false_ne_true]
  rw [hcalls]
  rcases env.await_bind_cases (.selectProcessed event.eventId) _ s with
    ⟨hexec, hraised⟩ | ⟨hexec, hraised⟩
  swap
  · rw [hexec, hraised, hraised]
    exact iff_of_true ⟨(nomatch ·), False.elim, False.elim⟩ (.inl not_false)
  rw [hexec, hraised, hraised]
  cases hprocessed : s.tables.isProcessed event.eventId with
  | true =>
    have hanswer : (env.effect (.selectProcessed event.eventId) s).1 = true := hprocessed
    rw [hanswer, if_pos rfl]
    refine iff_of_true ⟨fun _ => ?_, False.elim, False.elim⟩ (.inl not_false)
    rw [hprocessed, if_pos rfl]
    rfl
  | false =>
    have hanswer : (env.effect (.selectProcessed event.eventId) s).1 = false := hprocessed
    rw [hanswer, if_neg Bool.false_ne_true]
    rcases env.await_bind_cases (.insertProcessed event.eventId) _
      (env.effect (.selectProcessed event.eventId) s).2.tick with ⟨hexec, hraised⟩ | ⟨hexec, hraised⟩
    · rw [hexec, hraised, hraised]
      exact rewriteWindow_undamaged_iff settings hprocessed (marked_effect env s.tick event.eventId)
        (env.live_setTables s.tick event.tgChatId _)
    · rw [hexec, hraised, hraised]
      exact iff_of_true ⟨(nomatch ·), False.elim, False.elim⟩ (.inl not_false)

end Edits

/-! ## One edit -/

/-- The list of chat 7 has two messages. -/
def twoPlans : World where
  window chat := if chat = 7 then [windowMessage (planMessage 1), windowMessage (planMessage 2)]
    else []

/-- A new text for the first of them. -/
def planEdit (newText : String) : TelegramMessageEditedEvent where
  eventId := 3
  occurredAt := 0
  tgChatId := 7
  tgMessageId := 1
  newText := some newText

/-- No call raises, the plan changes and the other message stays; the plan does not change and
`DEL` raises. -/
theorem handleEditedMessage_undamaged_iff_plan :
    (Undamaged (envWith fun _ _ => false) (planEdit "new plan") twoPlans
        (exec (envWith fun _ _ => false).run (handleEditedMessage {} (planEdit "new plan"))
          twoPlans)
        ((handleEditedMessage {} (planEdit "new plan")).Raised (envWith fun _ _ => false).run
          Cmd.Redis twoPlans)) ∧
      ((exec (envWith fun _ _ => false).run (handleEditedMessage {} (planEdit "new plan"))
        twoPlans).2.window 7).map (·.text) = ["new plan", "the plan"] ∧
      Undamaged (envWith fun _ c => c = .delete 7) (planEdit "the plan") twoPlans
        (exec (envWith fun _ c => c = .delete 7).run (handleEditedMessage {} (planEdit "the plan"))
          twoPlans)
        ((handleEditedMessage {} (planEdit "the plan")).Raised
          (envWith fun _ c => c = .delete 7).run Cmd.Redis twoPlans) :=
  ⟨(handleEditedMessage_undamaged_iff (envWith fun _ _ => false) (planEdit "new plan") {}
      twoPlans (by decide)).mpr (.inl (by decide)),
    by decide,
    (handleEditedMessage_undamaged_iff (envWith fun _ c => c = .delete 7) (planEdit "the plan") {}
      twoPlans (by decide)).mpr
      (.inr ⟨applied_iff.mpr (by decide), by decide⟩)⟩

/-- `RPUSH` raises and the window is lost; `LRANGE` raises and the edit is. -/
theorem not_undamaged_pushFails :
    ¬ Undamaged (envWith fun n _ => n = 4) (planEdit "new plan") twoPlans
        (exec (envWith fun n _ => n = 4).run (handleEditedMessage {} (planEdit "new plan"))
          twoPlans)
        ((handleEditedMessage {} (planEdit "new plan")).Raised (envWith fun n _ => n = 4).run
          Cmd.Redis twoPlans) ∧
      ¬ Undamaged (envWith fun n _ => n = 2) (planEdit "new plan") twoPlans
        (exec (envWith fun n _ => n = 2).run (handleEditedMessage {} (planEdit "new plan"))
          twoPlans)
        ((handleEditedMessage {} (planEdit "new plan")).Raised (envWith fun n _ => n = 2).run
          Cmd.Redis twoPlans) :=
  ⟨fun h => absurd (h.kept (by decide)) (by decide),
    fun h => absurd (applied_iff.mp (h.notLost (by decide) (by decide)))
      (by decide)⟩

end Summarizer
end PersonalIntelligence
