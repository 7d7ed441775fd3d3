import PersonalIntelligence.Orchestrator.Consumer
import Mathlib.Data.List.Induction

/-!
# What one run of a handler can do

The specification of each function of `consumer.py`, for a process that has the stores
to itself.  A flush has three outcomes (`flushWindow_cases`): there was nothing to
flush, it went through, or one of its calls raised, and then the streams have got a
prefix of its entries and the window is still there.  A handler has four
(`Env.deliver_cases`).  Everything that is said later about sequences of events is
derived from these two theorems and does not look at the programs again.
-/

namespace PersonalIntelligence
namespace Orchestrator

open PyText Resumption

/-! ## The entries of one window -/

/-- The entries that `_run_analysis` publishes, in order. -/
def entries (input : AnalysisInput) (state : AnalysisState) : List StreamEntry :=
  .preprocessed (preprocessedEvent input state) :: .completed (completedEvent input state) ::
    (state.result.analyticsSignals.map fun signal => .signal (signalEvent input signal)) ++
    [.projection state.projectionCommand]

/-- What a reader that skips the signals finds in the entries of a window. -/
theorem entries_filterMap {β : Type} {g : StreamEntry → Option β} (hg : ∀ e, g (.signal e) = none)
    (input : AnalysisInput) (state : AnalysisState) :
    (entries input state).filterMap g =
      (g (.preprocessed (preprocessedEvent input state))).toList ++
        ((g (.completed (completedEvent input state))).toList ++
          (g (.projection state.projectionCommand)).toList) := by
  have hsignals : (state.result.analyticsSignals.map fun signal =>
      StreamEntry.signal (signalEvent input signal)).filterMap g = [] := by
    rw [List.filterMap_map, List.filterMap_eq_nil_iff]
    exact fun signal _ => hg _
  have hcons : ∀ e es, List.filterMap g (e :: es) = (g e).toList ++ es.filterMap g := by
    intro e es
    cases h : g e <;> simp [h]
  rw [entries, List.cons_append, List.cons_append, hcons, hcons, List.filterMap_append, hsignals,
    List.nil_append, hcons, List.filterMap_nil, List.append_nil]

/-- A window is announced once. -/
theorem entries_asPreprocessed (input : AnalysisInput) (state : AnalysisState) :
    (entries input state).filterMap StreamEntry.asPreprocessed =
      [preprocessedEvent input state] := entries_filterMap (fun _ => rfl) input state

/-- A window is projected once. -/
theorem entries_asProjection (input : AnalysisInput) (state : AnalysisState) :
    (entries input state).filterMap StreamEntry.asProjection = [state.projectionCommand] :=
  entries_filterMap (fun _ => rfl) input state

/-- Publish a list of entries. -/
def publish : List StreamEntry → Handling Unit
  | [] => pure ()
  | entry :: rest => do
    await (.xadd entry)
    publish rest

theorem publish_signals (input : AnalysisInput) (rest : List StreamEntry) :
    ∀ signals : List AnalyticsSignal,
      (forM signals fun signal => await (.xadd (.signal (signalEvent input signal)))) >>=
          (fun _ => publish rest) =
        publish ((signals.map fun signal => .signal (signalEvent input signal)) ++ rest)
  | [] => rfl
  | signal :: signals => by
    have ih := publish_signals input rest signals
    rw [List.forM_cons, bind_assoc, List.map_cons, List.cons_append, publish, ih]

/-- `_run_analysis` is the graph followed by the publication of its entries. -/
theorem runAnalysis_eq (input : AnalysisInput) :
    runAnalysis input = (do
      let state ← await (.ainvoke input)
      publish (entries input state)) := by
  have hlast : ∀ state : AnalysisState, await (.xadd (.projection state.projectionCommand)) =
      publish [.projection state.projectionCommand] := by
    intro state
    simp only [publish]
    exact (bind_pure _).symm
  unfold runAnalysis
  simp only [hlast, publish_signals]
  rfl

/-- Only the first entry of a window opens its flush. -/
theorem eq_nil_of_opensFlush {input : AnalysisInput} {state : AnalysisState}
    {before after : List StreamEntry} {entry : StreamEntry}
    (h : entries input state = before ++ entry :: after)
    (ho : (Cmd.xadd entry).opensFlush = true) : before = [] := by
  rcases before with _ | ⟨first, before⟩
  · rfl
  · have hmem : entry ∈ (entries input state).tail := by
      rw [h]
      exact List.mem_append_right _ (List.mem_cons_self ..)
    exfalso
    simp only [entries, List.cons_append, List.tail_cons, List.mem_append, List.mem_cons,
      List.mem_map, List.not_mem_nil, or_false] at hmem
    rcases hmem with rfl | ⟨_, -, rfl⟩ | rfl <;> cases ho

/-! ## Calls that raise -/

section Runs

variable [CharData] (env : Env)

/-- None of the calls raises, the first of them being call number `n`. -/
def Env.NoFault (env : Env) : ℕ → List Cmd → Prop
  | _, [] => True
  | n, c :: rest => env.faults n c = false ∧ env.NoFault (n + 1) rest

omit [CharData] in
theorem Env.noFault_of_forall {env : Env} (h : ∀ n c, env.faults n c = false) :
    ∀ (n : ℕ) (cmds : List Cmd), env.NoFault n cmds
  | _, [] => trivial
  | n, c :: rest => ⟨h n c, noFault_of_forall h (n + 1) rest⟩

omit [CharData] in
/-- Either no call raises or there is a first one that does. -/
theorem Env.noFault_or_first : ∀ (n : ℕ) (cmds : List Cmd), env.NoFault n cmds ∨
    ∃ before c after, cmds = before ++ c :: after ∧ env.NoFault n before ∧
      env.faults (n + before.length) c = true
  | _, [] => .inl trivial
  | n, c :: rest => by
    cases hc : env.faults n c with
    | true => exact .inr ⟨[], c, rest, rfl, trivial, hc⟩
    | false =>
      rcases noFault_or_first (n + 1) rest with h | ⟨before, d, after, rfl, hpre, hf⟩
      · exact .inl ⟨hc, h⟩
      · refine .inr ⟨c :: before, d, after, rfl, ⟨hc, hpre⟩, ?_⟩
        rw [List.length_cons, Nat.add_comm before.length, ← Nat.add_assoc]
        exact hf

omit [CharData] in
theorem Env.noFault_append : ∀ {n : ℕ} (before after : List Cmd),
    env.NoFault n (before ++ after) ↔ env.NoFault n before ∧ env.NoFault (n + before.length) after
  | n, [], after => by simp [NoFault]
  | n, c :: before, after => by
    rw [List.cons_append, NoFault, NoFault, noFault_append before after, and_assoc,
      List.length_cons, Nat.add_comm before.length, ← Nat.add_assoc]

theorem Env.run_xadd_ok {s : World} {entry : StreamEntry}
    (h : env.faults s.calls (.xadd entry) = false) :
    env.run (.xadd entry) s =
      (.ok (), { s with log := s.log ++ [entry], calls := s.calls + 1 }) := by
  simp [Env.run, Env.fallible, h, World.tick]

/-- The calls of a flush that may raise. -/
def Cmd.mayRaise : Cmd → Bool
  | .ainvoke _ | .xadd _ | .delete _ => true
  | _ => false

theorem Env.run_error {s : World} {c : Cmd} (hc : c.mayRaise = true)
    (h : env.faults s.calls c = true) : env.run c s = (.error .callFailed, s.tick) := by
  cases c <;> simp_all [Env.run, Env.fallible, Cmd.mayRaise]

/-- A publication in which no call raises. -/
theorem exec_publish_ok : ∀ {es : List StreamEntry} {s : World},
    env.NoFault s.calls (es.map .xadd) → exec env.run (publish es) s =
      (.ok (), { s with log := s.log ++ es, calls := s.calls + es.length })
  | [], s, _ => by simp [publish]
  | entry :: rest, s, h => by
    unfold publish await
    rw [exec_perform_bind, env.run_xadd_ok h.1, andThen_ok, exec_publish_ok h.2]
    simp [Nat.add_right_comm, ← Nat.add_assoc]

/-- A publication in which the call for `entry` raises: what comes before it is in the
streams. -/
theorem exec_publish_error {entry : StreamEntry} {after : List StreamEntry} :
    ∀ {before : List StreamEntry} {s : World}, env.NoFault s.calls (before.map .xadd) →
      env.faults (s.calls + before.length) (.xadd entry) = true →
      exec env.run (publish (before ++ entry :: after)) s = (.error .callFailed,
        { s with log := s.log ++ before, calls := s.calls + before.length + 1 })
  | [], s, _, hf => by
    rw [List.nil_append]
    unfold publish await
    rw [exec_perform_bind, env.run_error (s := s) rfl hf]
    simp [World.tick]
  | first :: before, s, h, hf => by
    have hf' : env.faults (s.calls + 1 + before.length) (.xadd entry) = true := by
      rw [Nat.add_right_comm]
      exact hf
    rw [List.cons_append]
    unfold publish await
    rw [exec_perform_bind, env.run_xadd_ok h.1, andThen_ok, exec_publish_error h.2 hf']
    simp [Nat.add_right_comm, ← Nat.add_assoc]

/-! ## A flush -/

/-- The state a flush of the request hands to the graph. -/
def Env.flushInput (env : Env) (s : World) (request : FlushRequest) : AnalysisInput :=
  request.input (env.live s request.tgChatId) s.drawn

/-- The entries a flush of the request publishes. -/
def Env.flushEntries (s : World) (request : FlushRequest) : List StreamEntry :=
  entries (env.flushInput s request) (env.invoke s.draw (env.flushInput s request))

/-- The calls of a flush that may raise. -/
def Env.flushCalls (s : World) (request : FlushRequest) : List Cmd :=
  .ainvoke (env.flushInput s request) ::
    ((env.flushEntries s request).map .xadd ++ [.delete request.tgChatId])

/-- The stores after a flush that went through. -/
def Env.flushed (s : World) (request : FlushRequest) : World :=
  { s.setWindow request.tgChatId [] none with
    log := s.log ++ env.flushEntries s request
    drawn := s.drawn + 2
    calls := s.calls + 1 + (env.flushEntries s request).length + 1 }

/-- The stores after a flush that raised once the entries `published` were out.  The
identifiers drawn and the calls made are not given back. -/
def World.flushFailed (s : World) (published : List StreamEntry) (drawn : Ident)
    (calls : ℕ) : World := { s with log := s.log ++ published, drawn, calls }

theorem Env.run_lrange (s : World) (chat : ℤ) :
    env.run (.lrange chat) s = (.ok (env.live s chat), s) := rfl

theorem Env.run_uuid4 (s : World) : env.run .uuid4 s = (.ok s.drawn, s.draw) := rfl

theorem Env.run_ainvoke_ok {s : World} {input : AnalysisInput}
    (h : env.faults s.calls (.ainvoke input) = false) :
    env.run (.ainvoke input) s = (.ok (env.invoke s input), s.draw.tick) := by
  simp [Env.run, Env.fallible, h]

theorem Env.run_delete_ok {s : World} {chat : ℤ} (h : env.faults s.calls (.delete chat) = false) :
    env.run (.delete chat) s = (.ok (), (s.setWindow chat [] none).tick) := by
  simp [Env.run, Env.fallible, h]

theorem exec_flushWindow_nil {s : World} {request : FlushRequest}
    (h : env.live s request.tgChatId = []) :
    exec env.run (flushWindow request) s = (.ok (), s) := by
  unfold flushWindow loadWindowMessages await
  rw [exec_perform_bind, env.run_lrange, andThen_ok, if_pos h]
  rfl

/-- A flush of a window that has messages: analyse, publish, delete. -/
theorem exec_flushWindow_cons {s : World} {request : FlushRequest}
    (h : env.live s request.tgChatId ≠ []) :
    exec env.run (flushWindow request) s =
      andThen (env.run (.ainvoke (env.flushInput s request)) s.draw)
        fun state s' =>
          andThen (exec env.run (publish (entries (env.flushInput s request) state)) s')
            fun _ s'' => env.run (.delete request.tgChatId) s'' := by
  unfold flushWindow loadWindowMessages buildWindowId deleteWindow await
  rw [exec_perform_bind, env.run_lrange, andThen_ok, if_neg h, exec_perform_bind, env.run_uuid4,
    andThen_ok, runAnalysis_eq, bind_assoc, exec_perform_bind]
  simp only [exec_bind, exec_perform]
  rfl

/-- A flush in which no call raises. -/
theorem exec_flushWindow_ok {s : World} {request : FlushRequest}
    (h : env.live s request.tgChatId ≠ []) (hf : env.NoFault s.calls (env.flushCalls s request)) :
    exec env.run (flushWindow request) s = (.ok (), env.flushed s request) := by
  obtain ⟨hinvoke, hrest⟩ := hf
  obtain ⟨hpub, hdel⟩ := (env.noFault_append _ _).mp hrest
  rw [List.length_map] at hdel
  have hentries : entries (env.flushInput s request)
      (env.invoke s.draw (env.flushInput s request)) = env.flushEntries s request := rfl
  rw [exec_flushWindow_cons env h, env.run_ainvoke_ok (s := s.draw) hinvoke, andThen_ok, hentries]
  rw [exec_publish_ok env (s := s.draw.draw.tick) hpub, andThen_ok]
  rw [env.run_delete_ok hdel.1]
  rfl

/-- A flush in which a call raises, after the calls `before`. -/
theorem exec_flushWindow_error {s : World} {request : FlushRequest} {before after : List Cmd}
    {c : Cmd} (h : env.live s request.tgChatId ≠ [])
    (hcalls : env.flushCalls s request = before ++ c :: after)
    (hf : env.NoFault s.calls before) (hc : env.faults (s.calls + before.length) c = true) :
    ∃ published drawn calls, published <+: env.flushEntries s request ∧
      (c.opensFlush = true → published = []) ∧
      exec env.run (flushWindow request) s =
        (.error .callFailed, s.flushFailed published drawn calls) := by
  rw [exec_flushWindow_cons env h]
  unfold Env.flushCalls at hcalls
  rcases before with _ | ⟨first, before⟩
  · -- the analysis itself
    obtain ⟨rfl, -⟩ := List.cons.inj hcalls
    rw [env.run_error (s := s.draw) rfl hc, andThen_error]
    exact ⟨[], s.drawn + 1, s.calls + 1, List.nil_prefix, fun _ => rfl, by
      simp [World.flushFailed, World.draw, World.tick]⟩
  · obtain ⟨rfl, hrest⟩ := List.cons.inj hcalls
    obtain ⟨hinvoke, hbefore⟩ := hf
    rw [env.run_ainvoke_ok (s := s.draw) hinvoke, andThen_ok]
    have hentries : entries (env.flushInput s request)
        (env.invoke s.draw (env.flushInput s request)) = env.flushEntries s request := rfl
    have hc' : env.faults (s.calls + 1 + before.length) c = true := by
      rw [← hc, List.length_cons, Nat.add_comm before.length, Nat.add_assoc]
    rw [hentries]
    rcases List.eq_nil_or_concat after with rfl | ⟨after, last, rfl⟩
    · -- the deletion
      obtain ⟨rfl, hdel⟩ := List.append_inj' hrest rfl
      obtain rfl := (List.cons.inj hdel).1
      rw [List.length_map] at hc'
      rw [exec_publish_ok env (s := s.draw.draw.tick) hbefore, andThen_ok, env.run_error rfl hc']
      exact ⟨_, _, _, List.prefix_refl _, fun h => absurd h (by simp [Cmd.opensFlush]), rfl⟩
    · -- a publication
      replace hrest : (env.flushEntries s request).map .xadd ++ [.delete request.tgChatId] =
          (before ++ c :: after) ++ [last] := by simpa using hrest
      obtain ⟨hxadd, -⟩ := List.append_inj' hrest rfl
      obtain ⟨out, rest, hes, rfl, hafter⟩ := List.map_eq_append_iff.mp hxadd
      obtain ⟨entry, others, rfl, rfl, -⟩ := List.map_eq_cons_iff.mp hafter
      rw [List.length_map] at hc'
      rw [hes, exec_publish_error env (s := s.draw.draw.tick) hbefore hc', andThen_error]
      exact ⟨out, _, _, List.prefix_append _ _, eq_nil_of_opensFlush hes, rfl⟩

/-- **What a flush can do.**  The third case names the call that raised. -/
theorem flushWindow_cases (s : World) (request : FlushRequest) :
    (env.live s request.tgChatId = [] ∧
      exec env.run (flushWindow request) s = (.ok (), s)) ∨
    (env.live s request.tgChatId ≠ [] ∧ env.NoFault s.calls (env.flushCalls s request) ∧
      exec env.run (flushWindow request) s = (.ok (), env.flushed s request)) ∨
    (env.live s request.tgChatId ≠ [] ∧ ¬ env.NoFault s.calls (env.flushCalls s request) ∧
      ∃ n c published drawn calls, env.faults n c = true ∧
        published <+: env.flushEntries s request ∧ (c.opensFlush = true → published = []) ∧
        exec env.run (flushWindow request) s =
          (.error .callFailed, s.flushFailed published drawn calls)) := by
  by_cases hnil : env.live s request.tgChatId = []
  · exact .inl ⟨hnil, exec_flushWindow_nil env hnil⟩
  · rcases env.noFault_or_first s.calls (env.flushCalls s request) with
      hok | ⟨before, c, after, hcalls, hpre, hc⟩
    · exact .inr (.inl ⟨hnil, hok, exec_flushWindow_ok env hnil hok⟩)
    · obtain ⟨published, drawn, calls, hpub, hopens, hexec⟩ :=
        exec_flushWindow_error env hnil hcalls hpre hc
      refine .inr (.inr ⟨hnil, fun hno => ?_, _, c, published, drawn, calls, hc, hpub, hopens,
        hexec⟩)
      rw [hcalls] at hno
      have hlater := ((env.noFault_append _ _).mp hno).2
      rw [hlater.1] at hc
      cases hc

/-! ## A handler -/

/-- The stores after a message has been pushed and its key given its deadline. -/
def Env.stored (env : Env) (settings : Settings) (s : World) (tgChatId : ℤ)
    (payload : WindowMessagePayload) : World :=
  s.setWindow tgChatId (env.live s tgChatId ++ [payload]) (some (s.now + windowTtl settings))

omit [CharData] in
/-- A key whose deadline has not passed is there. -/
theorem Env.live_of_not_expired {s : World} {chat : ℤ}
    (h : ∀ d ∈ s.deadline chat, s.now ≤ d) : env.live s chat = s.window chat := by
  unfold live
  rw [if_neg]
  rintro ⟨-, hexp⟩
  obtain ⟨d, hd, hlt⟩ := Option.any_eq_true .. |>.mp hexp
  exact absurd (of_decide_eq_true hlt) (not_lt.mpr (h d hd))

omit [CharData] in
theorem Env.live_sublist (env : Env) (s : World) (chat : ℤ) :
    (env.live s chat).Sublist (s.window chat) := by
  unfold live
  split_ifs
  · exact List.nil_sublist _
  · exact List.Sublist.refl _

omit [CharData] in
theorem windowTtl_pos (settings : Settings) : 0 < windowTtl settings := by
  unfold windowTtl seconds
  omega

omit [CharData] in
/-- A push leaves a list that the next command finds. -/
theorem Env.live_setWindow_push (s : World) (chat : ℤ) (messages : List WindowMessagePayload) :
    env.live (s.setWindow chat messages
      (if env.live s chat = [] then none else s.deadline chat)) chat = messages := by
  by_cases hnil : env.live s chat = []
  · rw [if_pos hnil, env.live_of_not_expired (by simp), World.setWindow_window]
  · have hexp : ¬ (env.expires = true ∧ (s.deadline chat).any (· < s.now) = true) :=
      fun hexp => hnil (if_pos hexp)
    rw [if_neg hnil]
    unfold live
    rw [World.setWindow_deadline, World.setWindow_now, if_neg hexp, World.setWindow_window]

omit [CharData] in
theorem Env.live_stored (settings : Settings) (s : World) (chat : ℤ)
    (payload : WindowMessagePayload) :
    env.live (env.stored settings s chat payload) chat = env.live s chat ++ [payload] := by
  have httl := windowTtl_pos settings
  unfold stored
  rw [env.live_of_not_expired, World.setWindow_window]
  intro d hd
  rw [World.setWindow_deadline, Option.mem_some_iff] at hd
  rw [World.setWindow_now, ← hd]
  exact le_add_of_nonneg_right httl.le

theorem exec_storeWindowMessage (settings : Settings) (s : World) (chat : ℤ)
    (payload : WindowMessagePayload) :
    exec env.run (storeWindowMessage settings chat payload) s =
      (.ok ((env.live s chat).length + 1), env.stored settings s chat payload) := by
  have hexpire : env.run (.expire chat (windowTtl settings)) (s.setWindow chat
      (env.live s chat ++ [payload]) (if env.live s chat = [] then none else s.deadline chat)) =
        (.ok (), env.stored settings s chat payload) := by
    simp only [Env.run, env.live_setWindow_push]
    rw [if_neg (List.append_ne_nil_of_right_ne_nil _ (List.cons_ne_nil _ _))]
    simp [Env.stored]
  have hllen : env.run (.llen chat) (env.stored settings s chat payload) =
      (.ok ((env.live s chat).length + 1), env.stored settings s chat payload) := by
    simp [Env.run, env.live_stored]
  unfold storeWindowMessage await
  rw [exec_perform_bind]
  change exec env.run _ (s.setWindow chat _ _) = _
  rw [exec_perform_bind, hexpire, andThen_ok, exec_perform, hllen]

/-- The event is the first with its id to reach the consumer, and it has content. -/
def World.isNew (s : World) (event : TelegramMessageEvent) : Prop :=
  event.accepted = true ∧ s.isProcessed event.eventId = false

/-- The window is closed by time before the event is stored. -/
def Env.rollsOver (env : Env) (settings : Settings) (s : World) (event : TelegramMessageEvent) :
    Bool := rolloverDue settings (env.live s event.tgChatId) event.payload

/-- The part of a handler that follows the rollover. -/
def Env.finish (settings : Settings) (s : World) (event : TelegramMessageEvent) :
    Except Exc Unit × World :=
  if settings.analysisWindowSize ≤ ((env.live s event.tgChatId).length + 1 : ℕ) then
    exec env.run (flushWindow event.flushRequest)
      (env.stored settings s event.tgChatId event.payload)
  else (.ok (), env.stored settings s event.tgChatId event.payload)

/-- What comes after the rollover. -/
theorem exec_finish (settings : Settings) (s : World) (event : TelegramMessageEvent) :
    exec env.run (storeWindowMessage settings event.tgChatId event.payload >>= fun size =>
      if settings.analysisWindowSize ≤ size then flushWindow event.flushRequest else pure ()) s =
      env.finish settings s event := by
  rw [exec_bind, exec_storeWindowMessage, andThen_ok]
  unfold Env.finish
  split_ifs <;> rfl

/-- A new event: it is marked, the window is flushed if it is due, and the message is
stored. -/
theorem exec_handleMessage {settings : Settings} {s : World} {event : TelegramMessageEvent}
    (h : s.isNew event) :
    exec env.run (handleMessage settings event) s =
      if env.rollsOver settings (s.insertProcessed event.eventId) event then
        andThen (exec env.run (flushWindow event.flushRequest) (s.insertProcessed event.eventId))
          fun _ s' => env.finish settings s' event
      else env.finish settings (s.insertProcessed event.eventId) event := by
  have hselect : env.run (.selectProcessed event.eventId) s = (.ok false, s) := by
    simp [Env.run, h.2]
  have hinsert : env.run (.insertProcessed event.eventId) s =
      (.ok (), s.insertProcessed event.eventId) := rfl
  unfold handleMessage isProcessed markProcessed loadWindowMessages await
  rw [if_neg (by simp [h.1]), exec_perform_bind, hselect, andThen_ok, if_neg (by simp),
    exec_perform_bind, hinsert, andThen_ok, exec_perform_bind, env.run_lrange, andThen_ok]
  unfold Env.rollsOver
  split_ifs with hroll
  · rw [exec_bind]
    simp only [exec_finish]
  · exact exec_finish env settings _ event

/-- An event that is not new leaves everything as it is. -/
theorem exec_handleMessage_of_not_new {settings : Settings} {s : World}
    {event : TelegramMessageEvent} (h : ¬ s.isNew event) :
    exec env.run (handleMessage settings event) s = (.ok (), s) := by
  unfold handleMessage
  by_cases hacc : event.accepted = true
  · have hproc : s.isProcessed event.eventId = true := by
      by_contra hno
      exact h ⟨hacc, by simpa using hno⟩
    have hselect : env.run (.selectProcessed event.eventId) s = (.ok true, s) := by
      simp [Env.run, hproc]
    unfold isProcessed await
    rw [if_neg (by simp [hacc]), exec_perform_bind, hselect, andThen_ok, if_pos rfl]
    rfl
  · rw [if_pos (by simpa using hacc)]
    rfl

/-- The exception of a handler stops at the loop. -/
theorem Env.deliver_eq (settings : Settings) (s : World) (event : TelegramMessageEvent) :
    env.deliver settings s event = (exec env.run (handleMessage settings event) s).2 := by
  unfold deliver attempt
  rw [exec_tryCatch]
  rcases exec env.run (handleMessage settings event) s with ⟨_ | _, _⟩ <;> rfl

/-! ## The outcomes of a delivery -/

/-- A flush of `s` for the request raised and left the stores at `s'`. -/
def Env.FlushRaised (env : Env) (s : World) (request : FlushRequest) (s' : World) : Prop :=
  ¬ env.NoFault s.calls (env.flushCalls s request) ∧
    ∃ n c published drawn calls, env.faults n c = true ∧
      published <+: env.flushEntries s request ∧ (c.opensFlush = true → published = []) ∧
      s' = s.flushFailed published drawn calls

omit [CharData] in
theorem Env.live_ne_nil_of_rollsOver {settings : Settings} {s : World}
    {event : TelegramMessageEvent} (h : env.rollsOver settings s event = true) :
    env.live s event.tgChatId ≠ [] := by
  intro hnil
  unfold rollsOver rolloverDue at h
  rw [hnil] at h
  cases h

/-- **Storing a message** either leaves it in the window or flushes the window with it,
and that flush may raise. -/
theorem Env.finish_cases (settings : Settings) (s : World) (event : TelegramMessageEvent) :
    (¬ settings.analysisWindowSize ≤ ((env.live s event.tgChatId).length + 1 : ℕ) ∧
      (env.finish settings s event).2 =
        env.stored settings s event.tgChatId event.payload) ∨
    (settings.analysisWindowSize ≤ ((env.live s event.tgChatId).length + 1 : ℕ) ∧
      ((env.finish settings s event).2 =
          env.flushed (env.stored settings s event.tgChatId event.payload) event.flushRequest ∨
        env.FlushRaised (env.stored settings s event.tgChatId event.payload) event.flushRequest
          (env.finish settings s event).2)) := by
  have hlive := env.live_stored settings s event.tgChatId event.payload
  unfold finish
  split_ifs with hfull
  · right
    refine ⟨hfull, ?_⟩
    rcases flushWindow_cases env (env.stored settings s event.tgChatId event.payload)
      event.flushRequest with ⟨hnil, -⟩ | ⟨-, -, hok⟩ | ⟨-, hfault, n, c, pub, d, k, hc, hp, ho, herr⟩
    · have hnil' : env.live s event.tgChatId ++ [event.payload] = [] := hlive ▸ hnil
      simp at hnil'
    · exact .inl (by rw [hok])
    · exact .inr ⟨hfault, n, c, pub, d, k, hc, hp, ho, by rw [herr]⟩
  · exact .inl ⟨hfull, rfl⟩

/-- **What a new event can do.**  The flush of the old window may raise, and then the
event is marked and not stored; otherwise the message is stored. -/
theorem Env.deliver_cases (settings : Settings) {s : World} {event : TelegramMessageEvent}
    (h : s.isNew event) :
    (env.rollsOver settings (s.insertProcessed event.eventId) event = true ∧
      env.FlushRaised (s.insertProcessed event.eventId) event.flushRequest
        (env.deliver settings s event)) ∨
    ∃ s', (env.rollsOver settings (s.insertProcessed event.eventId) event = true ∧
        env.NoFault s.calls (env.flushCalls (s.insertProcessed event.eventId) event.flushRequest) ∧
        s' = env.flushed (s.insertProcessed event.eventId) event.flushRequest ∨
      env.rollsOver settings (s.insertProcessed event.eventId) event = false ∧
        s' = s.insertProcessed event.eventId) ∧
      env.deliver settings s event = (env.finish settings s' event).2 := by
  rw [env.deliver_eq, exec_handleMessage env h]
  cases hroll : env.rollsOver settings (s.insertProcessed event.eventId) event with
  | false => exact .inr ⟨_, .inr ⟨rfl, rfl⟩, rfl⟩
  | true =>
    have hlive := env.live_ne_nil_of_rollsOver hroll
    rcases flushWindow_cases env (s.insertProcessed event.eventId) event.flushRequest with
      ⟨hnil, -⟩ | ⟨-, hok, hexec⟩ | ⟨-, hfault, n, c, pub, d, k, hc, hp, ho, hexec⟩
    · exact absurd hnil hlive
    · refine .inr ⟨_, .inl ⟨rfl, ?_, rfl⟩, ?_⟩
      · rwa [World.insertProcessed_calls] at hok
      · rw [if_pos rfl, hexec, andThen_ok]
    · refine .inl ⟨rfl, hfault, n, c, pub, d, k, hc, hp, ho, ?_⟩
      rw [if_pos rfl, hexec, andThen_error]

omit [CharData] in
theorem Env.rollsOver_insertProcessed (settings : Settings) (s : World)
    (event : TelegramMessageEvent) (id : Ident) :
    env.rollsOver settings (s.insertProcessed id) event = env.rollsOver settings s event := by
  obtain ⟨rows, heq⟩ := s.insertProcessed_eq id
  rw [heq]
  rfl

omit [CharData] in
theorem Env.live_insertProcessed (s : World) (id : Ident) :
    env.live (s.insertProcessed id) = env.live s := by
  obtain ⟨rows, heq⟩ := s.insertProcessed_eq id
  rw [heq]
  rfl

theorem Env.flushCalls_insertProcessed (s : World) (request : FlushRequest) (id : Ident) :
    env.flushCalls (s.insertProcessed id) request = env.flushCalls s request := by
  obtain ⟨rows, heq⟩ := s.insertProcessed_eq id
  rw [heq]
  rfl

omit [CharData] in
theorem World.isProcessed_congr {s s' : World} (h : s.processedEvent = s'.processedEvent)
    (id : Ident) : s.isProcessed id = s'.isProcessed id := by
  unfold World.isProcessed
  rw [h]

theorem Env.FlushRaised.processedEvent {env : Env} {s s' : World} {request : FlushRequest}
    (h : env.FlushRaised s request s') : s'.processedEvent = s.processedEvent := by
  obtain ⟨-, n, c, published, drawn, calls, -, -, -, rfl⟩ := h
  rfl

theorem Env.finish_processedEvent (settings : Settings) (s : World)
    (event : TelegramMessageEvent) :
    (env.finish settings s event).2.processedEvent = s.processedEvent := by
  rcases env.finish_cases settings s event with ⟨-, h⟩ | ⟨-, h | h⟩
  · rw [h]
    rfl
  · rw [h]
    rfl
  · exact h.processedEvent

/-- An event that is not new changes nothing. -/
theorem Env.deliver_of_not_new (settings : Settings) {s : World} {event : TelegramMessageEvent}
    (h : ¬ s.isNew event) : env.deliver settings s event = s := by
  rw [env.deliver_eq, exec_handleMessage_of_not_new env h]

/-- **What is marked.**  An accepted event is processed once it has been delivered,
whatever raised on the way, and nothing else becomes processed. -/
theorem Env.isProcessed_deliver (settings : Settings) (s : World) (event : TelegramMessageEvent)
    (id : Ident) : (env.deliver settings s event).isProcessed id = true ↔
      (event.accepted = true ∧ event.eventId = id) ∨ s.isProcessed id = true := by
  by_cases hnew : s.isNew event
  · have hproc : (env.deliver settings s event).processedEvent =
        (s.insertProcessed event.eventId).processedEvent := by
      rcases env.deliver_cases settings hnew with ⟨-, h⟩ | ⟨s', h, heq⟩
      · exact h.processedEvent
      · rw [heq, env.finish_processedEvent]
        rcases h with ⟨-, -, rfl⟩ | ⟨-, rfl⟩
        · rfl
        · rfl
    rw [World.isProcessed_congr hproc, World.isProcessed_insertProcessed, eq_comm]
    simp [hnew.1]
  · rw [env.deliver_of_not_new settings hnew]
    refine ⟨.inr, ?_⟩
    rintro (⟨hacc, rfl⟩ | h)
    · by_contra hno
      exact hnew ⟨hacc, by simpa using hno⟩
    · exact h

theorem Env.deliverAll_append (settings : Settings) (s : World)
    (events : List TelegramMessageEvent) (event : TelegramMessageEvent) :
    env.deliverAll settings s (events ++ [event]) =
      env.deliver settings (env.deliverAll settings s events) event := List.foldl_concat ..

/-- The processed events of a run are the accepted ones. -/
theorem Env.isProcessed_deliverAll (settings : Settings) (events : List TelegramMessageEvent)
    (id : Ident) : (env.deliverAll settings {} events).isProcessed id = true ↔
      ∃ event ∈ events, event.accepted = true ∧ event.eventId = id := by
  induction events using List.reverseRecOn with
  | nil => simp [deliverAll, World.isProcessed]
  | append_singleton events event ih =>
    rw [env.deliverAll_append, env.isProcessed_deliver, ih]
    simp [or_comm]

/-! ## The clock -/

/-- A program takes no time. -/
theorem now_exec {α : Type} (p : Handling α) (s : World) : (exec env.run p s).2.now = s.now := by
  refine exec_invariant env.run (I := fun s' => s'.now = s.now) (fun c s' h => ?_) p s rfl
  have hstep : (env.run c s').2.now = s'.now := by
    cases c with
    | insertProcessed eventId => exact s'.insertProcessed_now eventId
    | expire chat ttl =>
      simp only [Env.run]
      split_ifs
      · rfl
      · rfl
    | ainvoke input =>
      simp only [Env.run, Env.fallible]
      split_ifs
      · rfl
      · rfl
    | xadd entry =>
      simp only [Env.run, Env.fallible]
      split_ifs
      · rfl
      · rfl
    | delete chat =>
      simp only [Env.run, Env.fallible]
      split_ifs
      · rfl
      · rfl
    | _ => rfl
  exact hstep.trans h

theorem Env.now_deliver (settings : Settings) (s : World) (event : TelegramMessageEvent) :
    (env.deliver settings s event).now = s.now := by
  rw [env.deliver_eq, now_exec]

end Runs

end Orchestrator
end PersonalIntelligence
