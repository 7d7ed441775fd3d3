import PersonalIntelligence.Orchestrator.WindowProtocol

/-!
# The live consumer beside a backfill

The two processes share the window of a chat and the table of processed events, and
every await is a point at which the other may go on.  Nothing in the code makes a check
and the write it guards one step, so two things can go wrong: both processes may find
an event unprocessed before either has marked it, and a message may be pushed, or a
flush begun, between another flush's `LRANGE` and its `DEL`.

`Undisturbed` names exactly these situations.  In an interleaving none of whose steps is
taken in one of them, no message is lost or duplicated (`exactly_once_of_undisturbed`).
The invariant counts each message in four places: the windows published, the list in
Redis unless a flush has already published it, and what each process still carries.
-/

namespace PersonalIntelligence
namespace Orchestrator

open PyText Resumption

/-! ## Interleavings -/

inductive Process where
  | live
  | backfill
  deriving DecidableEq, Repr

def Process.other : Process → Process
  | .live => .backfill
  | .backfill => .live

theorem Process.eq_other_of_ne {i j : Process} (h : j ≠ i) : j = i.other := by
  cases i <;> cases j <;> first | rfl | exact absurd rfl h

theorem Process.other_ne (i : Process) : i.other ≠ i := by cases i <;> decide

/-- The two processes and the stores they share. -/
abbrev Interleaved := System Process Cmd Ans Exc Unit World

/-- What each process runs. -/
def program (settings : Settings) (args : BackfillArgs) (events stream : List TelegramMessageEvent) :
    Process → Handling Unit
  | .live => consume settings events
  | .backfill => do
    let _stats ← runBackfill settings args stream
    pure ()

/-- The process has read the messages of a flush and has not deleted them. -/
def inFlush (p : Handling Unit) : Bool :=
  match p.head? with
  | some .uuid4 | some (.ainvoke _) | some (.xadd _) | some (.delete _) => true
  | _ => false

/-- The event the process is about to mark. -/
def marking (p : Handling Unit) : Option Ident :=
  match p.head? with
  | some (.insertProcessed eventId) => some eventId
  | _ => none

/-- The process is about to push a message. -/
def pushing (p : Handling Unit) : Bool :=
  match p.head? with
  | some (.rpush _ _) => true
  | _ => false

/-- Before the step of process `i`: the processes are not about to mark one event both,
not both in a flush, and `i` does not push while the other is in one. -/
structure Undisturbed (y : Interleaved) (i : Process) : Prop where
  marks : marking (y.thread i) = none ∨ marking (y.thread i) ≠ marking (y.thread i.other)
  flushes : ¬ (inFlush (y.thread i) = true ∧ inFlush (y.thread i.other) = true)
  pushes : ¬ (pushing (y.thread i) = true ∧ inFlush (y.thread i.other) = true)

instance (y : Interleaved) (i : Process) : Decidable (Undisturbed y i) :=
  decidable_of_iff
    ((marking (y.thread i) = none ∨ marking (y.thread i) ≠ marking (y.thread i.other)) ∧
      ¬ (inFlush (y.thread i) = true ∧ inFlush (y.thread i.other) = true) ∧
      ¬ (pushing (y.thread i) = true ∧ inFlush (y.thread i.other) = true))
    ⟨fun h => ⟨h.1, h.2.1, h.2.2⟩, fun h => ⟨h.1, h.2, h.3⟩⟩

section Interleave

variable [CharData] (env : Env)

/-- Both processes from the stores `s`, in the order of a schedule; an entry names the
process that makes its next call, and the time of it. -/
def Env.interleave (settings : Settings) (args : BackfillArgs)
    (events stream : List TelegramMessageEvent) (s : World) (schedule : List (Process × Timestamp)) :
    Interleaved :=
  schedule.foldl (System.stepAt env.run World.at) ⟨s, program settings args events stream⟩

/-- Every step of such a run is undisturbed. -/
def Env.UndisturbedRun (settings : Settings) (args : BackfillArgs)
    (events stream : List TelegramMessageEvent) (s : World) (schedule : List (Process × Timestamp)) :
    Prop :=
  System.AllSteps env.run World.at Undisturbed schedule ⟨s, program settings args events stream⟩

end Interleave

/-- Each accepted message is once in the windows published or in the current list. -/
def ExactlyOnce (s : World) (chat : ℤ) (events : List TelegramMessageEvent) : Prop :=
  ∀ event ∈ events, event.accepted = true →
    ((s.windows chat).flatten ++ s.window chat).count event.payload = 1

/-- Events of one chat with distinct ids and message ids. -/
structure Distinct (chat : ℤ) (events : List TelegramMessageEvent) : Prop where
  chat_eq : ∀ event ∈ events, event.tgChatId = chat
  ids : ∀ event ∈ events, ∀ event' ∈ events, event.eventId = event'.eventId → event = event'
  messageIds : ∀ event ∈ events, ∀ event' ∈ events,
    event.tgMessageId = event'.tgMessageId → event = event'

/-- The stores have not seen the events. -/
structure Fresh (chat : ℤ) (events : List TelegramMessageEvent) (s : World) : Prop where
  unprocessed : ∀ event ∈ events, s.isProcessed event.eventId = false
  unseen : ∀ event ∈ events, event.payload ∉ (s.windows chat).flatten ++ s.window chat

/-! ## Counting -/

/-- The message a process has marked and not yet stored. -/
def Stage.carried : Stage → List WindowMessagePayload
  | .marked event | .ready event | .due (some event) | .flushing (some event) _ _ =>
    [event.payload]
  | _ => []

/-- The stage says nothing of the stores. -/
def Stage.quiet : Stage → Bool
  | .selected _ | .flushing _ _ _ => false
  | _ => true

/-- The list in Redis is in the streams already. -/
def Stage.published : Stage → Bool
  | .flushing _ _ published => published
  | _ => false

@[simp] theorem Stage.carried_resume (next : Option TelegramMessageEvent) :
    (Stage.resume next).carried = (Stage.due next).carried := by cases next <;> rfl

@[simp] theorem Stage.carried_flushing (next : Option TelegramMessageEvent)
    (messages : List WindowMessagePayload) (published : Bool) :
    (Stage.flushing next messages published).carried = (Stage.due next).carried := by
  cases next <;> rfl

@[simp] theorem Stage.published_resume (next : Option TelegramMessageEvent) :
    (Stage.resume next).published = false := by cases next <;> rfl

/-- How often a message is in the list, unless the list is published. -/
def unread (chat : ℤ) (s : World) (published : Bool) (payload : WindowMessagePayload) : ℕ :=
  if published then 0 else (s.window chat).count payload

theorem unread_congr {chat : ℤ} {s s' : World} (h : s'.window chat = s.window chat) :
    unread chat s' = unread chat s := by
  unfold unread
  rw [h]

/-- How often a message is in a window, in the list or carried by a process. -/
def accounted (chat : ℤ) (s : World) (a b : Stage) (payload : WindowMessagePayload) : ℕ :=
  (s.windows chat).flatten.count payload + unread chat s (a.published || b.published) payload +
    (a.carried.count payload + b.carried.count payload)

theorem accounted_comm (chat : ℤ) (s : World) (a b : Stage) (payload : WindowMessagePayload) :
    accounted chat s a b payload = accounted chat s b a payload := by
  unfold accounted
  rw [Bool.or_comm, Nat.add_comm (a.carried.count payload)]

/-! ## The invariant -/

/-- What the phase of a process says about the stores; `own` are the events it started
with. -/
structure Tracks (events own : List TelegramMessageEvent) (chat : ℤ) (s : World) (g : Phase) :
    Prop where
  known : ∀ event, event ∈ g.todo ∨ g.stage = .selected event → event ∈ events
  unmarked : ∀ event, g.stage = .selected event → s.isProcessed event.eventId = false
  reading : ∀ next messages published, g.stage = .flushing next messages published →
    s.window chat = messages
  asked : ∀ event ∈ own, event ∈ g.todo ∨ g.stage = .selected event ∨
    s.isProcessed event.eventId = true

/-- Both phases are right about the stores, and a message is accounted for once if its
event is processed, and not at all if it is not. -/
structure Balanced (events : List TelegramMessageEvent) (own : Process → List TelegramMessageEvent)
    (chat : ℤ) (s : World) (phase : Process → Phase) : Prop where
  tracks : ∀ i, Tracks events (own i) chat s (phase i)
  counted : ∀ i, ∀ event ∈ events,
    accounted chat s (phase i).stage (phase i.other).stage event.payload =
      if s.isProcessed event.eventId then 1 else 0

section Invariant

variable {events own : List TelegramMessageEvent} {chat : ℤ} {s s' : World} {g g' : Phase}

theorem World.windows_congr (h : s'.log = s.log) (chat : ℤ) : s'.windows chat = s.windows chat := by
  unfold World.windows World.preprocessed
  rw [h]

/-- The stores changed, and not in what the phase speaks of. -/
theorem Tracks.congr (h : Tracks events own chat s g)
    (hprocessed : ∀ id, s'.isProcessed id = s.isProcessed id)
    (hwindow : s'.window chat = s.window chat) : Tracks events own chat s' g where
  known := h.known
  unmarked event hstage := (hprocessed _).trans (h.unmarked event hstage)
  reading next messages published hstage := hwindow.trans (h.reading _ _ _ hstage)
  asked event hevent := by
    rw [hprocessed]
    exact h.asked event hevent

/-- Nothing is said of the list but by a flush. -/
theorem Tracks.of_not_flushing (h : Tracks events own chat s g)
    (hprocessed : ∀ id, s'.isProcessed id = s.isProcessed id)
    (hflush : ∀ next messages published, g.stage ≠ .flushing next messages published) :
    Tracks events own chat s' g where
  known := h.known
  unmarked event hstage := (hprocessed _).trans (h.unmarked event hstage)
  reading next messages published hstage := absurd hstage (hflush _ _ _)
  asked event hevent := by
    rw [hprocessed]
    exact h.asked event hevent

/-- A process goes on at the same event: the events to ask for are the same ones. -/
theorem Tracks.proceed {stage : Stage} (h : Tracks events own chat s g)
    (hstage : ∀ event, g.stage ≠ .selected event) (hstage' : ∀ event, stage ≠ .selected event)
    (hflush : ∀ next messages published, stage = .flushing next messages published →
      s.window chat = messages) :
    Tracks events own chat s ⟨g.todo, stage⟩ where
  known event hevent := h.known event (.inl (hevent.resolve_right (hstage' event)))
  unmarked event heq := absurd heq (hstage' event)
  reading := hflush
  asked event hevent := (h.asked event hevent).imp_right fun hrest =>
    .inr (hrest.resolve_left (hstage event))

variable {owns : Process → List TelegramMessageEvent} {phase : Process → Phase}

/-- One process moves: what has to be checked. -/
theorem Balanced.update {i : Process} (hself : Tracks events (owns i) chat s' g')
    (hother : Tracks events (owns i.other) chat s' (phase i.other))
    (hcount : ∀ event ∈ events, accounted chat s' g'.stage (phase i.other).stage event.payload =
      if s'.isProcessed event.eventId then 1 else 0) :
    Balanced events owns chat s' (Function.update phase i g') where
  tracks j := by
    by_cases hj : j = i
    · subst hj
      rw [Function.update_self]
      exact hself
    · rw [Function.update_of_ne hj, Process.eq_other_of_ne hj]
      exact hother
  counted j event hevent := by
    rw [← hcount event hevent]
    by_cases hj : j = i
    · subst hj
      rw [Function.update_self, Function.update_of_ne j.other_ne]
    · obtain rfl := Process.eq_other_of_ne hj
      have hback : i.other.other = i := by cases i <;> rfl
      rw [hback, Function.update_self, Function.update_of_ne i.other_ne, accounted_comm]

/-- The count, at a known stage. -/
theorem Balanced.counted_at {i : Process} {todo : List TelegramMessageEvent} {stage : Stage}
    (h : Balanced events owns chat s phase) (hg : phase i = ⟨todo, stage⟩)
    {event : TelegramMessageEvent} (hevent : event ∈ events) :
    accounted chat s stage (phase i.other).stage event.payload =
      if s.isProcessed event.eventId then 1 else 0 := by
  have hcount := h.counted i event hevent
  rw [hg] at hcount
  exact hcount

/-- The clock is not counted. -/
theorem Balanced.at (h : Balanced events owns chat s phase) (now : Timestamp) :
    Balanced events owns chat (s.at now) phase :=
  ⟨fun i => (h.tracks i).congr (fun _ => rfl) rfl, fun i event hevent => h.counted i event hevent⟩

/-- A step that moves no message: the stores keep what is counted, and so does the
stage. -/
theorem Balanced.silent {i : Process} (h : Balanced events owns chat s phase)
    (hprocessed : ∀ id, s'.isProcessed id = s.isProcessed id)
    (hwindow : s'.window chat = s.window chat) (hwindows : s'.windows chat = s.windows chat)
    (hself : Tracks events (owns i) chat s g')
    (hcarried : g'.stage.carried = (phase i).stage.carried)
    (hpublished : g'.stage.published = (phase i).stage.published) :
    Balanced events owns chat s' (Function.update phase i g') := by
  refine Balanced.update (hself.congr hprocessed hwindow)
    ((h.tracks i.other).congr hprocessed hwindow) fun event hevent => ?_
  have hcount := h.counted i event hevent
  unfold accounted at hcount ⊢
  rw [hcarried, hpublished, unread_congr hwindow, hwindows, hprocessed]
  exact hcount

/-- A silent step at the same event. -/
theorem Balanced.proceed {i : Process} {todo : List TelegramMessageEvent} {stage stage' : Stage}
    (h : Balanced events owns chat s phase) (hg : phase i = ⟨todo, stage⟩)
    (hprocessed : ∀ id, s'.isProcessed id = s.isProcessed id)
    (hwindow : s'.window chat = s.window chat) (hwindows : s'.windows chat = s.windows chat)
    (hstage : ∀ event, stage ≠ .selected event) (hstage' : ∀ event, stage' ≠ .selected event)
    (hflush : ∀ next messages published, stage' = .flushing next messages published →
      s.window chat = messages)
    (hcarried : stage'.carried = stage.carried) (hpublished : stage'.published = stage.published) :
    Balanced events owns chat s' (Function.update phase i ⟨todo, stage'⟩) := by
  have htracks := h.tracks i
  rw [hg] at htracks
  exact h.silent hprocessed hwindow hwindows (htracks.proceed hstage hstage' hflush)
    (by rw [hg]; exact hcarried) (by rw [hg]; exact hpublished)

theorem Stage.ne_selected {stage : Stage} (h : stage.quiet = true) (event : TelegramMessageEvent) :
    stage ≠ .selected event := by
  rintro rfl
  cases h

theorem Stage.ne_flushing {stage : Stage} (h : stage.quiet = true)
    (next : Option TelegramMessageEvent) (messages : List WindowMessagePayload)
    (published : Bool) : stage ≠ .flushing next messages published := by
  rintro rfl
  cases h

@[simp] theorem Stage.quiet_resume (next : Option TelegramMessageEvent) :
    (Stage.resume next).quiet = true := by cases next <;> rfl

/-- A silent step between stages that say nothing of the stores. -/
theorem Balanced.quietly {i : Process} {todo : List TelegramMessageEvent} {stage stage' : Stage}
    (h : Balanced events owns chat s phase) (hg : phase i = ⟨todo, stage⟩)
    (hstage : stage.quiet = true) (hstage' : stage'.quiet = true)
    (hcarried : stage'.carried = stage.carried) (hpublished : stage'.published = stage.published) :
    Balanced events owns chat s (Function.update phase i ⟨todo, stage'⟩) :=
  h.proceed hg (fun _ => rfl) rfl rfl (Stage.ne_selected hstage) (Stage.ne_selected hstage')
    (fun _ _ _ hs => absurd hs (Stage.ne_flushing hstage' _ _ _)) hcarried hpublished

/-- An event that has been handled before is passed over: it is not to be asked for any more. -/
theorem Balanced.seen {i : Process} {todo : List TelegramMessageEvent}
    {event : TelegramMessageEvent} (h : Balanced events owns chat s phase)
    (hg : phase i = ⟨event :: todo, .idle⟩)
    (hproc : s.isProcessed event.eventId = true) :
    Balanced events owns chat s (Function.update phase i ⟨todo, .idle⟩) := by
  have hself := h.tracks i
  rw [hg] at hself
  refine h.silent (fun _ => rfl) rfl rfl ⟨fun e he => ?_, fun _ hs => (by cases hs),
    fun _ _ _ hs => (by cases hs), fun e he => ?_⟩ (by rw [hg]) (by rw [hg])
  · exact hself.known e (.inl (List.mem_cons_of_mem _ (he.resolve_right fun hs => (by cases hs))))
  · rcases hself.asked e he with htodo | hsel | hdone
    · rcases List.mem_cons.mp htodo with rfl | hrest
      · exact .inr (.inr hproc)
      · exact .inl hrest
    · cases hsel
    · exact .inr (.inr hdone)

/-- A new event is the selected one: it is not marked yet. -/
theorem Balanced.unseen {i : Process} {todo : List TelegramMessageEvent}
    {event : TelegramMessageEvent} (h : Balanced events owns chat s phase)
    (hg : phase i = ⟨event :: todo, .idle⟩)
    (hproc : s.isProcessed event.eventId = false) :
    Balanced events owns chat s (Function.update phase i ⟨todo, .selected event⟩) := by
  have hself := h.tracks i
  rw [hg] at hself
  refine h.silent (fun _ => rfl) rfl rfl ⟨fun e he => ?_, fun e hs => ?_,
    fun _ _ _ hs => (by cases hs), fun e he => ?_⟩ (by rw [hg]; rfl) (by rw [hg]; rfl)
  · rcases he with hrest | hsel
    · exact hself.known e (.inl (List.mem_cons_of_mem _ hrest))
    · cases hsel
      exact hself.known event (.inl (List.mem_cons_self ..))
  · cases hs
    exact hproc
  · rcases hself.asked e he with htodo | hsel | hdone
    · rcases List.mem_cons.mp htodo with rfl | hrest
      · exact .inr (.inl rfl)
      · exact .inl hrest
    · cases hsel
    · exact .inr (.inr hdone)

/-- Setting the deadline of the list, or finding no list to set it on, moves no message. -/
theorem Balanced.expire {i : Process} {todo : List TelegramMessageEvent} {ttl : ℤ}
    (h : Balanced events owns chat s phase)
    (hg : phase i = ⟨todo, .pushed⟩)
    (hs' : s' = s ∨
      s' = s.setWindow chat (s.window chat) (some (s.now + ttl))) :
    Balanced events owns chat s' (Function.update phase i ⟨todo, .measured⟩) := by
  rcases hs' with rfl | rfl
  · exact h.quietly hg rfl rfl rfl rfl
  · exact h.proceed hg (fun _ => rfl) (World.setWindow_window ..) rfl
      (fun _ hs => by cases hs) (fun _ hs => by cases hs) (fun _ _ _ hs => by cases hs) rfl rfl

end Invariant

/-! ## One call -/

section Steps

variable [CharData] {env : Env} {events : List TelegramMessageEvent}
  {own : Process → List TelegramMessageEvent} {chat : ℤ} {y : Interleaved}
  {phase : Process → Phase} {i : Process} {todo : List TelegramMessageEvent}

/-- Every call is answered. -/
theorem Env.Reliable.run_ok (henv : env.Reliable) (c : Cmd) (s : World) :
    ∃ a, (env.run c s).1 = .ok a := by
  cases c <;> simp [Env.run, Env.fallible, henv.faults]

/-- A process in a phase in which it may not end waits for a call of the protocol. -/
theorem head_of_stage (henv : env.Reliable) (hy : y.Follows (WindowStep chat) Done phase)
    (hstage : (phase i).stage ≠ .idle) :
    ∃ c, (y.thread i).head? = some c ∧ ∃ a g', WindowStep chat (phase i) c a g' := by
  refine hy.head_of_phase (fun c => ?_) fun _ hdone => ?_
  · obtain ⟨a, -⟩ := henv.run_ok c {}
    exact ⟨a⟩
  · rw [hdone] at hstage
    exact hstage rfl

theorem inFlush_of_flushing (henv : env.Reliable) (hy : y.Follows (WindowStep chat) Done phase)
    {next : Option TelegramMessageEvent} {messages : List WindowMessagePayload} {published : Bool}
    (hstage : (phase i).stage = .flushing next messages published) :
    inFlush (y.thread i) = true := by
  obtain ⟨c, hhead, a, g', hstep⟩ := head_of_stage henv hy (by rw [hstage]; nofun)
  unfold inFlush
  rw [hhead]
  generalize phase i = g at hstep hstage
  cases hstep <;> first | rfl | cases hstage

theorem marking_of_selected (henv : env.Reliable) (hy : y.Follows (WindowStep chat) Done phase)
    {event : TelegramMessageEvent} (hstage : (phase i).stage = .selected event) :
    marking (y.thread i) = some event.eventId := by
  obtain ⟨c, hhead, a, g', hstep⟩ := head_of_stage henv hy (by rw [hstage]; nofun)
  unfold marking
  rw [hhead]
  generalize phase i = g at hstep hstage
  cases hstep <;> first | (cases hstage; done) | (cases hstage; rfl)

omit [CharData] in
/-- A message of another event is another message. -/
theorem Distinct.payload_ne (hevents : Distinct chat events) {event event' : TelegramMessageEvent}
    (hmem : event ∈ events) (hmem' : event' ∈ events) (hne : event ≠ event') :
    event.payload ≠ event'.payload := by
  intro heq
  exact hne (hevents.messageIds event hmem event' hmem'
    (congrArg WindowMessagePayload.tgMessageId heq))

/-- Undisturbed, the other process does not mark the same event. -/
theorem eventId_ne_of_selected (henv : env.Reliable)
    (hy : y.Follows (WindowStep chat) Done phase) (hund : Undisturbed y i)
    {event event' : TelegramMessageEvent} (hstage : (phase i).stage = .selected event)
    (hother : (phase i.other).stage = .selected event') : event'.eventId ≠ event.eventId := by
  have hmarking := marking_of_selected henv hy hstage
  have hmarking' := marking_of_selected henv hy hother
  intro heq
  rcases hund.marks with hnone | hne
  · rw [hmarking] at hnone
    cases hnone
  · rw [hmarking, hmarking', heq] at hne
    exact hne rfl

omit [CharData] in
theorem isProcessed_insertProcessed_of_isProcessed {s : World} {id : Ident} (eventId : Ident)
    (h : s.isProcessed id = true) : (s.insertProcessed eventId).isProcessed id = true :=
  (World.isProcessed_insertProcessed ..).mpr (.inr h)

omit [CharData] in
/-- The message of an event that has been marked is carried, and accounted for. -/
theorem Balanced.accounted_mark (hevents : Distinct chat events)
    (h : Balanced events own chat y.shared phase) {event : TelegramMessageEvent}
    (hg : phase i = ⟨todo, .selected event⟩) {event' : TelegramMessageEvent}
    (hmem' : event' ∈ events) :
    accounted chat (y.shared.insertProcessed event.eventId) (.marked event)
        (phase i.other).stage event'.payload =
      if (y.shared.insertProcessed event.eventId).isProcessed event'.eventId then 1 else 0 := by
  have hself := h.tracks i
  rw [hg] at hself
  have hcount := h.counted_at hg hmem'
  have hwindows : (y.shared.insertProcessed event.eventId).windows chat = y.shared.windows chat :=
    World.windows_congr (World.insertProcessed_log ..) chat
  unfold accounted at hcount ⊢
  have hunread : unread chat (y.shared.insertProcessed event.eventId) = unread chat y.shared :=
    unread_congr (congrFun (World.insertProcessed_window ..) chat)
  rw [hwindows, hunread]
  have hpublished : (Stage.marked event).published = (Stage.selected event).published := rfl
  rw [hpublished]
  by_cases heq : event' = event
  · subst heq
    have hnone : (Stage.selected event').carried = [] := rfl
    rw [hself.unmarked event' rfl, if_neg Bool.false_ne_true, hnone, List.count_nil] at hcount
    have hcarried : (Stage.marked event').carried.count event'.payload = 1 := by
      simp [Stage.carried]
    rw [hcarried, if_pos ((World.isProcessed_insertProcessed ..).mpr (.inl rfl))]
    omega
  · have hmem : event ∈ events := hself.known event (.inr rfl)
    have hcarried : (Stage.marked event).carried.count event'.payload = 0 := by
      rw [Stage.carried, List.count_singleton, if_neg]
      simpa using hevents.payload_ne hmem hmem' (Ne.symm heq)
    have hproc : (y.shared.insertProcessed event.eventId).isProcessed event'.eventId =
        y.shared.isProcessed event'.eventId := by
      rw [Bool.eq_iff_iff, World.isProcessed_insertProcessed]
      exact or_iff_right fun hid => heq (hevents.ids event' hmem' event hmem hid)
    rw [hcarried, hproc, ← hcount]
    rfl

/-- Marking an event: from now on the process carries its message. -/
theorem Balanced.mark (henv : env.Reliable) (hevents : Distinct chat events)
    (hy : y.Follows (WindowStep chat) Done phase) (h : Balanced events own chat y.shared phase)
    (hund : Undisturbed y i) {event : TelegramMessageEvent}
    (hg : phase i = ⟨todo, .selected event⟩) :
    Balanced events own chat (y.shared.insertProcessed event.eventId)
      (Function.update phase i ⟨todo, .marked event⟩) := by
  have hself := h.tracks i
  have hother := h.tracks i.other
  rw [hg] at hself
  refine Balanced.update ?_ ?_ fun event' hmem' => h.accounted_mark hevents hg hmem'
  · refine ⟨fun e he => hself.known e (he.imp_right fun hstage => (by cases hstage)),
      fun _ hstage => (by cases hstage), fun _ _ _ hstage => (by cases hstage), fun e he => ?_⟩
    rcases hself.asked e he with htodo | hsel | hproc
    · exact .inl htodo
    · cases hsel
      exact .inr (.inr ((World.isProcessed_insertProcessed ..).mpr (.inl rfl)))
    · exact .inr (.inr (isProcessed_insertProcessed_of_isProcessed _ hproc))
  · refine ⟨hother.known, fun e he => ?_, fun next messages published hstage => ?_,
      fun e he => (hother.asked e he).imp_right
        (Or.imp_right (isProcessed_insertProcessed_of_isProcessed _))⟩
    · have hstage : (phase i).stage = .selected event := by rw [hg]
      rw [Bool.eq_false_iff, ne_eq, World.isProcessed_insertProcessed, not_or]
      refine ⟨eventId_ne_of_selected henv hy hund hstage he, ?_⟩
      rw [hother.unmarked e he]
      exact Bool.false_ne_true
    · rw [World.insertProcessed_window]
      exact hother.reading _ _ _ hstage

/-- A process that waits for another call than a flush's is not in one. -/
theorem other_not_flushing (henv : env.Reliable)
    (hy : y.Follows (WindowStep chat) Done phase)
    (hfree : inFlush (y.thread i.other) = false) (next : Option TelegramMessageEvent)
    (messages : List WindowMessagePayload) (published : Bool) :
    (phase i.other).stage ≠ .flushing next messages published := by
  intro hstage
  rw [inFlush_of_flushing henv hy hstage] at hfree
  cases hfree

omit [CharData] in
theorem Stage.not_published {stage : Stage}
    (h : ∀ next messages published, stage ≠ .flushing next messages published) :
    stage.published = false := by
  cases stage with
  | flushing next messages published => exact absurd rfl (h next messages published)
  | _ => rfl

/-- Storing a message: the process hands it over to the list. -/
theorem Balanced.push (henv : env.Reliable) (hy : y.Follows (WindowStep chat) Done phase)
    (h : Balanced events own chat y.shared phase) {event : TelegramMessageEvent}
    (hg : phase i = ⟨todo, .ready event⟩) (hfree : inFlush (y.thread i.other) = false)
    (deadline : Option Timestamp) :
    Balanced events own chat
      (y.shared.setWindow chat (y.shared.window chat ++ [event.payload]) deadline)
      (Function.update phase i ⟨todo, .pushed⟩) := by
  have hother := other_not_flushing henv hy hfree
  have hself := h.tracks i
  rw [hg] at hself
  refine Balanced.update ?_ ?_ fun event' hmem => ?_
  · exact (hself.proceed (fun _ hs => by cases hs) (fun _ hs => by cases hs)
      (fun _ _ _ hs => by cases hs)).of_not_flushing (fun _ => rfl) (fun _ _ _ hs => by cases hs)
  · exact (h.tracks i.other).of_not_flushing (fun _ => rfl) hother
  · have hcount := h.counted_at hg hmem
    have hcarried : (Stage.ready event).carried = [event.payload] := rfl
    have hcarried' : Stage.pushed.carried = [] := rfl
    unfold accounted unread at hcount ⊢
    rw [Stage.not_published hother] at hcount ⊢
    rw [hcarried] at hcount
    rw [hcarried', World.setWindow_window, List.count_append, List.count_nil]
    refine Eq.trans ?_ hcount
    have hwindows : (y.shared.setWindow chat (y.shared.window chat ++ [event.payload])
      deadline).windows chat = y.shared.windows chat := rfl
    rw [hwindows]
    simp only [Stage.published, Bool.or_false, Bool.false_eq_true, if_false]
    omega

/-- Announcing the window: its messages move from the list to the windows. -/
theorem Balanced.announce (henv : env.Reliable) (hy : y.Follows (WindowStep chat) Done phase)
    (h : Balanced events own chat y.shared phase) {next : Option TelegramMessageEvent}
    {event : TelegramPreprocessedEvent} (hg : phase i = ⟨todo, .flushing next event.messages false⟩)
    (hchat : event.tgChatId = chat) (hfree : inFlush (y.thread i.other) = false) (calls : ℕ) :
    Balanced events own chat
      { y.shared with log := y.shared.log ++ [.preprocessed event], calls }
      (Function.update phase i ⟨todo, .flushing next event.messages true⟩) := by
  have hother := other_not_flushing henv hy hfree
  have hself := h.tracks i
  rw [hg] at hself
  have hwindow := hself.reading next event.messages false rfl
  have hwindows : World.windows
      { y.shared with log := y.shared.log ++ [.preprocessed event], calls } chat =
        y.shared.windows chat ++ [event.messages] := by
    simp [World.windows, World.preprocessed, StreamEntry.asPreprocessed, hchat]
  refine Balanced.update ?_ ?_ fun event' hmem => ?_
  · refine (hself.proceed (fun _ hs => by cases hs) (fun _ hs => by cases hs)
      (fun _ _ _ hs => ?_)).congr (fun _ => rfl) rfl
    cases hs
    exact hwindow
  · exact (h.tracks i.other).of_not_flushing (fun _ => rfl) hother
  · have hcount := h.counted_at hg hmem
    unfold accounted unread at hcount ⊢
    rw [Stage.not_published hother, Stage.carried_flushing] at hcount ⊢
    rw [hwindows, List.flatten_append, List.count_append]
    refine Eq.trans ?_ hcount
    simp [Stage.published, hwindow]

/-- Deleting a published list. -/
theorem Balanced.clear (henv : env.Reliable) (hy : y.Follows (WindowStep chat) Done phase)
    (h : Balanced events own chat y.shared phase) {next : Option TelegramMessageEvent}
    {messages : List WindowMessagePayload} (hg : phase i = ⟨todo, .flushing next messages true⟩)
    (hfree : inFlush (y.thread i.other) = false) :
    Balanced events own chat (y.shared.setWindow chat [] none).tick
      (Function.update phase i ⟨todo, .resume next⟩) := by
  have hother := other_not_flushing henv hy hfree
  have hself := h.tracks i
  rw [hg] at hself
  have hresume := Stage.ne_flushing (Stage.quiet_resume next)
  have hresume' := Stage.ne_selected (Stage.quiet_resume next)
  have hempty : (y.shared.setWindow chat [] none).tick.window chat = [] :=
    World.setWindow_window y.shared chat [] none
  refine Balanced.update ?_ ?_ fun event' hmem => ?_
  · exact (hself.proceed (fun _ hs => by cases hs) hresume'
      (fun _ _ _ hs => absurd hs (hresume _ _ _))).of_not_flushing (fun _ => rfl) hresume
  · exact (h.tracks i.other).of_not_flushing (fun _ => rfl) hother
  · have hcount := h.counted_at hg hmem
    unfold accounted unread at hcount ⊢
    rw [Stage.not_published hother, Stage.carried_flushing] at hcount
    rw [Stage.not_published hother, Stage.carried_resume, Stage.published_resume, hempty]
    exact hcount

theorem Env.Reliable.run_xadd (henv : env.Reliable) (s : World) (entry : StreamEntry) :
    (env.run (.xadd entry) s).2 = { s with log := s.log ++ [entry], calls := s.calls + 1 } := by
  rw [env.run_xadd_ok (henv.faults _ _)]

/-- **One call of the protocol keeps the balance**, if it is undisturbed. -/
theorem Balanced.step (henv : env.Reliable) (hevents : Distinct chat events)
    (hy : y.Follows (WindowStep chat) Done phase) (h : Balanced events own chat y.shared phase)
    (hund : Undisturbed y i) {c : Cmd} {a : Ans c} {g' : Phase}
    (hhead : (y.thread i).head? = some c) (ha : (env.run c y.shared).1 = .ok a)
    (hstep : WindowStep chat (phase i) c a g') :
    Balanced events own chat (env.run c y.shared).2 (Function.update phase i g') := by
  have hself := h.tracks i
  have halone : inFlush (y.thread i) = true → inFlush (y.thread i.other) = false := fun hin =>
    Bool.eq_false_iff.mpr fun hother => hund.flushes ⟨hin, hother⟩
  have hlive : ∀ messages, (env.run (.lrange chat) y.shared).1 = .ok messages →
      y.shared.window chat = messages := fun messages hm => by
    rw [← henv.live_eq]
    exact Except.ok.inj hm
  generalize hg : phase i = g at hstep
  rw [hg] at hself
  cases hstep with
  | seen event todo =>
    exact h.seen hg (Except.ok.inj ha)
  | unseen event todo =>
    exact h.unseen hg (Except.ok.inj ha)
  | mark event todo => exact h.mark henv hevents hy hund hg
  | keep event todo messages =>
    exact h.quietly hg rfl rfl rfl rfl
  | rollover event todo messages =>
    exact h.quietly hg rfl rfl rfl rfl
  | empty next todo =>
    exact h.quietly hg rfl (Stage.quiet_resume next) (Stage.carried_resume next)
      (Stage.published_resume next)
  | read next todo messages =>
    refine h.proceed hg (fun _ => rfl) rfl rfl (fun _ hs => by cases hs) (fun _ hs => by cases hs)
      (fun _ _ _ hs => ?_) (Stage.carried_flushing ..) rfl
    cases hs
    exact hlive messages ha
  | name next todo messages windowId =>
    refine h.proceed hg (fun _ => rfl) rfl rfl (fun _ hs => by cases hs) (fun _ hs => by cases hs)
      (fun _ _ _ hs => ?_) rfl rfl
    exact hself.reading _ _ _ hs
  | analyse next todo messages input state =>
    rw [env.run_ainvoke_ok (henv.faults _ _)]
    exact h.proceed hg (fun _ => rfl) rfl rfl (fun _ hs => by cases hs) (fun _ hs => by cases hs)
      hself.reading rfl rfl
  | announce next todo event hchat =>
    rw [henv.run_xadd]
    exact h.announce henv hy hg hchat (halone (by simp [inFlush, hhead])) _
  | publish next todo messages entry hentry =>
    rw [henv.run_xadd]
    refine h.proceed hg (fun _ => rfl) rfl ?_ (fun _ hs => by cases hs) (fun _ hs => by cases hs)
      hself.reading rfl rfl
    simp [World.windows, World.preprocessed, hentry]
  | clear next todo messages =>
    rw [env.run_delete_ok (henv.faults _ _)]
    exact h.clear henv hy hg (halone (by simp [inFlush, hhead]))
  | push event todo =>
    have hfree : inFlush (y.thread i.other) = false := by
      refine Bool.eq_false_iff.mpr fun hin => hund.pushes ⟨?_, hin⟩
      simp [pushing, hhead]
    have hpushed := h.push henv hy hg hfree
      (if env.live y.shared chat = [] then none else y.shared.deadline chat)
    rw [← henv.live_eq y.shared chat] at hpushed
    exact hpushed
  | expire todo ttl =>
    exact h.expire hg (ite_eq_or_eq ..)
  | fits todo size =>
    exact h.quietly hg rfl rfl rfl rfl
  | full todo size =>
    exact h.quietly hg rfl rfl rfl rfl
  | residual messages =>
    exact h.quietly hg rfl rfl rfl rfl
  | done messages =>
    exact h.quietly hg rfl rfl rfl rfl

end Steps

/-! ## Whole interleavings -/

/-- The events each process hands to `_handle_message`. -/
def handled (args : BackfillArgs) (events stream : List TelegramMessageEvent) :
    Process → List TelegramMessageEvent
  | .live => events
  | .backfill => args.replayed stream

/-- Each process keeps to the window protocol. -/
theorem program_follows (settings : Settings) (args : BackfillArgs)
    {events stream : List TelegramMessageEvent} {chat : ℤ}
    (h : ∀ i, ∀ event ∈ handled args events stream i, event.tgChatId = chat) (s : World) :
    System.Follows (WindowStep chat) Done (⟨s, program settings args events stream⟩ : Interleaved)
      fun i => ⟨accepted (handled args events stream i), .idle⟩
  | .live => consume_follows settings (h .live)
  | .backfill => (runBackfill_follows settings args (h .backfill)).bind fun _ _ hg =>
      Prog.follows_ret.mpr hg

theorem balanced_start {all : List TelegramMessageEvent}
    {own : Process → List TelegramMessageEvent} {chat : ℤ} {s : World}
    (hown : ∀ i, ∀ event ∈ own i, event ∈ all) (hfresh : Fresh chat all s) :
    Balanced all own chat s fun i => ⟨own i, .idle⟩ := by
  refine ⟨fun i => ⟨fun event hevent => ?_, fun _ hs => (by cases hs),
    fun _ _ _ hs => (by cases hs), fun event hevent => .inl hevent⟩, fun i event hevent => ?_⟩
  · exact hown i event (hevent.resolve_right fun hs => by cases hs)
  · have hunseen := hfresh.unseen event hevent
    rw [List.mem_append, not_or] at hunseen
    have hnone : Stage.idle.carried = [] := rfl
    unfold accounted unread
    rw [hfresh.unprocessed event hevent, hnone, List.count_nil, List.count_eq_zero.mpr hunseen.1,
      List.count_eq_zero.mpr hunseen.2]
    simp

/-- **Exactly once.**  Let the live consumer and a backfill handle events of one chat that
the stores have not seen, the backfill possibly some of the same.  If every step is
undisturbed and both processes come to their ends, then each accepted message is exactly
once in the windows or in the list. -/
theorem exactly_once_of_undisturbed [CharData] {env : Env} (henv : env.Reliable)
    (settings : Settings) (args : BackfillArgs) {chat : ℤ}
    {all events stream : List TelegramMessageEvent} {s : World} (hall : Distinct chat all)
    (hfresh : Fresh chat all s) (hown : ∀ i, ∀ event ∈ handled args events stream i, event ∈ all)
    {schedule : List (Process × Timestamp)}
    (hund : env.UndisturbedRun settings args events stream s schedule)
    (hend : (env.interleave settings args events stream s schedule).Quiescent) (i : Process) :
    ExactlyOnce (env.interleave settings args events stream s schedule).shared chat
      (handled args events stream i) := by
  obtain ⟨phase, hfollows, hbalanced⟩ := System.walk_invariant henv.run_ok
    (I := Balanced all (fun i => accepted (handled args events stream i)) chat)
    (fun _ now _ h => h.at now)
    (fun y phase i c a g' hy h hu hhead ha hstep => h.step henv hall hy hu hhead ha hstep)
    schedule _ _
    (program_follows settings args (fun i event hevent => hall.chat_eq event (hown i event hevent)) s)
    (balanced_start (fun i event hevent => hown i event (List.mem_of_mem_filter hevent)) hfresh)
    hund
  have hdone : ∀ j, phase j = ⟨[], .idle⟩ := fun j =>
    (hfollows.post_of_finished (hend j)).elim fun _ h => h
  intro event hevent hacc
  have hproc : (env.interleave settings args events stream s schedule).shared.isProcessed
      event.eventId = true := by
    have hasked := (hbalanced.tracks i).asked event (List.mem_filter.mpr ⟨hevent, hacc⟩)
    rw [hdone i] at hasked
    rcases hasked with htodo | hsel | hproc
    · cases htodo
    · cases hsel
    · exact hproc
  have hcount := hbalanced.counted_at (hdone i) (hown i event hevent)
  rw [← Env.interleave, hproc, hdone i.other, if_pos rfl] at hcount
  rw [List.count_append]
  exact hcount

/-! ## A run in which a message is lost -/

/-- One message from Telegram, -/
def liveEvents : List TelegramMessageEvent :=
  [{ eventId := 1, occurredAt := 0, tgChatId := 7, tgMessageId := 1, text := some "a" }]

/-- and one that is only in the stream. -/
def replayedEvents : List TelegramMessageEvent :=
  [{ eventId := 2, occurredAt := seconds 1, tgChatId := 7, tgMessageId := 2, text := some "b" }]

/-- Each process in turn, for as many calls as are given. -/
def turns (counts : List (Process × ℕ)) : List (Process × Timestamp) :=
  counts.flatMap fun entry => List.replicate entry.2 (entry.1, seconds 2)

theorem distinct_liveEvents : Distinct 7 (liveEvents ++ replayedEvents) :=
  ⟨by decide, by decide, by decide⟩

theorem exactly_once_of_undisturbed_turns :
    ExactlyOnce (@Env.interleave basicCharData calmEnv { analysisWindowSize := 2 } {} liveEvents
      replayedEvents {} (turns [(.live, 5), (.backfill, 2), (.live, 1), (.backfill, 20)])).shared 7
      (handled {} liveEvents replayedEvents .backfill) :=
  @exactly_once_of_undisturbed basicCharData calmEnv calmEnv_reliable { analysisWindowSize := 2 } {}
    7 (liveEvents ++ replayedEvents) liveEvents replayedEvents {} distinct_liveEvents
    ⟨by decide, by decide⟩ (by intro i; cases i <;> decide)
    (turns [(.live, 5), (.backfill, 2), (.live, 1), (.backfill, 20)]) (by
      unfold Env.UndisturbedRun
      decide)
    (by intro i; cases i <;> decide) .backfill

/-- The backfill stores its message while the live consumer waits for the analysis of the
window before it.  The deletion that follows takes the message along. -/
theorem not_exactly_once_turns :
    (@Env.interleave basicCharData calmEnv { analysisWindowSize := 1 } {} liveEvents replayedEvents
      {} (turns [(.live, 7), (.backfill, 4), (.live, 6), (.backfill, 4)])).Quiescent ∧
    ¬ ExactlyOnce (@Env.interleave basicCharData calmEnv { analysisWindowSize := 1 } {} liveEvents
      replayedEvents {} (turns [(.live, 7), (.backfill, 4), (.live, 6), (.backfill, 4)])).shared 7
      (handled {} liveEvents replayedEvents .backfill) := by
  constructor
  · intro i
    cases i <;> decide
  · unfold ExactlyOnce
    decide

end Orchestrator
end PersonalIntelligence
