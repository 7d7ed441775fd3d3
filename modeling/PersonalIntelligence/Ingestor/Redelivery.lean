import PersonalIntelligence.Ingestor.Handlers
import PersonalIntelligence.Library.Runs
import PersonalIntelligence.Orchestrator.Redelivery

/-!
# A message that Telegram delivers twice

The ingestor and the consumer of its stream, step by step: an update is received, or the
next entry of the stream is handled.  The ingestor gives every delivery of a message a new
event id, so the consumer takes the second delivery for another message, and analyses it
again if the window with the first one has been emitted by then.  That is the only way:
a run in which no entry `Repeats` a message emits every message at most once
(`emissions_le_one`).
-/

namespace PersonalIntelligence
namespace Ingestor

/-- The ingestor, the consumer, and how many entries the consumer has been given. -/
structure Pipeline where
  ingestor : World := {}
  consumer : Orchestrator.World := {}
  read : ℕ := 0

/-- What happens next. -/
inductive Step where
  /-- Telegram delivers the message. -/
  | receive (message : Message) (serialized : Storage.Bytes) (now : Timestamp)
  /-- The consumer reads an entry and handles it. -/
  | handle (now : Timestamp)
  deriving DecidableEq, Repr

/-- What is around the two services. -/
structure Surroundings where
  ingestor : Env := {}
  s3 : Storage.S3Client
  consumer : Orchestrator.Env
  settings : Orchestrator.Settings := {}

namespace Pipeline

variable [PyText.CharData] (env : Surroundings)

/-- The entry the consumer reads next. -/
def next (y : Pipeline) : Option TelegramMessageEvent := y.ingestor.stream[y.read]?

def step (y : Pipeline) : Step → Pipeline
  | .receive message serialized now =>
    { y with ingestor := env.ingestor.receive env.s3 y.ingestor serialized message now }
  | .handle now =>
    match y.next with
    | some event =>
      { y with
        consumer := env.consumer.deliver env.settings (y.consumer.at now) event
        read := y.read + 1 }
    | none => y

/-- The entry that is handled does not repeat a message. -/
def NoRepeat (y : Pipeline) : Step → Prop
  | .receive _ _ _ => True
  | .handle now => ∀ event ∈ y.next,
    ¬ env.consumer.Repeats env.settings (y.consumer.at now) event

theorem once_step (hcalm : ∀ n c, env.consumer.faults n c = false) (y : Pipeline) (x : Step)
    (h : y.consumer.Once) (hx : y.NoRepeat env x) : (y.step env x).consumer.Once := by
  cases x with
  | receive message serialized now => exact h
  | handle now =>
    cases hnext : y.next with
    | none =>
      simp only [step, hnext]
      exact h
    | some event =>
      have hat : (y.consumer.at now).Once := h.congr rfl rfl
      simp only [step, hnext]
      exact hat.deliver hcalm env.settings (hx event hnext)

end Pipeline

/-- **Redelivered messages.**  In a run whose analyses succeed, every message is in at most
one command, provided that no handled entry repeats a message: an entry with a new event id
whose message has been emitted already, or is emitted to make room for it. -/
theorem emissions_le_one [PyText.CharData] (env : Surroundings)
    (hcalm : ∀ n c, env.consumer.faults n c = false) (steps : List Step)
    (hsteps : Runs.Meets (Pipeline.step env) (Pipeline.NoRepeat env) {} steps) :
    ∀ handled, handled <+: steps → ∀ chat id,
      (handled.foldl (Pipeline.step env) {}).consumer.emissions chat id ≤ 1 := by
  intro handled hprefix
  have honce := hsteps.forall_prefix (I := fun y => y.consumer.Once)
    (Pipeline.once_step env hcalm) Orchestrator.World.once_start handled hprefix
  exact honce.emitted

/-- A private message. -/
def greeting : Message where
  messageId := 1
  chat := { id := 7, type := "private", fullName := "Anna" }
  fromUser := some { id := 7, fullName := "Anna" }
  date := some 0
  text := some "hello"

/-- No object store, a router with one answer, and windows of one message. -/
def singly : Surroundings where
  s3 := ⟨"", "", "", ""⟩
  consumer := Orchestrator.calmEnv
  settings := { analysisWindowSize := 1 }

/-- Windows of two messages. -/
def inPairs : Surroundings := { singly with settings := { analysisWindowSize := 2 } }

/-- The message is delivered twice, and both copies are handled.  They meet in one window, and it is
emitted once. -/
theorem emissions_le_one_greeting :
    let _ := PyText.basicCharData
    let steps := [Step.receive greeting [] 0, .receive greeting [] 1, .handle 2, .handle 3]
    (steps.foldl (Pipeline.step inPairs) {}).consumer.emissions 7 1 = 1 ∧
      ∀ handled, handled <+: steps → ∀ chat id,
        (handled.foldl (Pipeline.step inPairs) {}).consumer.emissions chat id ≤ 1 := by
  let _ := PyText.basicCharData
  refine ⟨by decide, emissions_le_one inPairs (fun _ _ => rfl) _
    ⟨trivial, trivial, fun event hevent => ?_, fun event hevent => ?_, trivial⟩⟩
  · obtain rfl := Option.some.inj hevent
    decide
  · obtain rfl := Option.some.inj hevent
    decide

/-- The message is delivered again once its window has been emitted. -/
theorem not_emissions_le_one_greeting :
    let _ := PyText.basicCharData
    ¬ ∀ handled, handled <+: [Step.receive greeting [] 0, .handle 1, .receive greeting [] 2,
      .handle 3] →
      ∀ chat id, (handled.foldl (Pipeline.step singly) {}).consumer.emissions chat id ≤ 1 := by
  intro _ h
  have htwice := h _ List.prefix_rfl 7 1
  revert htwice
  decide

end Ingestor
end PersonalIntelligence
