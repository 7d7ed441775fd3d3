import PersonalIntelligence.Ingestor.Handlers
import PersonalIntelligence.Memory.ArtifactKeys

/-!
# Keys that address what was stored

Two services put objects into the raw bucket and record their keys.  The projector records
the key that `put_raw` returns.  The ingestor records the key it passed to `put_raw`, which
lacks the prefix; `get_raw` uses a key as it is.  So the key of an event does not lead to
its message, unless the bucket has the same bytes under the key without the prefix
(`keysAddress_iff`).

The keys themselves are good: different messages, days and windows have different ones.
-/

namespace PersonalIntelligence
namespace Ingestor

open Resumption Storage Formatting

/-! ## The format of the keys -/

/-- The fields of a key, after its first. -/
theorem toList_formatKey (date : Calendar.Date) (chatId messageId : ℤ) :
    (formatKey date chatId messageId).toList =
      (Int.repr date.year).toList ++ '/' :: ((pad2 date.month).toList ++ '/' ::
        ((pad2 date.day).toList ++ '/' :: ((Int.repr chatId).toList ++ '/' ::
          ((Int.repr messageId).toList ++ ".json".toList)))) := by
  simp [formatKey]

/-- **Different messages or dates** have different keys. -/
theorem formatKey_inj {date date' : Calendar.Date} {chat chat' id id' : ℤ}
    (h : formatKey date chat id = formatKey date' chat' id') :
    date = date' ∧ chat = chat' ∧ id = id' := by
  have hslash : ∀ n : ℤ, '/' ∉ (Int.repr n).toList := notMem_repr_int (by decide) (by decide)
  have hslash2 : ∀ n : ℕ, '/' ∉ (pad2 n).toList := notMem_pad2 (by decide)
  have hlist := congrArg String.toList h
  rw [toList_formatKey, toList_formatKey] at hlist
  obtain ⟨hyear, hlist⟩ := field_inj (hslash _) (hslash _) hlist
  obtain ⟨hmonth, hlist⟩ := field_inj (hslash2 _) (hslash2 _) hlist
  obtain ⟨hday, hlist⟩ := field_inj (hslash2 _) (hslash2 _) hlist
  obtain ⟨hchat, hlist⟩ := field_inj (hslash _) (hslash _) hlist
  have hid := String.toList_injective (List.append_cancel_right hlist)
  refine ⟨?_, repr_int_injective hchat, repr_int_injective hid⟩
  cases date
  cases date'
  simp only at hyear hmonth hday
  rw [repr_int_injective hyear, pad2_injective hmonth, pad2_injective hday]

/-- The key of a message is not the key of a window. -/
theorem formatKey_ne_path (idText : Ident → String) (date : Calendar.Date) (chat id : ℤ)
    (key : Memory.ArtifactKey) : "raw/" ++ formatKey date chat id ≠ key.path idText := by
  intro h
  have hlist := congrArg String.toList ((String.append_right_inj _).mp h)
  have hpath : ("analysis-windows/" ++ idText key.windowId ++ ".json").toList =
      "analysis-windows".toList ++ '/' :: ((idText key.windowId).toList ++ ".json".toList) := by
    simp
  rw [toList_formatKey, hpath] at hlist
  obtain ⟨hyear, -⟩ := field_inj (notMem_repr_int (by decide) (by decide) _) (by decide) hlist
  have hletter : 'a' ∉ (Int.repr date.year).toList := notMem_repr_int (by decide) (by decide) _
  rw [hyear] at hletter
  exact hletter (by decide)

/-! ## The keys that are recorded -/

/-- In every state that projections reach, a projection that commits records the key of its
artifact with the interaction of its window, and deleting by it removes this artifact and
nothing else. -/
def EveryArtifactAddressed [PyText.CharData] (idText : Ident → String)
    (dump : Memory.Artifact → Bytes) (s3 : S3Client) : Prop :=
  ∀ (env : Memory.Env) (settings : Memory.Settings), settings.s3Configured = true →
    ∀ (mentions : List Memory.Mention) (annotations : List Memory.RelationshipAnnotation)
      (owners : List Memory.OwnerProfile) (deliveries : List (Memory.StreamEntry × Timestamp))
      (command : ProjectionCommand) (projected : Memory.Projected) (s' : Memory.World)
      (buckets : Buckets),
      let s := env.deliverAll settings (.start mentions annotations owners) deliveries
      exec env.run (Memory.transaction (Memory.projectBody settings command)) s =
          (.ok projected, s') →
        Memory.Represents idText dump s3 s.objects buckets →
          Memory.RefersToArtifact idText dump s3 command projected s'.db s'.objects buckets

/-- Every recorded key addresses the object that was stored: the key of the event its
message, in the buckets `objects`, and the key of an interaction its artifact. -/
structure KeysAddress [PyText.CharData] (idText : Ident → String)
    (dump : Memory.Artifact → Bytes) (s3 : S3Client) (event : TelegramMessageEvent)
    (serialized : Bytes) (objects : Buckets) : Prop where
  message : ∃ key ∈ event.rawS3Key,
    (exec serving (s3.getRaw key) objects).1 = .ok serialized
  artifact : EveryArtifactAddressed idText dump s3
  messages : ∀ ts ts' chat chat' id id',
    formatKey (Calendar.dateOf ts) chat id = formatKey (Calendar.dateOf ts') chat' id' →
      ts / Calendar.dayLength = ts' / Calendar.dayLength ∧ chat = chat' ∧ id = id'
  windows : Function.Injective (Memory.ArtifactKey.path idText)
  apart : ∀ ts chat id key,
    "raw/" ++ formatKey (Calendar.dateOf ts) chat id ≠ Memory.ArtifactKey.path idText key

section Receive

variable {env : Env} {s3 : S3Client} {serialized : Bytes} {message : Message} {s : World}
  {now : Timestamp} {event : TelegramMessageEvent}

/-- A message that was put and published: the recorded key, and where the object is. -/
theorem receive_of_put (hs3 : s3.isConfigured = true)
    (hput : env.faults s.calls
      (putCall s3 serialized ((s.at now).storageKey message)) = false)
    (hpub : (env.receive s3 s serialized message now).stream = s.stream ++ [event]) :
    event.rawS3Key = some ((s.at now).storageKey message) ∧
      (env.receive s3 s serialized message now).objects =
        s.objects.set s3.bucketRaw ("raw/" ++ (s.at now).storageKey message)
          (some ⟨serialized, "application/json"⟩) := by
  obtain ⟨rawKey, s₁, hstore, -, -, hstream, hexec⟩ :=
    exec_onBusinessMessage env s3 serialized message (s.at now)
  rw [exec_storeRaw, if_neg (by simp [hs3])] at hstore
  change (if env.faults s.calls _ = true then _ else _) = _ at hstore
  rw [hput] at hstore
  obtain ⟨hkey, rfl⟩ := Prod.mk.inj hstore
  obtain rfl := Except.ok.inj hkey
  unfold Env.receive at hpub ⊢
  rw [hexec] at hpub ⊢
  simp only [Env.run] at hpub ⊢
  split_ifs at hpub ⊢ with hfault
  · have hlength := congrArg List.length hpub
    simp [World.tick, World.at] at hlength
  · obtain rfl := List.singleton_inj.mp (List.append_cancel_left hpub)
    exact ⟨rfl, rfl⟩

variable [PyText.CharData] {idText : Ident → String} {dump : Memory.Artifact → Bytes}

/-- **The recorded keys** address what was stored exactly if the bytes of the message were
in the bucket already, under the key without the prefix. -/
theorem keysAddress_iff (hid : Function.Injective idText) (hs3 : s3.isConfigured = true)
    (hput : env.faults s.calls
      (putCall s3 serialized ((s.at now).storageKey message)) = false)
    (hpub : (env.receive s3 s serialized message now).stream = s.stream ++ [event]) :
    KeysAddress idText dump s3 event serialized (env.receive s3 s serialized message now).objects ↔
      ∃ contentType, s.objects s3.bucketRaw ((s.at now).storageKey message) =
        some ⟨serialized, contentType⟩ := by
  obtain ⟨hkey, hobjects⟩ := receive_of_put hs3 hput hpub
  -- the object is under a longer key than the recorded one
  have hlonger : ∀ key : String, key ≠ "raw/" ++ key := by
    intro key h
    have hlength := congrArg String.length h
    rw [String.length_append] at hlength
    have hprefix : "raw/".length = 4 := by decide
    omega
  have hget : (∃ key ∈ event.rawS3Key, (exec serving (s3.getRaw key)
      (env.receive s3 s serialized message now).objects).1 = .ok serialized) ↔
      ∃ contentType, s.objects s3.bucketRaw ((s.at now).storageKey message) =
        some ⟨serialized, contentType⟩ := by
    rw [hkey]
    simp only [Option.mem_def, Option.some.injEq, exists_eq_left', exec_getRaw_eq_ok_iff, hobjects,
      Buckets.set_of_ne_key (hlonger _)]
  constructor
  · intro h
    exact hget.mp h.message
  · intro h
    refine ⟨hget.mpr h, ?_, ?_, Memory.path_injective hid,
      fun ts chat id key => formatKey_ne_path idText _ chat id key⟩
    · intro env' settings hsettings mentions annotations owners deliveries command projected s'
        buckets t hexec hrep
      exact Memory.exists_recorded_ref idText dump s3 env' settings hid hs3 hsettings mentions
        annotations owners deliveries rfl hexec hrep
    · intro ts ts' chat chat' id id' h
      obtain ⟨hdate, hchat, hmessage⟩ := formatKey_inj h
      exact ⟨(Calendar.dateOf_eq_iff ts ts').mp hdate, hchat, hmessage⟩

end Receive

/-- A message of 1 January 1970. -/
def note : Message where
  messageId := 1
  chat := { id := 7, type := "private", fullName := "Anna" }
  date := some 0
  text := some "hello"

/-- A client that is configured. -/
def rawClient : S3Client := ⟨"key", "secret", "raw", "media"⟩

/-- The event of the message. -/
def noteEvent : TelegramMessageEvent := messageEvent note (some "1970/01/01/7/1.json") 0 5

theorem keysAddress_iff_note :
    let _ := PyText.basicCharData
    KeysAddress Nat.repr (fun _ => []) rawClient noteEvent [1]
        (Env.receive {} rawClient {} [1] note 5).objects ↔
      ∃ contentType, ({} : World).objects "raw" (World.storageKey (World.at {} 5) note) =
        some ⟨[1], contentType⟩ := by
  intro _
  exact keysAddress_iff repr_nat_injective (by decide) rfl (by decide)

/-- The object is under `raw/1970/01/01/7/1.json`, and the event says
`1970/01/01/7/1.json`. -/
theorem not_keysAddress_note :
    let _ := PyText.basicCharData
    (Env.receive {} rawClient {} [1] note 5).stream = [noteEvent] ∧
      (Env.receive {} rawClient {} [1] note 5).objects "raw" "raw/1970/01/01/7/1.json" =
        some ⟨[1], "application/json"⟩ ∧
      ¬ KeysAddress Nat.repr (fun _ => []) rawClient noteEvent [1]
        (Env.receive {} rawClient {} [1] note 5).objects := by
  intro _
  refine ⟨by decide, by decide, fun h => ?_⟩
  obtain ⟨key, hkey, hget⟩ := h.message
  obtain rfl := Option.some.inj hkey
  revert hget
  decide

end Ingestor
end PersonalIntelligence
