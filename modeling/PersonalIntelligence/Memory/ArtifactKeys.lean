import PersonalIntelligence.Memory.ErasedArtifacts
import PersonalIntelligence.Memory.ProjectedTables
import PersonalIntelligence.Storage.S3Client

/-!
# The keys of the artifacts

The projector keeps an artifact by its window.  In the bucket it is an object under the
key that `put_raw` returns, and that key is recorded with the interaction.  `Represents`
relates the two: the objects under the keys of the windows are the artifacts.  Writing an
artifact and deleting by a recorded key keep the relation.

The interaction of a window is the row that `_upsert_interaction` has returned, whether it
was there or is new; it is the only row with its id, of the chat of the command and of the
time of its first message (`IsInteractionOf`).  This row has the key, and the deletion by it
touches one object only (`exists_recorded_ref`).

How an identifier is written, and how an artifact is dumped, is left open; different
identifiers are written differently.
-/

namespace PersonalIntelligence
namespace Memory

open Resumption Storage

variable (idText : Ident → String) (dump : Artifact → Bytes) (s3 : S3Client)

/-- The key of an artifact, as a text. -/
def ArtifactKey.path (key : ArtifactKey) : String :=
  "raw/" ++ ("analysis-windows/" ++ idText key.windowId ++ ".json")

/-- `_write_artifact`, as the client of the object store sees it. -/
def writeArtifactObject (windowId : Ident) (command : ProjectionCommand) :
    Storing (Option String) :=
  if s3.isConfigured then do
    let key ← s3.putRaw ("analysis-windows/" ++ idText windowId ++ ".json")
      (dump (artifact windowId command))
    pure (some key)
  else pure none

/-- The raw bucket has the artifacts under their keys. -/
def Represents (objects : ArtifactKey → Option Artifact) (buckets : Buckets) : Prop :=
  ∀ key : ArtifactKey,
    (buckets s3.bucketRaw (key.path idText)).map (·.body) = (objects key).map dump

section Keys

variable {idText} {dump} {s3}

/-- Different windows have different keys. -/
theorem path_injective (hid : Function.Injective idText) :
    Function.Injective (ArtifactKey.path idText) := by
  intro key key' h
  have htext : idText key.windowId = idText key'.windowId := by
    simpa [ArtifactKey.path] using h
  cases key
  cases key'
  exact congrArg ArtifactKey.mk (hid htext)

variable {objects : ArtifactKey → Option Artifact} {buckets : Buckets}

/-- One object of the bucket, and the artifact of its window. -/
theorem Represents.set (hid : Function.Injective idText)
    (h : Represents idText dump s3 objects buckets) (key : ArtifactKey) {body : Option Artifact}
    {object : Option Object} (hbody : object.map (·.body) = body.map dump) :
    Represents idText dump s3 (Function.update objects key body)
      (buckets.set s3.bucketRaw (key.path idText) object) := by
  intro key'
  by_cases hkey : key' = key
  · subst hkey
    rw [Buckets.set_same, Function.update_self]
    exact hbody
  · have hpath : key'.path idText ≠ key.path idText := fun heq => hkey (path_injective hid heq)
    rw [Buckets.set_of_ne_key hpath, Function.update_of_ne hkey]
    exact h key'

theorem exec_writeArtifactObject (hs3 : s3.isConfigured = true) (windowId : Ident)
    (command : ProjectionCommand) (buckets : Buckets) :
    exec serving (writeArtifactObject idText dump s3 windowId command) buckets =
      (.ok (some (ArtifactKey.path idText ⟨windowId⟩)),
        buckets.set s3.bucketRaw (ArtifactKey.path idText ⟨windowId⟩)
          (some ⟨dump (artifact windowId command), "application/json"⟩)) := by
  unfold writeArtifactObject
  rw [if_pos hs3, exec_bind, exec_putRaw]
  rfl

end Keys

/-! ## The interaction of a window -/

/-- The row that `_upsert_interaction` has returned for the command: it is of the chat, and
it starts with the first message. -/
structure IsInteractionOf (command : ProjectionCommand) (projected : Projected) (db : Db)
    (row : Interaction) : Prop where
  mem : row ∈ db.interaction
  returned : row.id = projected.interactionId
  unique : ∀ other ∈ db.interaction, other.id = projected.interactionId → other = row
  chat : db.HasChat command.tgChatId row.chatId
  start : ∃ head ∈ command.messages.head?, row.windowStart = head.occurredAt

/-- The row that an upsert returns has the key of the upsert and the columns it was given. -/
theorem Draft.exists_upsertInteraction {db : Db} {drawn chatId : Ident} {start : Timestamp}
    {columns : InteractionUpdate} (now : Timestamp)
    (hids : Drawn (db.interaction.map Interaction.id) drawn) :
    let filed := (⟨db, drawn⟩ : Draft).upsertInteraction now chatId start columns
    ∃ row ∈ filed.2.db.interaction, row.id = filed.1 ∧
      (∀ other ∈ filed.2.db.interaction, other.id = filed.1 → other = row) ∧
      row.chatId = chatId ∧ row.windowStart = start ∧
      ∀ key ∈ columns.sourceObjectRef, row.sourceObjectRef = some key := by
  unfold Draft.upsertInteraction
  dsimp only
  cases hselect : db.selectInteraction chatId start with
  | some found =>
    obtain ⟨best, hfirst, rfl⟩ := Option.map_eq_some_iff.mp hselect
    obtain ⟨hbest, hkey⟩ := List.mem_filter.mp (Table.mem_of_first hfirst)
    obtain ⟨hchat, hstart⟩ := of_decide_eq_true hkey
    refine ⟨columns.apply best, Table.mem_update.mpr ⟨best, hbest, by simp⟩, rfl, ?_, hchat,
      hstart, fun key hsome => ?_⟩
    · intro other hother hid
      obtain ⟨old, hold, rfl⟩ := Table.mem_update.mp hother
      have hsame : old.id = best.id := by
        split_ifs at hid
        · exact hid
        · exact hid
      obtain rfl := List.inj_on_of_nodup_map hids.nodup hold hbest hsame
      simp
    · have happly : (columns.apply best).sourceObjectRef =
          columns.sourceObjectRef.or best.sourceObjectRef := rfl
      rw [happly, Option.mem_def.mp hsome]
      rfl
  | none =>
    refine ⟨columns.fresh now drawn chatId start,
      List.mem_append_right _ (List.mem_singleton_self _), rfl, ?_, rfl, rfl,
      fun key hsome => hsome⟩
    intro other hother hid
    rcases List.mem_append.mp hother with hold | hnew
    · have hused : other.id ∈ db.interaction.map Interaction.id := List.mem_map_of_mem hold
      rw [show other.id = drawn from hid] at hused
      exact absurd hused hids.not_mem
    · exact List.mem_singleton.mp hnew

/-! ## The recorded key -/

/-- The interaction of the projected window refers to the object that `_write_artifact` has
put, and deleting by that reference takes this object away and leaves every other one. -/
def RefersToArtifact (command : ProjectionCommand) (projected : Projected) (db : Db)
    (objects : ArtifactKey → Option Artifact) (buckets : Buckets) : Prop :=
  ∃ row, IsInteractionOf command projected db row ∧ ∃ ref ∈ row.sourceObjectRef, ∃ written,
    exec serving (writeArtifactObject idText dump s3 command.sourceWindowId command) buckets =
      (.ok (some (ArtifactKey.path idText ref)), written) ∧
    Represents idText dump s3 objects written ∧
    ∃ left, exec serving (S3Client.deleteBucketObject s3.bucketRaw (ArtifactKey.path idText ref))
        written = (.ok (), left) ∧
      Represents idText dump s3 (Function.update objects ref none) left ∧
      left s3.bucketRaw (ArtifactKey.path idText ref) = none ∧
      ∀ bucket key, (bucket ≠ s3.bucketRaw ∨ key ≠ ArtifactKey.path idText ref) →
        left bucket key = written bucket key

/-- What is under a key that is not touched. -/
theorem set_of_ne {buckets : Buckets} {bucket key bucket' key' : String} {object : Option Object}
    (h : bucket' ≠ bucket ∨ key' ≠ key) : buckets.set bucket key object bucket' key' =
      buckets bucket' key' := by
  rcases h with h | h
  · exact Buckets.set_of_ne_bucket h key'
  · exact Buckets.set_of_ne_key h bucket'

variable [PyText.CharData] (env : Env) (settings : Settings)

/-- The interaction of a committed projection has the key of its artifact. -/
theorem exists_isInteractionOf (hsettings : settings.s3Configured = true)
    {command : ProjectionCommand} {projected : Projected} {s s' : World} (hclosed : s.tx = none)
    (hids : Drawn (s.db.interaction.map Interaction.id) s.drawn)
    (h : exec env.run (transaction (projectBody settings command)) s = (.ok projected, s')) :
    ∃ row, IsInteractionOf command projected s'.db row ∧
      row.sourceObjectRef = some ⟨command.sourceWindowId⟩ := by
  obtain ⟨hne, rfl, objects, calls, rfl⟩ := exec_transaction_ok hclosed h
  obtain ⟨drawn, taskIds, hdrawn, hid, hfiled, -⟩ :=
    s.draft.project_filed settings s.now command
  have hdb : s.draft.db = s.db := World.tables_of_closed hclosed
  have hids' : Drawn (s.draft.db.interaction.map Interaction.id) drawn := by
    rw [hdb]
    exact hids.mono hdrawn.le
  obtain ⟨row, hrow, hreturned, hunique, hchat, hstart, href⟩ :=
    Draft.exists_upsertInteraction s.now hids'
  refine ⟨row, ⟨hfiled ▸ hrow, hreturned.trans hid.symm, ?_, ?_, ?_⟩, href _ ?_⟩
  · intro other hother hsame
    exact hunique other (hfiled ▸ hother) (hsame.trans hid)
  · rw [hchat]
    exact s.draft.hasChat_project_self settings s.now command
  · obtain ⟨head, rest, hmessages⟩ := List.exists_cons_of_ne_nil hne
    refine ⟨head, by rw [hmessages]; rfl, ?_⟩
    rw [hstart, windowStart, hmessages]
    rfl
  · rw [interactionColumns, if_pos hsettings]
    rfl

/-- **Every projected window.**  In every state that projections reach, a projection that
commits records the key of its artifact with the interaction of its window. -/
theorem exists_recorded_ref (hid : Function.Injective idText) (hs3 : s3.isConfigured = true)
    (hsettings : settings.s3Configured = true) (mentions : List Mention)
    (annotations : List RelationshipAnnotation) (owners : List OwnerProfile)
    (deliveries : List (StreamEntry × Timestamp)) {s s' : World}
    (hs : s = env.deliverAll settings (.start mentions annotations owners) deliveries)
    {command : ProjectionCommand} {projected : Projected}
    (h : exec env.run (transaction (projectBody settings command)) s = (.ok projected, s'))
    {buckets : Buckets} (hrep : Represents idText dump s3 s.objects buckets) :
    RefersToArtifact idText dump s3 command projected s'.db s'.objects buckets := by
  have hclosed : s.tx = none := hs ▸ env.deliverAll_closed settings rfl deliveries
  have hsound : s.Sound :=
    hs ▸ (World.sound_start mentions annotations owners).deliverAll env settings deliveries
  obtain ⟨row, hrow, href⟩ := exists_isInteractionOf env settings hsettings hclosed
    hsound.db.interactionIds h
  have hrun : ArtifactRun env command (transaction (projectBody settings command)) s
      (exec env.run (transaction (projectBody settings command)) s).2
      (exec env.run (transaction (projectBody settings command)) s).1 :=
    artifactRun_transaction env command hsettings hclosed hsound.db.interactionIds.nodup
  rw [h] at hrun
  cases hrun with
  | filed hobjects _ _ _ =>
    have hwritten : Represents idText dump s3 s'.objects
        (buckets.set s3.bucketRaw (ArtifactKey.path idText ⟨command.sourceWindowId⟩)
          (some ⟨dump (artifact command.sourceWindowId command), "application/json"⟩)) := by
      rw [hobjects, stored]
      exact hrep.set hid _ rfl
    refine ⟨row, hrow, ⟨command.sourceWindowId⟩, href, _,
      exec_writeArtifactObject hs3 _ _ _, hwritten, _, exec_deleteBucketObject _ _ _,
      hwritten.set hid _ rfl, Buckets.set_same, fun bucket key hne => set_of_ne hne⟩

end Memory
end PersonalIntelligence
