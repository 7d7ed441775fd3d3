import PersonalIntelligence.Library.Outbox
import PersonalIntelligence.Memory.Soundness
import PersonalIntelligence.Tasks.Extractor

/-!
# The life of a task and its events

What the published events are about is small: which tasks there are, of which message and
in which status, what has been closed, and what has been published of either.  `Life` is
that much of the stores, and an event that the extractor handles does one of three things to
it: nothing, a new open task, or the closing of the open tasks of some messages.

`Full` is such a step with all of its publications, and `Cut` one that has lost some.  Two
steps are told apart by their publications alone, because no task is created twice for one
message, no task is closed twice, and an identifier is new when it is drawn (`Recorded`).
So full steps keep the agreement of table and events, and a cut step destroys it for good.
-/

namespace PersonalIntelligence
namespace Tasks

open Memory (Task TaskStatus Drawn)

/-- What the events are about, in a row of the task table. -/
structure LifeRow where
  id : Ident
  /-- The chat and the message. -/
  source : ℤ × ℤ
  status : TaskStatus
  deriving DecidableEq, Repr

/-- The tasks, and what has been published. -/
structure Life where
  rows : List LifeRow
  /-- The tasks that a `TaskCreatedEvent` names. -/
  created : List Ident
  closed : List (Ident × Resolution)
  /-- What a `TaskResolvedEvent` names. -/
  resolved : List (Ident × Resolution)
  drawn : Ident

def lifeRow (row : Task) : LifeRow where
  id := row.id
  source := (row.sourceMessageRef.tgChatId, row.sourceMessageRef.tgMessageId)
  status := row.status

def World.life (s : World) : Life where
  rows := s.db.task.map lifeRow
  created := s.taskCreated.map (·.taskId)
  closed := s.closed
  resolved := s.taskResolved.map fun event => (event.taskId, event.resolution)
  drawn := s.store.drawn

namespace Life

variable (l : Life)

def ids : List Ident := l.rows.map (·.id)

/-- The open rows of some sources. -/
def openOf (q : ℤ × ℤ → Bool) : List LifeRow :=
  l.rows.filter fun row => row.status = .open && q row.source

/-- What closing them is to be told. -/
def closing (q : ℤ × ℤ → Bool) (resolution : Resolution) : List (Ident × Resolution) :=
  (l.openOf q).map fun row => (row.id, resolution)

/-- The open rows of some sources are closed, and `sent` is published. -/
def close (q : ℤ × ℤ → Bool) (resolution : Resolution) (sent : List (Ident × Resolution))
    (drawn : Ident) : Life :=
  { l with
    rows := Table.update (fun row => row.status = .open && q row.source)
      (fun row => { row with status := statusOf resolution }) l.rows
    closed := l.closed ++ l.closing q resolution
    resolved := l.resolved ++ sent
    drawn }

/-- A row is inserted, and `sent` is published. -/
def create (row : LifeRow) (sent : List Ident) (drawn : Ident) : Life :=
  { l with rows := l.rows ++ [row], created := l.created ++ sent, drawn }

/-- A row that may be inserted: it is open, its id has just been drawn, and its message has
no task. -/
structure New (row : LifeRow) (drawn : Ident) : Prop where
  «open» : row.status = .open
  fresh : l.drawn ≤ row.id
  lt : row.id < drawn
  source : row.source ∉ l.rows.map (·.source)

/-- A step with all of its publications. -/
inductive Full : Life → Prop where
  | idle (drawn : Ident) (h : l.drawn ≤ drawn) : Full { l with drawn }
  | create (row : LifeRow) (drawn : Ident) (h : l.New row drawn) :
      Full (l.create row [row.id] drawn)
  | close (q : ℤ × ℤ → Bool) (resolution : Resolution) (drawn : Ident) (h : l.drawn ≤ drawn) :
      Full (l.close q resolution (l.closing q resolution) drawn)

/-- A step that has lost a publication. -/
inductive Cut : Life → Prop where
  | create (row : LifeRow) (drawn : Ident) (h : l.New row drawn) : Cut (l.create row [] drawn)
  | close (q : ℤ × ℤ → Bool) (resolution : Resolution) (sent : List (Ident × Resolution))
      (drawn : Ident) (h : l.drawn ≤ drawn) (hsent : sent ⊆ l.closing q resolution)
      (lost : Ident × Resolution) (hlost : lost ∈ l.closing q resolution) (hnot : lost ∉ sent) :
      Cut (l.close q resolution sent drawn)

/-- What every step keeps. -/
structure Recorded : Prop where
  ids : Drawn l.ids l.drawn
  sources : (l.rows.map (·.source)).Nodup
  created : Outbox.Sound l.ids l.created
  resolved : Outbox.Sound l.closed l.resolved
  closed : ∀ t ∈ l.closed, ∃ row ∈ l.rows, row.id = t.1 ∧ row.status ≠ .open

/-- The events match the table. -/
structure Matches : Prop where
  created : Outbox.Exact l.ids l.created
  resolved : Outbox.Exact l.closed l.resolved

/-- A task or a closing has no event. -/
def Unmatched : Prop := Outbox.Missing l.ids l.created ∨ Outbox.Missing l.closed l.resolved

@[simp] theorem ids_create (row : LifeRow) (sent : List Ident) (drawn : Ident) :
    (l.create row sent drawn).ids = l.ids ++ [row.id] := by
  simp [create, ids]

@[simp] theorem ids_close (q : ℤ × ℤ → Bool) (resolution : Resolution)
    (sent : List (Ident × Resolution)) (drawn : Ident) :
    (l.close q resolution sent drawn).ids = l.ids := Table.map_update fun _ => rfl

section Steps

variable {l} {row : LifeRow} {drawn : Ident} {q : ℤ × ℤ → Bool} {resolution : Resolution}
  {sent : List (Ident × Resolution)}

/-- An open row may be closed once. -/
theorem Recorded.closing_new (h : l.Recorded) : ∀ t ∈ l.closing q resolution, t ∉ l.closed := by
  intro t ht hclosed
  obtain ⟨row, hrow, rfl⟩ := List.mem_map.mp ht
  obtain ⟨hmem, hopen⟩ := List.mem_filter.mp hrow
  obtain ⟨other, hother, hid, hnot⟩ := h.closed _ hclosed
  rw [List.inj_on_of_nodup_map h.ids.nodup hother hmem hid] at hnot
  simp [hnot] at hopen

theorem Recorded.nodup_closing (h : l.Recorded) : (l.closing q resolution).Nodup := by
  have hopen : ((l.openOf q).map (·.id)).Nodup := h.ids.nodup.sublist (List.filter_sublist.map _)
  have hids : l.closing q resolution = ((l.openOf q).map (·.id)).map (·, resolution) := by
    rw [closing, List.map_map]
    rfl
  rw [hids]
  exact hopen.map fun _ _ heq => congrArg Prod.fst heq

/-- An id that has been drawn just now is not in use. -/
theorem Recorded.id_new (h : l.Recorded) (hnew : l.New row drawn) :
    ∀ id ∈ [row.id], id ∉ l.ids := by
  intro id hid hmem
  rw [List.mem_singleton.mp hid] at hmem
  exact absurd (h.ids.lt _ hmem) (not_lt.mpr hnew.fresh)

theorem Recorded.idle (h : l.Recorded) (hdrawn : l.drawn ≤ drawn) :
    ({ l with drawn } : Life).Recorded :=
  ⟨h.ids.mono hdrawn, h.sources, h.created, h.resolved, h.closed⟩

theorem Recorded.create (h : l.Recorded) (hnew : l.New row drawn) {sent : List Ident}
    (hsent : sent ⊆ [row.id]) : (l.create row sent drawn).Recorded where
  ids := by
    rw [ids_create]
    refine ⟨List.nodup_append'.mpr ⟨h.ids.nodup, List.nodup_singleton _, ?_⟩, fun id hid => ?_⟩
    · exact fun id hold hid => h.id_new hnew id hid hold
    · rcases List.mem_append.mp hid with hold | hid
      · exact (h.ids.lt id hold).trans (hnew.fresh.trans_lt hnew.lt)
      · rw [List.mem_singleton.mp hid]
        exact hnew.lt
  sources := by
    simp only [Life.create, List.map_append, List.map_singleton]
    refine List.nodup_append'.mpr ⟨h.sources, List.nodup_singleton _, fun source hold hmem => ?_⟩
    exact hnew.source (List.mem_singleton.mp hmem ▸ hold)
  created := by
    rw [ids_create]
    exact h.created.extend (List.nodup_singleton _) (h.id_new hnew) hsent
  resolved := h.resolved
  closed t ht := by
    obtain ⟨other, hother, hid, hnot⟩ := h.closed t ht
    exact ⟨other, List.mem_append_left _ hother, hid, hnot⟩

/-- A row after the closing. -/
theorem mem_close_of_mem (h : row ∈ l.rows) :
    (if row.status = .open && q row.source then { row with status := statusOf resolution } else row)
      ∈ (l.close q resolution sent drawn).rows := Table.mem_update.mpr ⟨row, h, rfl⟩

theorem statusOf_ne_open : statusOf resolution ≠ .open := by
  cases resolution <;> simp [statusOf]

theorem Recorded.close (h : l.Recorded) (hdrawn : l.drawn ≤ drawn)
    (hsent : sent ⊆ l.closing q resolution) : (l.close q resolution sent drawn).Recorded where
  ids := by
    rw [ids_close]
    exact h.ids.mono hdrawn
  sources := by
    have hsources : (l.close q resolution sent drawn).rows.map (·.source) = l.rows.map (·.source) :=
      Table.map_update fun _ => rfl
    rw [hsources]
    exact h.sources
  created := by
    rw [ids_close]
    exact h.created
  resolved := h.resolved.extend h.nodup_closing h.closing_new hsent
  closed t ht := by
    rcases List.mem_append.mp ht with hold | hclosing
    · obtain ⟨row, hrow, hid, hnot⟩ := h.closed t hold
      refine ⟨_, mem_close_of_mem hrow, ?_⟩
      rw [if_neg (by simp [hnot])]
      exact ⟨hid, hnot⟩
    · obtain ⟨row, hrow, rfl⟩ := List.mem_map.mp hclosing
      obtain ⟨hmem, hopen⟩ := List.mem_filter.mp hrow
      refine ⟨_, mem_close_of_mem hmem, ?_⟩
      rw [if_pos hopen]
      exact ⟨rfl, statusOf_ne_open⟩

/-- **A step** keeps the records, with or without its publications. -/
theorem Recorded.full {l' : Life} (h : l.Recorded) (hstep : l.Full l') : l'.Recorded := by
  cases hstep with
  | idle drawn hdrawn => exact h.idle hdrawn
  | create row drawn hnew => exact h.create hnew (List.Subset.refl _)
  | close q resolution drawn hdrawn => exact h.close hdrawn (List.Subset.refl _)

theorem Recorded.cut {l' : Life} (h : l.Recorded) (hstep : l.Cut l') : l'.Recorded := by
  cases hstep with
  | create row drawn hnew => exact h.create hnew (List.nil_subset _)
  | close q resolution sent drawn hdrawn hsent lost hlost hnot => exact h.close hdrawn hsent

/-- **A full step** keeps the agreement. -/
theorem Matches.full {l' : Life} (h : l.Matches) (hrecorded : l.Recorded) (hstep : l.Full l') :
    l'.Matches := by
  cases hstep with
  | idle drawn hdrawn => exact ⟨h.created, h.resolved⟩
  | create row drawn hnew =>
    refine ⟨?_, h.resolved⟩
    rw [ids_create]
    exact h.created.extend hrecorded.created (List.nodup_singleton _) (hrecorded.id_new hnew)
  | close q resolution drawn hdrawn =>
    refine ⟨?_, h.resolved.extend hrecorded.resolved hrecorded.nodup_closing hrecorded.closing_new⟩
    rw [ids_close]
    exact h.created

/-- **A cut step** leaves something without its event, -/
theorem Recorded.unmatched {l' : Life} (h : l.Recorded) (hstep : l.Cut l') : l'.Unmatched := by
  cases hstep with
  | create row drawn hnew =>
    refine .inl ?_
    rw [ids_create]
    exact h.created.missing (h.id_new hnew) (List.mem_singleton_self _) List.not_mem_nil
  | close q resolution sent drawn hdrawn hsent lost hlost hnot =>
    exact .inr (h.resolved.missing h.closing_new hlost hnot)

/-- and no later step makes up for it. -/
theorem Unmatched.stays {l' : Life} (h : l.Unmatched) (hrecorded : l.Recorded)
    (hstep : l.Full l' ∨ l.Cut l') : l'.Unmatched := by
  have hcreate (row : LifeRow) (drawn : Ident) (hnew : l.New row drawn) (sent : List Ident)
      (hsent : sent ⊆ [row.id]) : (l.create row sent drawn).Unmatched := by
    refine h.imp_left fun hmissing => ?_
    rw [ids_create]
    exact hmissing.extend (hrecorded.id_new hnew) hsent
  have hclose (q : ℤ × ℤ → Bool) (resolution : Resolution) (sent : List (Ident × Resolution))
      (drawn : Ident) (hsent : sent ⊆ l.closing q resolution) :
      (l.close q resolution sent drawn).Unmatched := by
    refine h.imp (fun hmissing => ?_) fun hmissing => hmissing.extend hrecorded.closing_new hsent
    rw [ids_close]
    exact hmissing
  rcases hstep with hfull | hcut
  · cases hfull with
    | idle drawn hdrawn => exact h
    | create row drawn hnew => exact hcreate row drawn hnew _ (List.Subset.refl _)
    | close q resolution drawn hdrawn => exact hclose q resolution _ drawn (List.Subset.refl _)
  · cases hcut with
    | create row drawn hnew => exact hcreate row drawn hnew _ (List.nil_subset _)
    | close q resolution sent drawn hdrawn hsent lost hlost hnot =>
      exact hclose q resolution sent drawn hsent

theorem Unmatched.not_matches (h : l.Unmatched) : ¬ l.Matches := by
  rintro ⟨hcreated, hresolved⟩
  rcases h with hmissing | hmissing
  · exact hmissing.not_exact hcreated
  · exact hmissing.not_exact hresolved

end Steps

/-! ### Identifiers drawn before and after a step -/

variable {l}

theorem Full.later {l' : Life} {drawn : Ident} (h : l.Full l') (hdrawn : l'.drawn ≤ drawn) :
    l.Full { l' with drawn } := by
  cases h with
  | idle _ hle => exact .idle drawn (hle.trans hdrawn)
  | create row d hnew =>
    exact .create row drawn ⟨hnew.open, hnew.fresh, hnew.lt.trans_le hdrawn, hnew.source⟩
  | close q resolution _ hle => exact .close q resolution drawn (hle.trans hdrawn)

theorem Full.earlier {l' : Life} {drawn : Ident} (h : ({ l with drawn } : Life).Full l')
    (hdrawn : l.drawn ≤ drawn) : l.Full l' := by
  cases h with
  | idle d hle => exact .idle d (hdrawn.trans hle)
  | create row d hnew =>
    exact .create row d ⟨hnew.open, hdrawn.trans hnew.fresh, hnew.lt, hnew.source⟩
  | close q resolution d hle => exact .close q resolution d (hdrawn.trans hle)

theorem Cut.earlier {l' : Life} {drawn : Ident} (h : ({ l with drawn } : Life).Cut l')
    (hdrawn : l.drawn ≤ drawn) : l.Cut l' := by
  cases h with
  | create row d hnew =>
    exact .create row d ⟨hnew.open, hdrawn.trans hnew.fresh, hnew.lt, hnew.source⟩
  | close q resolution sent d hle hsent lost hlost hnot =>
    exact .close q resolution sent d (hdrawn.trans hle) hsent lost hlost hnot

end Life

end Tasks
end PersonalIntelligence
