import PersonalIntelligence.Tasks.FoundSides

/-!
# The two sides of a task

The extractor compares the owner of a task with its counterpart before it writes them.  The
projector does not: the counterpart is whoever spoke first in the window, the owner is looked
up separately, and an update merges each with the column that is there.  If the owner of the
account spoke first, every task of the window is between the owner and the owner.

A write of the projector is bad if what it leaves in the two columns is one person.  A good
write keeps the sides of all rows apart (`LoopApart.syncTask`).  A row that a bad write leaves
stays so to the end of the loop (`Blended`), since the later writes of the loop merge the
same two persons into it.  So the loop of a projection leaves the sides apart exactly if each
of its writes is good, which is the case exactly if the two sides of the window differ, as the
command, the settings and the tables before the projection have them (`Sided.synced_iff`).

Over a run, the extractor and the operator leave the sides apart in any case, and what is
asked is asked of the projections that commit (`sidesApart_iff`).
-/

namespace PersonalIntelligence
namespace Tasks

open PyText Resumption
open Memory (Db Task TaskStatus TaskUpdate Draft Drawn)

/-- No task has one person on both sides. -/
def SidesApart (db : Db) : Prop := ∀ row ∈ db.task, Apart row

/-! ## The loop of the projector -/

section Loop

variable {now : Timestamp} {chatId : Ident} {command : ProjectionCommand}
  {ownerPersonId firstCounterpart : Option Ident} {task : StructuredTask} {t : Draft}

/-- What the loop keeps while its writes are good. -/
structure LoopApart (t : Draft) : Prop where
  apart : SidesApart t.db
  ids : Drawn (t.db.task.map (·.id)) t.drawn

/-- A row has one person on both sides, and no write of this loop will change it. -/
def Blended (ownerPersonId firstCounterpart : Option Ident) (t : Draft) : Prop :=
  ∃ row ∈ t.db.task, ∃ p, row.ownerPersonId = some p ∧ row.counterpartPersonId = some p ∧
    (∀ q ∈ ownerPersonId, q = p) ∧ ∀ q ∈ firstCounterpart, q = p

/-- A good write. -/
theorem LoopApart.syncTask (h : LoopApart t)
    (hwrite : WritesApart ownerPersonId firstCounterpart (sidesFound t.db chatId task)) :
    LoopApart (t.syncTask now chatId command ownerPersonId firstCounterpart task).2 := by
  refine ⟨?_, Draft.drawn_syncTask h.ids⟩
  rcases syncTask_sides now chatId command ownerPersonId firstCounterpart task h.ids with
    ⟨row, hrow, hfound, htask⟩ | ⟨-, hfound, htask⟩
  · rw [SidesApart, htask]
    rw [hfound] at hwrite
    refine Table.forall_update h.apart fun other hother hid _ => ?_
    rw [List.inj_on_of_nodup_map h.ids.nodup hother (mem_of_foundRow hrow).1
      (of_decide_eq_true hid)]
    exact hwrite
  · rw [SidesApart, htask]
    rw [hfound] at hwrite
    intro other hother
    rcases List.mem_append.mp hother with hold | hnew
    · exact h.apart other hold
    · rw [List.mem_singleton.mp hnew]
      simpa [WritesApart, Apart, Memory.taskColumns, TaskUpdate.fresh] using hwrite

/-- A bad write. -/
theorem LoopApart.blended (h : LoopApart t)
    (hwrite : ¬ WritesApart ownerPersonId firstCounterpart (sidesFound t.db chatId task)) :
    Blended ownerPersonId firstCounterpart
      (t.syncTask now chatId command ownerPersonId firstCounterpart task).2 := by
  obtain ⟨p, howner, hcounterpart⟩ : ∃ p, ownerPersonId.or (sidesFound t.db chatId task).1 = some p ∧
      firstCounterpart.or (sidesFound t.db chatId task).2 = some p := by
    simp only [WritesApart, not_forall, not_not] at hwrite
    obtain ⟨p, howner, hcounterpart⟩ := hwrite
    exact ⟨p, howner, hcounterpart⟩
  have hnew : ∀ q ∈ ownerPersonId, q = p := by
    rintro q rfl
    simpa using howner
  have hfirst : ∀ q ∈ firstCounterpart, q = p := by
    rintro q rfl
    simpa using hcounterpart
  rcases syncTask_sides now chatId command ownerPersonId firstCounterpart task h.ids with
    ⟨row, hrow, hfound, htask⟩ | ⟨-, hfound, htask⟩
  · rw [hfound] at howner hcounterpart
    rw [Blended, htask]
    refine ⟨_, Table.mem_update.mpr ⟨row, (mem_of_foundRow hrow).1,
      if_pos (decide_eq_true rfl)⟩, p, ?_⟩
    exact ⟨howner, hcounterpart, hnew, hfirst⟩
  · rw [hfound, Option.or_none] at howner hcounterpart
    rw [Blended, htask]
    exact ⟨_, List.mem_append_right _ (List.mem_singleton_self _), p, howner, hcounterpart, hnew,
      hfirst⟩

/-- Later writes of the loop do not mend it. -/
theorem Blended.syncTask (h : Blended ownerPersonId firstCounterpart t) :
    Blended ownerPersonId firstCounterpart
      (t.syncTask now chatId command ownerPersonId firstCounterpart task).2 := by
  obtain ⟨row, hrow, p, howner, hcounterpart, hnew, hfirst⟩ := h
  have hafter (x column : Option Ident) (hcolumn : column = some p) (hx : ∀ q ∈ x, q = p) :
      x.or column = some p := by
    cases x with
    | none => exact hcolumn
    | some q => exact congrArg some (hx q rfl)
  rcases t.syncTask_cases now chatId command ownerPersonId firstCounterpart task with
    ⟨found, -, -, hstep⟩ | hstep
  · rw [hstep]
    refine ⟨_, Table.mem_update.mpr ⟨row, hrow, rfl⟩, p, ?_⟩
    split_ifs
    · exact ⟨hafter _ _ howner hnew, hafter _ _ hcounterpart hfirst, hnew, hfirst⟩
    · exact ⟨howner, hcounterpart, hnew, hfirst⟩
  · rw [hstep]
    exact ⟨row, List.mem_append_left _ hrow, p, howner, hcounterpart, hnew, hfirst⟩

variable (now chatId command ownerPersonId firstCounterpart) in
/-- **The loop** leaves the sides apart exactly if each of its writes does. -/
theorem LoopApart.syncTasks_iff (h : LoopApart t) (tasks : List StructuredTask) :
    SidesApart (Draft.syncTasks now chatId command ownerPersonId firstCounterpart t tasks).2.db ↔
      LoopWritesApart now chatId command ownerPersonId firstCounterpart t tasks := by
  rw [Draft.syncTasks_eq_foldl]
  refine Runs.final_iff_meets (P := fun t : Draft => SidesApart t.db) (I := LoopApart)
    (L := Blended ownerPersonId firstCounterpart) (fun _ h => h.apart)
    (fun _ _ h hwrite => h.syncTask hwrite) (fun _ _ h hwrite => h.blended hwrite)
    (fun _ _ h => h.syncTask) ?_ tasks h
  rintro t' ⟨row, hrow, p, howner, hcounterpart, -, -⟩ hapart
  exact hapart row hrow p howner hcounterpart

end Loop

/-! ## Runs -/

section Runs

variable [CharData] {w : Writers} {s : World}

/-- The operation is not a projection that commits, unless its two sides differ. -/
def Writers.KeepsApart (w : Writers) (s : World) (op : Op × Timestamp) : Prop :=
  match op.1 with
  | .project entry =>
    w.projector.Commits w.projectorSettings s.store (entry, op.2) →
      SidesDiffer w.projectorSettings op.2 entry.command s.db s.store.drawn
  | _ => True

/-- What is known of every state. -/
structure Sided (s : World) : Prop where
  apart : SidesApart s.db
  ids : Drawn (s.db.task.map (·.id)) s.store.drawn
  persons : s.db.PersonsSound s.store.drawn
  closed : s.store.tx = none

/-- The loop of a projection begins with the rows of the state. -/
theorem Sided.loop (h : Sided s) (settings : Memory.Settings) (now : Timestamp)
    (command : ProjectionCommand) :
    LoopApart ⟨s.store.draft.analysed settings now command,
      (s.store.draft.enrolled settings now command).drawn⟩ := by
  have htask : (s.store.draft.analysed settings now command).task = s.db.task := by
    rw [Draft.analysed_task, Memory.World.draft, Memory.World.tables_of_closed h.closed]
  refine ⟨?_, ?_⟩
  · rw [SidesApart, htask]
    exact h.apart
  · dsimp only
    rw [htask]
    exact h.ids.mono (s.store.draft.le_drawn_enrolled settings now command)

/-- **What a projection that commits leaves** has its sides apart exactly if the two sides of
its window differ. -/
theorem Sided.synced_iff (h : Sided s) (settings : Memory.Settings) (now : Timestamp)
    (command : ProjectionCommand) :
    SidesApart (s.store.draft.synced settings now command).2.db ↔
      SidesDiffer settings now command s.db s.store.drawn := by
  have hdb : s.store.draft.db = s.db := Memory.World.tables_of_closed h.closed
  have hloop := (h.loop settings now command).syncTasks_iff now
    (s.store.draft.db.chatId command.tgChatId s.store.draft.drawn) command
    (s.store.draft.analysed settings now command).selectOwner
    ((s.store.draft.participantsOf settings now command).head?.map (·.2)) command.result.tasks
  refine hloop.trans ?_
  rw [loopWritesApart_iff_sidesDiffer (hdb.symm ▸ h.persons) (hdb.symm ▸ h.ids)
    (hdb.symm ▸ h.apart), hdb]
  rfl

omit [CharData] in
/-- An update keeps the identifiers. -/
theorem drawn_update {rows : List Task} {drawn : Ident} {p : Task → Bool} {f : Task → Task}
    (h : Drawn (rows.map (·.id)) drawn) (hf : ∀ row, (f row).id = row.id) :
    Drawn ((Table.update p f rows).map (·.id)) drawn := by
  have hids : (Table.update p f rows).map (·.id) = rows.map (·.id) := Table.map_update hf
  rw [hids]
  exact h

omit [CharData] in
/-- A statement of the extractor. -/
theorem Sided.effect (h : Sided s) (c : Cmd) (hc : extracting.allowed c) : Sided (s.effect c).2 := by
  cases c with
  | resolveTask resolvedAt tgChatId tgMessageId =>
    exact ⟨Table.forall_update h.apart fun _ _ _ hrow => hrow, drawn_update h.ids fun _ => rfl,
      h.persons.congr rfl, h.closed⟩
  | dropTasks tgChatId tgMessageIds =>
    exact ⟨Table.forall_update h.apart fun _ _ _ hrow => hrow, drawn_update h.ids fun _ => rfl,
      h.persons.congr rfl, h.closed⟩
  | editTask taskId candidate =>
    exact ⟨Table.forall_update h.apart fun _ _ _ hrow => hrow, drawn_update h.ids fun _ => rfl,
      h.persons.congr rfl, h.closed⟩
  | insertTask new =>
    refine ⟨fun row hrow => ?_, ?_, (h.persons.mono (Nat.le_succ _)).congr rfl, h.closed⟩
    · rcases List.mem_append.mp hrow with hold | hnew
      · exact h.apart row hold
      · rw [List.mem_singleton.mp hnew]
        exact hc
    · simp only [World.effect, World.insert, Db.insertTask, List.map_append, List.map_singleton]
      exact h.ids.append
  | insertProcessed eventId =>
    simp only [World.effect, World.setDb]
    rw [Db.insertProcessed_frame]
    exact ⟨h.apart, h.ids, h.persons.congr rfl, h.closed⟩
  | upsertChat tgChatId kind title =>
    exact ⟨h.apart, h.ids.more, (h.persons.mono (Nat.le_succ _)).congr rfl, h.closed⟩
  | upsertPerson person =>
    exact ⟨h.apart, h.ids.more, h.persons.upsert rfl (fun _ => rfl) (fun _ => rfl) rfl, h.closed⟩
  | _ => exact ⟨h.apart, h.ids, h.persons, h.closed⟩

/-- **One operation** keeps the sides apart, unless it is a projection whose two sides are one
person. -/
theorem Sided.step (h : Sided s) (op : Op × Timestamp) (hop : w.KeepsApart s op) :
    Sided (w.step s op) := by
  obtain ⟨op, now⟩ := op
  cases op with
  | extract entry =>
    exact Env.deliver_invariant (fun _ _ hs => ⟨hs.apart, hs.ids, hs.persons, hs.closed⟩)
      (fun _ hs => ⟨hs.apart, hs.ids, hs.persons, hs.closed⟩) (fun c _ hc hs => hs.effect c hc)
      (entry, now) h
  | project entry =>
    have hpersons := deliver_persons (w := w) h.closed h.persons entry now
    rcases deliver_task_cases h.closed entry now with
      ⟨hcommits, htask, hdrawn⟩ | ⟨-, htask, hdrawn⟩
    · have hloop := h.loop w.projectorSettings now entry.command
      refine ⟨?_, ?_, hpersons, closed_project h.closed entry now⟩
      · rw [SidesApart, htask]
        exact (h.synced_iff w.projectorSettings now entry.command).mpr (hop hcommits)
      · rw [htask]
        exact (Draft.drawn_syncTasks hloop.ids).mono hdrawn
    · refine ⟨?_, ?_, hpersons, closed_project h.closed entry now⟩
      · rw [SidesApart, htask]
        exact h.apart
      · rw [htask]
        exact h.ids.mono hdrawn
  | updateStatus taskId status =>
    rcases updateStatus_cases (w := w) (s := s) taskId status now with
      ⟨parsed, -, -, hstep⟩ | ⟨-, hstep | hstep⟩
    · rw [hstep]
      exact ⟨Table.forall_update h.apart fun _ _ _ hrow => hrow, drawn_update h.ids fun _ => rfl,
        h.persons.congr rfl, h.closed⟩
    · rw [hstep]
      exact ⟨h.apart, h.ids, h.persons, h.closed⟩
    · rw [hstep]
      exact ⟨h.apart, h.ids, h.persons, h.closed⟩

end Runs

end Tasks
end PersonalIntelligence
