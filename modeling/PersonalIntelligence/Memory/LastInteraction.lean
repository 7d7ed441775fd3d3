import PersonalIntelligence.Memory.Ownership
import Mathlib.Order.Bounds.Basic

/-!
# When a person was last heard of

`_ensure_participants` upserts every sender of a window once, with the time of the first
message it has of them, and `GREATEST` keeps the later of that time and the stored one.  So
`last_interaction_at` is the latest of the initial value and of these first times (`Dated`),
and it is the latest of all times exactly if none of the other messages is later than all of
them.
-/

namespace PersonalIntelligence
namespace Memory

open PyText Resumption

/-! ## The latest of some times -/

/-- The latest of the times, and `none` if there are none. -/
def IsLatest (times : Set Timestamp) : Option Timestamp → Prop
  | none => times = ∅
  | some t => IsGreatest times t

namespace IsLatest

variable {times times' : Set Timestamp} {last : Option Timestamp}

/-- `GREATEST`, with one more time. -/
theorem insert (h : IsLatest times last) (t : Timestamp) :
    IsLatest (insert t times) (some (last.elim t fun t' => max t' t)) := by
  cases last with
  | none =>
    have hempty : times = ∅ := h
    simp [IsLatest, hempty]
  | some t' =>
    have hgreatest : IsGreatest times t' := h
    dsimp only [IsLatest, Option.elim]
    rw [max_comm]
    exact hgreatest.insert t

/-- The latest of some times is the latest of more if none of these is later than all of
the former. -/
theorem iff_of_subset (h : IsLatest times last) (hsubset : times ⊆ times') :
    IsLatest times' last ↔ ∀ t ∈ times', ∃ t' ∈ times, t ≤ t' := by
  cases last with
  | none =>
    have hempty : times = ∅ := h
    simp [IsLatest, hempty, Set.eq_empty_iff_forall_notMem]
  | some last =>
    obtain ⟨hmem, hupper⟩ : IsGreatest times last := h
    constructor
    · exact fun hlast t ht => ⟨last, hmem, hlast.2 ht⟩
    · intro hcovered
      refine ⟨hsubset hmem, fun t ht => ?_⟩
      obtain ⟨t', ht', hle⟩ := hcovered t ht
      exact hle.trans (hupper ht')

end IsLatest

/-! ## The rows -/

/-- Every row has the latest of the times its account has been seen at, and each account that
has been seen has a row. -/
structure Dated (rows : List Person) (seen : ℤ → Set Timestamp) : Prop where
  latest : ∀ row ∈ rows, ∀ u, row.tgUserId = some u → IsLatest (seen u) row.lastInteractionAt
  present : ∀ u, (seen u).Nonempty → ∃ row ∈ rows, row.tgUserId = some u

namespace Dated

variable {rows : List Person} {seen seen' : ℤ → Set Timestamp}

theorem congr (h : Dated rows seen) (heq : ∀ u, seen u = seen' u) : Dated rows seen' :=
  (funext heq : seen = seen') ▸ h

/-- An upsert sees one account. -/
theorem upsertPerson {db : Db} (h : Dated db.person seen) (now : Timestamp) (drawn : Ident)
    (person : PersonUpsert) : Dated (db.upsertPerson now drawn person).person
      fun u => seen u ∪ {t | u = person.tgUserId ∧ t = person.lastInteractionAt} := by
  refine ⟨fun row hrow u hu => ?_, fun u hu => ?_⟩
  · have hself (hself : u = person.tgUserId) :
        seen u ∪ {t | u = person.tgUserId ∧ t = person.lastInteractionAt} =
          Insert.insert person.lastInteractionAt (seen u) := by
      simp [hself]
    rcases Table.mem_upsert hrow with ⟨hold, hne⟩ | ⟨old, hold, hkey, rfl⟩ | ⟨hnew, rfl⟩
    · have hother : u ≠ person.tgUserId := fun heq => hne (hu.trans (congrArg some heq))
      simpa [hother] using h.latest row hold u hu
    · have haccount : old.tgUserId = some person.tgUserId := hkey
      obtain rfl : u = person.tgUserId := Option.some.inj (hu.symm.trans haccount)
      rw [hself rfl]
      have hmerge : (person.merge now old).lastInteractionAt = some
          (old.lastInteractionAt.elim person.lastInteractionAt
            fun t' => max t' person.lastInteractionAt) := by
        unfold PersonUpsert.merge
        cases old.lastInteractionAt with
        | none => rfl
        | some _ => rfl
      rw [hmerge]
      exact (h.latest old hold _ haccount).insert person.lastInteractionAt
    · obtain rfl : u = person.tgUserId := (Option.some.inj hu).symm
      have hunseen : seen person.tgUserId = ∅ := by
        by_contra hseen
        obtain ⟨old, hold, hrow'⟩ := h.present _ (Set.nonempty_iff_ne_empty.mpr hseen)
        exact hnew (List.mem_map.mpr ⟨old, hold, hrow'⟩)
      simp [hunseen, IsLatest, PersonUpsert.fresh]
  · have hkeys : (some u) ∈ db.person.map Person.tgUserId ∨ some u = some person.tgUserId := by
      rcases hu with ⟨t, ht | ⟨rfl, -⟩⟩
      · exact .inl (List.mem_map.mpr (h.present u ⟨t, ht⟩))
      · exact .inr rfl
    unfold Db.upsertPerson
    refine List.mem_map.mp ((Table.mem_keys_upsert ?_).mpr hkeys)
    exact fun _ hkey => hkey

theorem enrolAll {t : Draft} (h : Dated t.db.person seen) (now : Timestamp) (chatId : Ident)
    (persons : List PersonUpsert) : Dated (t.enrolAll now chatId persons).db.person
      fun u => seen u ∪
        {time | ∃ person ∈ persons, u = person.tgUserId ∧ time = person.lastInteractionAt} := by
  induction persons generalizing t seen with
  | nil => exact h.congr fun u => by simp
  | cons person rest ih =>
    have hstep := h.upsertPerson now t.drawn person
    have hrows := @Draft.enrol_person now chatId t person
    rw [← hrows] at hstep
    refine (ih hstep).congr fun u => ?_
    rw [Set.union_assoc]
    congr 1
    ext time
    simp

end Dated

/-! ## The times of a run -/

section Times

/-- The times that a table has of an account. -/
def initialTimes (rows : List Person) (u : ℤ) : Set Timestamp :=
  {t | ∃ row ∈ rows, row.tgUserId = some u ∧ row.lastInteractionAt = some t}

/-- The times of all messages of a sender. -/
def sentTimes (commands : List ProjectionCommand) (u : ℤ) : Set Timestamp :=
  {t | ∃ command ∈ commands, ∃ message ∈ command.messages,
    message.tgSenderId = some u ∧ message.occurredAt = t}

/-- The times of the first message of a sender in each command. -/
def firstTimes (commands : List ProjectionCommand) (u : ℤ) : Set Timestamp :=
  {t | ∃ command ∈ commands, ∃ message,
    command.messages.find? (fun message => message.tgSenderId = some u) = some message ∧
      message.occurredAt = t}

/-- `UNIQUE (tg_user_id)`. -/
def UniqueAccounts (rows : List Person) : Prop :=
  rows.Pairwise fun row row' => row.tgUserId = row'.tgUserId → row.tgUserId = none

/-- Every row of an account has the latest of its initial time and of the times of all its
messages. -/
def TracksLatest (initial : List Person) (commands : List ProjectionCommand)
    (rows : List Person) : Prop :=
  ∀ row ∈ rows, ∀ u, row.tgUserId = some u →
    IsLatest (initialTimes initial u ∪ sentTimes commands u) row.lastInteractionAt

theorem firstTimes_subset (commands : List ProjectionCommand) (u : ℤ) :
    firstTimes commands u ⊆ sentTimes commands u := by
  rintro t ⟨command, hcommand, message, hfind, rfl⟩
  exact ⟨command, hcommand, message, List.mem_of_find?_eq_some hfind,
    by simpa using List.find?_some hfind, rfl⟩

theorem firstTimes_append (commands : List ProjectionCommand) (command : ProjectionCommand)
    (u : ℤ) :
    firstTimes (commands ++ [command]) u = firstTimes commands u ∪ firstTimes [command] u := by
  ext t
  simp [firstTimes, or_and_right, exists_or]

theorem firstTimes_nil (u : ℤ) : firstTimes [] u = ∅ := by
  simp [firstTimes]

/-- A table as it is found. -/
theorem Dated.initial {rows : List Person} (hunique : UniqueAccounts rows) :
    Dated rows (initialTimes rows) := by
  refine ⟨fun row hrow u hu => ?_, ?_⟩
  · have hsame : ∀ row' ∈ rows, row'.tgUserId = some u → row' = row :=
      fun row' hrow' hu' => Table.eq_of_unique hunique hrow' hrow hu' hu
    cases hlast : row.lastInteractionAt with
    | none =>
      refine Set.eq_empty_of_forall_notMem ?_
      rintro t ⟨row', hrow', hu', ht⟩
      rw [hsame row' hrow' hu', hlast] at ht
      cases ht
    | some t =>
      refine ⟨⟨row, hrow, hu, hlast⟩, ?_⟩
      rintro t' ⟨row', hrow', hu', ht⟩
      rw [hsame row' hrow' hu', hlast] at ht
      exact (Option.some.inj ht).ge
  · rintro u ⟨t, row, hrow, hu, -⟩
    exact ⟨row, hrow, hu⟩

end Times

/-! ## Runs -/

section Runs

variable [CharData] {env : Env} {settings : Settings} {s s' : World} {initial : List Person}

variable (settings) in
/-- The times with which a command enrols its senders. -/
theorem firstTimes_singleton (command : ProjectionCommand) (u : ℤ) :
    firstTimes [command] u = {time | ∃ person ∈ participants settings command,
      u = person.tgUserId ∧ time = person.lastInteractionAt} := by
  ext time
  constructor
  · rintro ⟨command', hmem, message, hfind, rfl⟩
    obtain rfl := List.mem_singleton.mp hmem
    exact ⟨_, mem_enrolments_iff.mpr ⟨u, message, List.not_mem_nil, hfind, rfl⟩, rfl, rfl⟩
  · rintro ⟨person, hperson, rfl, rfl⟩
    obtain ⟨v, message, -, hfind, rfl⟩ := mem_enrolments_iff.mp hperson
    exact ⟨command, List.mem_singleton_self _, message, hfind, rfl⟩

theorem Dated.project {t : Draft} {commands : List ProjectionCommand}
    (h : Dated t.db.person fun u => initialTimes initial u ∪ firstTimes commands u)
    (now : Timestamp) (command : ProjectionCommand) :
    Dated (t.project settings now command).2.db.person
      fun u => initialTimes initial u ∪ firstTimes (commands ++ [command]) u := by
  have hchat : Dated (t.upsertChat command).db.person
    fun u => initialTimes initial u ∪ firstTimes commands u := h
  rw [Draft.project_person]
  refine (hchat.enrolAll now _ _).congr fun u => ?_
  rw [firstTimes_append, firstTimes_singleton settings, Set.union_assoc]

/-- **In every run** a row has the latest of its initial time and the first times. -/
theorem Env.dated_deliverAll (hs : s.tx = none) (hunique : UniqueAccounts s.db.person)
    (deliveries : List (StreamEntry × Timestamp)) :
    Dated (env.deliverAll settings s deliveries).db.person fun u =>
      initialTimes s.db.person u ∪ firstTimes (env.committed settings s deliveries) u := by
  have hstart : Dated s.db.person fun u => initialTimes s.db.person u ∪ firstTimes [] u :=
    (Dated.initial hunique).congr fun u => by rw [firstTimes_nil, Set.union_empty]
  refine (@Env.committed_invariant _ env settings s (fun commands s' => s'.tx = none ∧
    Dated s'.db.person fun u => initialTimes s.db.person u ∪ firstTimes commands u)
    (fun _ _ h => h.1) ?_ ?_ deliveries [] ⟨hs, hstart⟩).2
  · intro commands s₁ s₂ command now ⟨hs₁, h⟩ hp
    have hdb : s₁.draft.db = s₁.db := World.tables_of_closed hs₁
    rw [hp.db]
    exact ⟨hp.closed, Dated.project (hdb.symm ▸ h) now command⟩
  · intro commands s₁ s₂ ⟨hs₁, h⟩ hpass hle
    rw [hpass.db]
    exact ⟨hpass.closed, h⟩

/-- **The time of the last interaction.**  After a run every row has the latest of its
initial time and the times of all messages of its account, exactly if each of these messages
is no later than the initial time or than a message that a command has as the first one of
that sender. -/
theorem tracksLatest_iff (env : Env) (settings : Settings) (s : World) (hs : s.tx = none)
    (hunique : UniqueAccounts s.db.person) (deliveries : List (StreamEntry × Timestamp)) :
    TracksLatest s.db.person (env.committed settings s deliveries)
        (env.deliverAll settings s deliveries).db.person ↔
      ∀ u, ∀ t ∈ sentTimes (env.committed settings s deliveries) u,
        ∃ t' ∈ initialTimes s.db.person u ∪ firstTimes (env.committed settings s deliveries) u,
          t ≤ t' := by
  set commands := env.committed settings s deliveries
  have hdated : Dated (env.deliverAll settings s deliveries).db.person fun u =>
    initialTimes s.db.person u ∪ firstTimes commands u := env.dated_deliverAll hs hunique deliveries
  have hrow {row : Person} (hrow : row ∈ (env.deliverAll settings s deliveries).db.person) {u : ℤ}
      (hu : row.tgUserId = some u) :
      IsLatest (initialTimes s.db.person u ∪ sentTimes commands u) row.lastInteractionAt ↔
        ∀ t ∈ initialTimes s.db.person u ∪ sentTimes commands u,
          ∃ t' ∈ initialTimes s.db.person u ∪ firstTimes commands u, t ≤ t' :=
    (hdated.latest row hrow u hu).iff_of_subset
      (Set.union_subset_union_right _ (firstTimes_subset commands u))
  constructor
  · intro h u t ht
    -- a sender has been enrolled, so it has a row
    obtain ⟨command, hcommand, message, hmessage, hsender, htime⟩ := id ht
    have hfound : (command.messages.find? fun message => message.tgSenderId = some u).isSome := by
      rw [List.find?_isSome]
      exact ⟨message, hmessage, by simpa using hsender⟩
    obtain ⟨first, hfirst⟩ := Option.isSome_iff_exists.mp hfound
    have hseen : first.occurredAt ∈ initialTimes s.db.person u ∪ firstTimes commands u :=
      .inr ⟨command, hcommand, first, hfirst, rfl⟩
    obtain ⟨row, hmem, hu⟩ := hdated.present u ⟨_, hseen⟩
    exact (hrow hmem hu).mp (h row hmem u hu) t (.inr ht)
  · intro h row hmem u hu
    rw [hrow hmem hu]
    rintro t (ht | ht)
    · exact ⟨t, .inl ht, le_refl t⟩
    · exact h u t ht

end Runs

/-! ## Two messages -/

/-- A window in which one sender writes at each of the times. -/
def writesAt (id : Ident) (times : List Timestamp) : StreamEntry where
  id
  command :=
    { commandId := id
      sourceWindowId := id
      sourceEventId := id
      tgChatId := 7
      messages := times.map fun time =>
        { tgMessageId := time, tgSenderId := some 12, text := "hi", occurredAt := time }
      features := {}
      result := { sourceWindowId := id, summary := "" } }

/-- The one sender is seen at these times. -/
theorem mem_sentTimes_writesAt {id : Ident} {times : List Timestamp} {u : ℤ} {t : Timestamp} :
    t ∈ sentTimes [(writesAt id times).command] u ↔ u = 12 ∧ t ∈ times := by
  simp [sentTimes, writesAt, eq_comm, and_comm]

/-- Stores in which the contact has been heard of at 70 already. -/
def heardOf : World where
  db := { person := [
    { id := 0
      tgUserId := some 12
      username := none
      displayName := "tg:12"
      topics := []
      lastInteractionAt := some 70
      isOwner := false
      updatedAt := 70 }] }

/-- The contact has been heard of at the time of its second message. -/
theorem tracksLatest_iff_heardOf :
    TracksLatest heardOf.db.person
      (@Env.committed basicCharData {} {} heardOf [(writesAt 1 [60, 70], 80)])
      (@Env.deliverAll {} basicCharData {} heardOf [(writesAt 1 [60, 70], 80)]).db.person := by
  have hcommitted : @Env.committed basicCharData {} {} heardOf [(writesAt 1 [60, 70], 80)] =
      [(writesAt 1 [60, 70]).command] := by
    decide +kernel
  refine (@tracksLatest_iff basicCharData {} {} heardOf rfl (List.pairwise_singleton ..)
    [(writesAt 1 [60, 70], 80)]).mpr fun u t ht => ?_
  rw [hcommitted, mem_sentTimes_writesAt] at ht
  obtain ⟨rfl, ht⟩ := ht
  refine ⟨70, .inl ⟨_, List.mem_singleton_self _, rfl, rfl⟩, ?_⟩
  revert t
  decide

/-- A contact writes twice in one window, and the second time is not kept. -/
theorem not_tracksLatest_twice :
    ¬ TracksLatest [] (@Env.committed basicCharData {} {} {} [(writesAt 1 [60, 70], 80)])
      (@Env.deliverAll {} basicCharData {} {} [(writesAt 1 [60, 70], 80)]).db.person := by
  have hrow : ∃ row ∈ (@Env.deliverAll {} basicCharData {} {}
      [(writesAt 1 [60, 70], 80)]).db.person,
      row.tgUserId = some 12 ∧ row.lastInteractionAt = some 60 := by
    decide
  have hcommitted : @Env.committed basicCharData {} {} {} [(writesAt 1 [60, 70], 80)] =
      [(writesAt 1 [60, 70]).command] := by
    decide +kernel
  obtain ⟨row, hmem, hu, hlast⟩ := hrow
  rw [hcommitted]
  intro h
  have hlatest := h row hmem 12 hu
  rw [hlast] at hlatest
  have hsent : (70 : Timestamp) ∈ sentTimes [(writesAt 1 [60, 70]).command] 12 :=
    mem_sentTimes_writesAt.mpr ⟨rfl, by decide⟩
  exact absurd (hlatest.2 (.inr hsent)) (by decide)

end Memory
end PersonalIntelligence
