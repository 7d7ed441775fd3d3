import PersonalIntelligence.Memory.ProjectedTables

/-!
# The owner

`is_owner` of a person is decided message by message, by the account or by one of two
texts of the profile, and an upsert never takes it back.  So a row is an owner's exactly
if its account has once been shown as the owner's (`Flagged`), by the message with which
a committed command enrols it; there is at most one owner row exactly if one account at
most has been, and then `_sync_tasks` and everyone else who selects the owner finds the
same person to the end of the run.
-/

namespace PersonalIntelligence
namespace Memory

open PyText Resumption

/-! ## Owner rows -/

/-- The owners among the rows are those of the accounts that have been shown as the
owner's, and each of these has a row. -/
structure Flagged (rows : List Person) (shown : ℤ → Prop) : Prop where
  accounts : (rows.map Person.tgUserId).Nodup
  owner : ∀ row ∈ rows, row.isOwner = true ↔ ∃ u, shown u ∧ row.tgUserId = some u
  present : ∀ u, shown u → ∃ row ∈ rows, row.tgUserId = some u

namespace Flagged

variable {rows : List Person} {shown shown' : ℤ → Prop}

theorem empty : Flagged [] fun _ => False :=
  ⟨List.nodup_nil, fun _ h => absurd h List.not_mem_nil, fun _ h => h.elim⟩

theorem congr (h : Flagged rows shown) (hiff : ∀ u, shown u ↔ shown' u) : Flagged rows shown' := by
  have heq : shown = shown' := funext fun u => propext (hiff u)
  exact heq ▸ h

/-- An upsert shows one account, as the owner's or not. -/
theorem upsertPerson {db : Db} (h : Flagged db.person shown) (now : Timestamp) (drawn : Ident)
    (person : PersonUpsert) : Flagged (db.upsertPerson now drawn person).person
      fun u => shown u ∨ (person.isOwner = true ∧ u = person.tgUserId) := by
  refine ⟨Table.nodup_keys_upsert (fun _ hkey => hkey) h.accounts, fun row hrow => ?_,
    fun u hu => ?_⟩
  · rcases Table.mem_upsert hrow with ⟨hold, hne⟩ | ⟨old, hold, hkey, rfl⟩ | ⟨hnew, rfl⟩
    · rw [h.owner row hold]
      refine exists_congr fun u => and_congr_left fun hu => (or_iff_left ?_).symm
      rintro ⟨-, rfl⟩
      exact hne hu
    · have hflag : (person.merge now old).isOwner = true ↔
          old.isOwner = true ∨ person.isOwner = true := Bool.or_eq_true_iff
      have haccount : old.tgUserId = some person.tgUserId := hkey
      rw [hflag, h.owner old hold]
      constructor
      · rintro (⟨u, hu, hrowU⟩ | hperson)
        · exact ⟨u, .inl hu, hrowU⟩
        · exact ⟨person.tgUserId, .inr ⟨hperson, rfl⟩, haccount⟩
      · rintro ⟨u, hu | ⟨hperson, -⟩, hrowU⟩
        · exact .inl ⟨u, hu, hrowU⟩
        · exact .inr hperson
    · constructor
      · intro hperson
        exact ⟨person.tgUserId, .inr ⟨hperson, rfl⟩, rfl⟩
      · rintro ⟨u, hu | ⟨hperson, -⟩, hrowU⟩
        · obtain ⟨old, hold, holdU⟩ := h.present u hu
          exact absurd (List.mem_map.mpr ⟨old, hold, holdU.trans hrowU.symm⟩) hnew
        · exact hperson
  · have hkeys : (some u) ∈ db.person.map Person.tgUserId ∨ some u = some person.tgUserId :=
      hu.imp (fun hu => List.mem_map.mpr (h.present u hu)) fun hu => congrArg some hu.2
    unfold Db.upsertPerson
    refine List.mem_map.mp ((Table.mem_keys_upsert ?_).mpr hkeys)
    exact fun _ hkey => hkey

theorem enrolAll {t : Draft} (h : Flagged t.db.person shown) (now : Timestamp) (chatId : Ident)
    (persons : List PersonUpsert) : Flagged (t.enrolAll now chatId persons).db.person
      fun u => shown u ∨ ∃ person ∈ persons, person.isOwner = true ∧ u = person.tgUserId := by
  induction persons generalizing t shown with
  | nil => exact h.congr fun u => (or_iff_left fun ⟨_, hnil, _⟩ => List.not_mem_nil hnil).symm
  | cons person rest ih =>
    have hstep := h.upsertPerson now t.drawn person
    have hrows := @Draft.enrol_person now chatId t person
    rw [← hrows] at hstep
    refine (ih hstep).congr fun u => ?_
    rw [List.exists_mem_cons_iff, or_assoc]

/-- There is one owner at most exactly if one account at most has been shown as the
owner's. -/
theorem length_le_one_iff (h : Flagged rows shown) :
    (rows.filter (·.isOwner)).length ≤ 1 ↔ ∀ u v, shown u → shown v → u = v := by
  have hnodup : ((rows.filter (·.isOwner)).map Person.tgUserId).Nodup :=
    h.accounts.sublist (List.filter_sublist.map _)
  have hmem : ∀ account, account ∈ (rows.filter (·.isOwner)).map Person.tgUserId ↔
      ∃ u, shown u ∧ account = some u := by
    intro account
    constructor
    · intro haccount
      obtain ⟨row, hrow, rfl⟩ := List.mem_map.mp haccount
      obtain ⟨hrow, howner⟩ := List.mem_filter.mp hrow
      exact (h.owner row hrow).mp howner
    · rintro ⟨u, hu, rfl⟩
      obtain ⟨row, hrow, hrowU⟩ := h.present u hu
      have howner := (h.owner row hrow).mpr ⟨u, hu, hrowU⟩
      exact List.mem_map.mpr ⟨row, List.mem_filter.mpr ⟨hrow, howner⟩, hrowU⟩
  rw [← List.length_map Person.tgUserId, ← List.toFinset_card_of_nodup hnodup, Finset.card_le_one]
  constructor
  · intro hone u v hu hv
    have hsome := hone (some u) (List.mem_toFinset.mpr ((hmem _).mpr ⟨u, hu, rfl⟩))
      (some v) (List.mem_toFinset.mpr ((hmem _).mpr ⟨v, hv, rfl⟩))
    exact Option.some.inj hsome
  · intro hone account haccount account' haccount'
    obtain ⟨u, hu, rfl⟩ := (hmem account).mp (List.mem_toFinset.mp haccount)
    obtain ⟨v, hv, rfl⟩ := (hmem account').mp (List.mem_toFinset.mp haccount')
    exact congrArg some (hone u v hu hv)

/-- What `SELECT id FROM person WHERE is_owner = TRUE` finds is the person of an account
that has been shown as the owner's, -/
theorem hasPerson_of_selectOwner {db : Db} (h : Flagged db.person shown) {id : Ident}
    (howner : db.selectOwner = some id) : ∃ u, shown u ∧ db.HasPerson u id := by
  obtain ⟨row, hrow, rfl⟩ := Option.map_eq_some_iff.mp howner
  obtain ⟨hmem, hflag⟩ := List.mem_filter.mp (Table.mem_of_first hrow)
  obtain ⟨u, hu, hrowU⟩ := (h.owner row hmem).mp hflag
  exact ⟨u, hu, row, hmem, hrowU, rfl⟩

/-- and if there is one such account, it is its person. -/
theorem selectOwner_of_hasPerson {db : Db} (h : Flagged db.person shown) {u : ℤ} {id : Ident}
    (hone : ∀ v, shown v ↔ v = u) (hperson : db.HasPerson u id) : db.selectOwner = some id := by
  obtain ⟨row, hrow, hrowU, rfl⟩ := hperson
  have hflag : row.isOwner = true := (h.owner row hrow).mpr ⟨u, (hone u).mpr rfl, hrowU⟩
  cases hselect : db.selectOwner with
  | none =>
    have hnone := Table.first_eq_none_iff.mp (Option.map_eq_none_iff.mp hselect)
    exact absurd (List.mem_filter.mpr ⟨hrow, hflag⟩) (hnone ▸ List.not_mem_nil)
  | some id =>
    obtain ⟨v, hv, row', hrow', hrowV, rfl⟩ := h.hasPerson_of_selectOwner hselect
    obtain rfl := (hone v).mp hv
    rw [List.inj_on_of_nodup_map h.accounts hrow hrow' (hrowU.trans hrowV.symm)]

end Flagged

/-! ## Accounts shown as the owner's -/

section Shown

variable [CharData] (settings : Settings)

/-- A command shows an account as the owner's by its first message of that sender. -/
def ShownAsOwner (commands : List ProjectionCommand) (u : ℤ) : Prop :=
  ∃ command ∈ commands, ∃ message,
    command.messages.find? (fun message => message.tgSenderId = some u) = some message ∧
      matchesOwnerIdentity settings u message.tgSenderUsername message.tgSenderName = true

variable {settings}

/-- A sender is enrolled as its first message shows it. -/
theorem mem_enrolments_iff {topics : List String} {known : List ℤ}
    {messages : List WindowMessagePayload} {person : PersonUpsert} :
    person ∈ enrolments settings topics known messages ↔ ∃ u message, u ∉ known ∧
      messages.find? (fun message => message.tgSenderId = some u) = some message ∧
      person = personUpsert settings u message topics := by
  induction messages generalizing known with
  | nil =>
    constructor
    · intro h
      cases h
    · rintro ⟨u, message, -, hfind, -⟩
      cases hfind
  | cons message rest ih =>
    have hskip : ∀ u, message.tgSenderId ≠ some u →
        (message :: rest).find? (fun message => message.tgSenderId = some u) =
          rest.find? fun message => message.tgSenderId = some u := fun u hne =>
      List.find?_cons_of_neg (by simpa using hne)
    unfold enrolments
    cases hsender : message.tgSenderId with
    | none =>
      rw [ih]
      refine exists_congr fun u => ?_
      rw [hskip u (hsender ▸ Option.some_ne_none u |>.symm)]
    | some sender =>
      dsimp only
      split_ifs with hknown
      · rw [ih]
        refine exists_congr fun u => exists_congr fun message' => and_congr_right fun hu => ?_
        have hne : sender ≠ u := fun heq => hu (heq ▸ hknown)
        rw [hskip u (by simpa [hsender] using hne)]
      · have hhead : (message :: rest).find? (fun message => message.tgSenderId = some sender) =
            some message := List.find?_cons_of_pos (by simpa using hsender)
        rw [List.mem_cons, ih]
        constructor
        · rintro (rfl | ⟨u, message', hu, hfind, rfl⟩)
          · exact ⟨sender, message, hknown, hhead, rfl⟩
          · have hne : sender ≠ u := fun heq =>
              hu (List.mem_append_right _ (List.mem_singleton.mpr heq.symm))
            rw [← hskip u (by simpa [hsender] using hne)] at hfind
            exact ⟨u, message', fun hu' => hu (List.mem_append_left _ hu'), hfind, rfl⟩
        · rintro ⟨u, message', hu, hfind, rfl⟩
          by_cases heq : sender = u
          · subst heq
            rw [hhead] at hfind
            obtain rfl := Option.some.inj hfind
            exact .inl rfl
          · rw [hskip u (by simpa [hsender] using heq)] at hfind
            refine .inr ⟨u, message', fun hu' => ?_, hfind, rfl⟩
            rcases List.mem_append.mp hu' with hu' | hu'
            · exact hu hu'
            · exact heq (List.mem_singleton.mp hu').symm

theorem shownAsOwner_append {commands commands' : List ProjectionCommand} {u : ℤ} :
    ShownAsOwner settings (commands ++ commands') u ↔
      ShownAsOwner settings commands u ∨ ShownAsOwner settings commands' u := by
  unfold ShownAsOwner
  simp only [List.mem_append, or_and_right, exists_or]

/-- The owners among the participants of a command. -/
theorem shownAsOwner_singleton {command : ProjectionCommand} {u : ℤ} :
    ShownAsOwner settings [command] u ↔
      ∃ person ∈ participants settings command, person.isOwner = true ∧ u = person.tgUserId := by
  unfold ShownAsOwner participants
  constructor
  · rintro ⟨command, hmem, message, hfind, hmatches⟩
    obtain rfl := List.mem_singleton.mp hmem
    exact ⟨_, mem_enrolments_iff.mpr ⟨u, message, List.not_mem_nil, hfind, rfl⟩, hmatches, rfl⟩
  · rintro ⟨person, hperson, howner, rfl⟩
    obtain ⟨v, message, -, hfind, rfl⟩ := mem_enrolments_iff.mp hperson
    exact ⟨command, List.mem_singleton_self _, message, hfind, howner⟩

end Shown

/-! ## Runs -/

section Runs

variable [CharData] {env : Env} {settings : Settings} {s s' : World}

theorem Flagged.start : Flagged ({} : World).db.person (ShownAsOwner settings []) :=
  Flagged.empty.congr fun _ => iff_of_false not_false fun ⟨_, h, _⟩ => List.not_mem_nil h

theorem Flagged.project {t : Draft} {commands : List ProjectionCommand}
    (h : Flagged t.db.person (ShownAsOwner settings commands)) (now : Timestamp)
    (command : ProjectionCommand) : Flagged (t.project settings now command).2.db.person
      (ShownAsOwner settings (commands ++ [command])) := by
  have hchat : Flagged (t.upsertChat command).db.person (ShownAsOwner settings commands) := h
  rw [Draft.project_person]
  refine (hchat.enrolAll now _ _).congr fun u => ?_
  rw [shownAsOwner_append, shownAsOwner_singleton]

/-- **In every run** the owners are those of the accounts that committed commands have
shown as the owner's. -/
theorem Env.flagged_deliverAll {commands : List ProjectionCommand} (hs : s.tx = none)
    (h : Flagged s.db.person (ShownAsOwner settings commands))
    (deliveries : List (StreamEntry × Timestamp)) :
    (env.deliverAll settings s deliveries).tx = none ∧
      Flagged (env.deliverAll settings s deliveries).db.person
        (ShownAsOwner settings (commands ++ env.committed settings s deliveries)) := by
  refine @Env.committed_invariant _ env settings s (fun commands s => s.tx = none ∧
    Flagged s.db.person (ShownAsOwner settings commands)) (fun _ _ h => h.1) ?_ ?_ deliveries _
    ⟨hs, h⟩
  · intro commands s s' command now ⟨hs, h⟩ hp
    have hdb : s.draft.db = s.db := World.tables_of_closed hs
    rw [hp.db]
    exact ⟨hp.closed, (show Flagged s.draft.db.person _ from hdb.symm ▸ h).project now command⟩
  · intro commands s s' ⟨hs, h⟩ hpass hle
    rw [hpass.db]
    exact ⟨hpass.closed, h⟩

/-- A person stays. -/
theorem Env.hasPerson_deliverAll {u : ℤ} {id : Ident} (hs : s.tx = none)
    (h : s.db.HasPerson u id) (deliveries : List (StreamEntry × Timestamp)) :
    (env.deliverAll settings s deliveries).db.HasPerson u id := by
  refine (@Env.committed_invariant _ env settings s (fun _ s => s.tx = none ∧ s.db.HasPerson u id)
    (fun _ _ h => h.1) ?_ ?_ deliveries [] ⟨hs, h⟩).2
  · intro commands s s' command now ⟨hs, h⟩ hp
    exact ⟨hp.closed, hp.hasPerson hs h⟩
  · intro commands s s' ⟨hs, h⟩ hpass hle
    rw [hpass.db]
    exact ⟨hpass.closed, h⟩

/-- **The owner rows of every run.**  A row is an owner's exactly if a committed command
has shown its account as the owner's; there is at most one exactly if these accounts are
one; and in a run where they are, an owner that is selected once is selected ever after. -/
theorem owner_rows (env : Env) (settings : Settings) (earlier later : List (StreamEntry × Timestamp)) :
    let s := env.deliverAll settings {} earlier
    let s' := env.deliverAll settings s later
    let shown := ShownAsOwner settings
      (env.committed settings {} earlier ++ env.committed settings s later)
    (∀ row ∈ s'.db.person, row.isOwner = true ↔ ∃ u, shown u ∧ row.tgUserId = some u) ∧
      ((s'.db.person.filter (·.isOwner)).length ≤ 1 ↔ ∀ u v, shown u → shown v → u = v) ∧
      ((∀ u v, shown u → shown v → u = v) →
        ∀ id, s.db.selectOwner = some id → s'.db.selectOwner = some id) := by
  intro s s' shown
  obtain ⟨hs, hearlier⟩ := env.flagged_deliverAll rfl Flagged.start earlier
  obtain ⟨-, hlater⟩ := env.flagged_deliverAll hs hearlier later
  rw [List.nil_append] at hearlier hlater
  refine ⟨hlater.owner, hlater.length_le_one_iff, fun hone id howner => ?_⟩
  obtain ⟨u, hu, hperson⟩ := hearlier.hasPerson_of_selectOwner howner
  have hshown : shown u := shownAsOwner_append.mpr (.inl hu)
  refine hlater.selectOwner_of_hasPerson (fun v => ⟨fun hv => hone v u hv hshown, ?_⟩)
    (env.hasPerson_deliverAll hs hperson later)
  rintro rfl
  exact hshown

end Runs

/-! ## A namesake -/

/-- Account 11 is the owner's, and the owner is called Ян. -/
def namedOwner : Settings where
  ownerTgUserIds := [11]
  ownerDisplayNames := "Ян"

/-- A contact of that name writes to the owner. -/
def namesake : StreamEntry where
  id := 1
  command :=
    { commandId := 101
      sourceWindowId := 201
      sourceEventId := 301
      tgChatId := 7
      messages := [
        { tgMessageId := 1, tgSenderId := some 11, text := "привет", occurredAt := 60 },
        { tgMessageId := 2, tgSenderId := some 12, tgSenderName := some "Ян", occurredAt := 70 }]
      features := {}
      result := { sourceWindowId := 201, summary := "приветствие" } }

theorem ownerDisplayNameSet_namedOwner :
    @Settings.ownerDisplayNameSet basicCharData namedOwner = ["ян"] := by
  have hsplit : "Ян".splitOn "," = ["Ян"] := by
    rw [String.splitOn, if_neg (by decide), String.splitOnAux, if_neg (by decide),
      if_neg (by decide), String.splitOnAux, if_neg (by decide),
      if_neg (by decide), String.splitOnAux, if_pos (by decide)]
    decide
  unfold Settings.ownerDisplayNameSet namedOwner
  rw [hsplit]
  decide

theorem committed_namesake : @Env.committed basicCharData {} namedOwner {} [(namesake, 61)] =
    [namesake.command] := by
  decide +kernel

theorem shownAsOwner_namesake :
    @ShownAsOwner basicCharData namedOwner [namesake.command] 11 ∧
      @ShownAsOwner basicCharData namedOwner [namesake.command] 12 := by
  refine ⟨⟨_, List.mem_singleton_self _, _, rfl, rfl⟩, ⟨_, List.mem_singleton_self _, _, rfl, ?_⟩⟩
  unfold matchesOwnerIdentity
  rw [ownerDisplayNameSet_namedOwner]
  decide

/-- Both are owners. -/
theorem two_owners_namesake :
    1 < ((@Env.deliverAll {} basicCharData namedOwner {} [(namesake, 61)]).db.person.filter
      (·.isOwner)).length := by
  have hflagged := (@Env.flagged_deliverAll basicCharData {} namedOwner {} [] rfl
    (@Flagged.start basicCharData namedOwner) [(namesake, 61)]).2
  rw [List.nil_append, committed_namesake] at hflagged
  refine lt_of_not_ge fun hone => ?_
  have heq := hflagged.length_le_one_iff.mp hone 11 12 shownAsOwner_namesake.1
    shownAsOwner_namesake.2
  exact absurd heq (by decide)

end Memory
end PersonalIntelligence
