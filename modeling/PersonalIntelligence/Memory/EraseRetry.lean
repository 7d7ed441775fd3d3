import PersonalIntelligence.Memory.EraseRuns

/-!
# Erasing again

An erase deletes the canonical rows first and cleans up the other stores after that.  If
the clean-up fails, the erase ends with warnings, and one would like to run it again.  But
the first thing an erase does is to look for the person, and the person is gone: the second
run answers 404 and touches nothing (`exec_erase_again`).
-/

namespace PersonalIntelligence
namespace Memory

open Resumption

/-! ## Erases that only fail in the clean-up -/

/-- The commands of the clean-up. -/
def EraseCmd.cleansUp : EraseCmd → Bool
  | .deletePoints _ _ | .deleteNode _ | .deleteObject _ => true
  | _ => false

/-- Nothing but the clean-up fails. -/
def EraseEnv.CleanUpOnly (env : EraseEnv) : Prop :=
  ∀ n c, env.faults n c = true → c.cleansUp = true

/-- Nothing fails. -/
theorem EraseEnv.CleanUpOnly.healthy : EraseEnv.CleanUpOnly {} := fun _ _ h => by cases h

/-- The person may be erased. -/
structure Erasable (db : Db) (person : Person) : Prop where
  selected : db.selectPerson person.id = some person
  notOwner : person.isOwner = false
  notBacking : db.backsOwner person.id = false

/-- The program, in a transaction of `s` that sees `t`, returns `a` and leaves `t'`. -/
def EraseEnv.Yields (env : EraseEnv) (s : World) {α : Type} (t : Db) (p : Erasing α) (a : α)
    (t' : Db) : Prop := ∀ n, ∃ m, exec env.run p (s.opened t n) = (.ok a, s.opened t' m)

namespace EraseEnv.CleanUpOnly

variable {env : EraseEnv} (henv : env.CleanUpOnly) {α : Type} {s : World} {t t₁ t' : Db} {a : α}
include henv

/-- A command of Postgres has its effect. -/
theorem run {c : EraseCmd} (hc : c.cleansUp = false) (s : World) :
    env.run c s = ((s.erase c).1, (s.erase c).2.tick) := by
  unfold EraseEnv.run
  rw [if_neg]
  intro hfault
  have hcleans := henv s.calls c (Bool.and_eq_true_iff.mp hfault).2
  rw [hc] at hcleans
  cases hcleans

theorem yields_ask (c : EraseCmd) {f : EraseAns c → Erasing α} (b : EraseAns c)
    (hc : c.cleansUp = false) (herase : ∀ n, (s.opened t n).erase c = (.ok b, s.opened t₁ n))
    (hf : env.Yields s t₁ (f b) a t') : env.Yields s t (ask c >>= f) a t' := by
  intro n
  rw [ask, exec_perform_bind, henv.run hc, herase, andThen_ok]
  exact hf (n + 1)

omit henv in
/-- A deletion, which is left out if there is nothing to delete. -/
theorem yields_ifAny {ids : List Ident} {f : ℕ → Erasing α} {delete : Erasing ℕ} (t₁ : Db) (k : ℕ)
    (hdelete : env.Yields s t₁ (f k) a t' → env.Yields s t (delete >>= f) a t')
    (hnil : ids = [] → t₁ = t ∧ k = 0) (hf : env.Yields s t₁ (f k) a t') :
    env.Yields s t (ifAny ids delete >>= f) a t' := by
  unfold ifAny
  split_ifs with hids
  · obtain ⟨rfl, rfl⟩ := hnil hids
    exact hf
  · exact hdelete hf

theorem yields_selectWindowRows {tgUserId : Option ℤ} {f : List Ident → Erasing α}
    (hf : env.Yields s t (f (t.erasedWindows tgUserId)) a t') :
    env.Yields s t (selectWindowRows tgUserId >>= f) a t' := by
  cases tgUserId with
  | none => exact hf
  | some u => exact henv.yields_ask (.selectWindows u) _ rfl (fun _ => rfl) hf

/-- The statements of the transaction, if the person is there. -/
theorem yields_eraseRows {personId : Ident} (tgUserId : Option ℤ)
    (hperson : ∃ row ∈ t.person, row.id = personId) :
    env.Yields s t (eraseRows personId tgUserId) (t.erasedRows personId tgUserId)
      (t.erased personId tgUserId) := by
  have hpeople : t.person.countP (fun row => row.id = personId) ≠ 0 := by
    obtain ⟨row, hrow, hid⟩ := hperson
    exact (List.countP_pos_iff.mpr ⟨row, hrow, decide_eq_true hid⟩).ne'
  have hwindows := t.deleteWindows_again (t.erasedWindows tgUserId)
  refine henv.yields_ask _ (t.countAnnotations personId) rfl (fun _ => rfl) ?_
  refine henv.yields_ask _ (t.countMemberships personId) rfl (fun _ => rfl) ?_
  refine henv.yields_ask _ (t.countMentions personId) rfl (fun _ => rfl) ?_
  refine henv.yields_ask _ (t.tasksOf personId) rfl (fun _ => rfl) ?_
  refine henv.yields_ask _ (t.interactionsOf personId) rfl (fun _ => rfl) ?_
  refine henv.yields_selectWindowRows ?_
  set windowIds := t.erasedWindows tgUserId
  refine yields_ifAny (t.deleteSignalsOf windowIds)
    (t.analyticsSignal.countP fun row => row.windowId ∈ windowIds)
    (fun hf => henv.yields_ask (.deleteSignals windowIds) _ rfl (fun _ => rfl) hf) (fun hnil => ?_) ?_
  · rw [hnil]
    exact ⟨t.deleteSignalsOf_nil, countP_mem_nil _ _⟩
  refine yields_ifAny ((t.deleteSignalsOf windowIds).deleteFactsOf windowIds)
    (t.extractedFact.countP fun row => row.windowId ∈ windowIds)
    (fun hf => henv.yields_ask (.deleteFacts windowIds) _ rfl (fun _ => rfl) hf) (fun hnil => ?_) ?_
  · rw [hnil]
    exact ⟨Db.deleteFactsOf_nil _, countP_mem_nil _ _⟩
  refine yields_ifAny (t.deleteWindows windowIds)
    (t.analysisWindow.countP fun row => row.id ∈ windowIds)
    (fun hf => henv.yields_ask (.deleteWindows windowIds) _ rfl (fun _ => hwindows ▸ rfl) hf)
    (fun hnil => ?_) ?_
  · rw [← hwindows, hnil]
    exact ⟨Db.deleteWindows_nil _, countP_mem_nil _ _⟩
  set interactionIds := (t.interactionsOf personId).map (·.1)
  refine yields_ifAny ((t.deleteWindows windowIds).deleteInteractions interactionIds)
    (t.interaction.countP fun row => row.id ∈ interactionIds)
    (fun hf => henv.yields_ask (.deleteInteractions interactionIds) _ rfl (fun _ => rfl) hf)
    (fun hnil => ?_) ?_
  · rw [hnil]
    exact ⟨Db.deleteInteractions_nil _, countP_mem_nil _ _⟩
  refine yields_ifAny (((t.deleteWindows windowIds).deleteInteractions
      interactionIds).deleteTasks (t.tasksOf personId))
    (t.task.countP fun row => row.id ∈ t.tasksOf personId)
    (fun hf => henv.yields_ask (.deleteTasks _) _ rfl (fun _ => rfl) hf) (fun hnil => ?_) ?_
  · rw [hnil]
    exact ⟨Db.deleteTasks_nil _, countP_mem_nil _ _⟩
  have hdelete : ∀ n, (s.opened (((t.deleteWindows windowIds).deleteInteractions
      interactionIds).deleteTasks (t.tasksOf personId)) n).erase (.deletePerson personId) =
        (.ok (t.person.countP fun row => row.id = personId),
          s.opened (t.erased personId tgUserId) n) := fun _ => rfl
  refine henv.yields_ask (.deletePerson personId) _ rfl hdelete ?_
  rw [if_neg hpeople]
  exact fun n => ⟨n, rfl⟩

end EraseEnv.CleanUpOnly

section Cascade

variable {env : EraseEnv} (hashIdentifier : Ident → ℕ) (settings : RestSettings) (actor : String)
  {s : World}

theorem exec_validate_of_cleanUpOnly (henv : env.CleanUpOnly) (hs : s.tx = none) {person : Person}
    (hperson : Erasable s.db person) :
    exec env.run (validatePersonEraseTarget person.id) s = (.ok person, s.tick.tick) := by
  have htables : s.tables = s.db := World.tables_of_closed hs
  have hselect : s.erase (.selectPerson person.id) = (.ok (some person), s) := by
    rw [World.erase, htables, hperson.selected]
  have hbacking : s.tick.erase (.selectOwnerBacking person.id) = (.ok false, s.tick) := by
    rw [World.erase, show s.tick.tables = s.db from htables, hperson.notBacking]
  unfold validatePersonEraseTarget
  rw [ask, exec_perform_bind, henv.run rfl, hselect, andThen_ok]
  dsimp only
  rw [ask, exec_perform_bind, henv.run rfl, hbacking, andThen_ok, hperson.notOwner, if_neg (by simp)]
  rfl

theorem exec_eraseTransaction_of_cleanUpOnly (henv : env.CleanUpOnly) {personId : Ident}
    (tgUserId : Option ℤ) (hperson : ∃ row ∈ s.db.person, row.id = personId) :
    ∃ rows s', exec env.run (eraseTransaction personId tgUserId) s = (.ok rows, s') := by
  obtain ⟨m, hrows⟩ := henv.yields_eraseRows (s := s) tgUserId hperson (s.calls + 1)
  unfold eraseTransaction
  rw [env.exec_transaction, henv.run rfl, World.erase, andThen_ok, exec_bind]
  have hopen : (World.tick { s with tx := some s.db }) = s.opened s.db (s.calls + 1) := rfl
  rw [hopen, hrows, andThen_ok, ask, exec_perform_bind, henv.run rfl]
  exact ⟨_, _, rfl⟩

/-- **An erase that only fails in the clean-up** returns its summary. -/
theorem exec_erase_of_cleanUpOnly (henv : env.CleanUpOnly) (hs : s.tx = none) {person : Person}
    (hperson : Erasable s.db person) :
    ∃ summary s', exec env.run (erasePersonCascade hashIdentifier settings actor person.id) s =
        (.ok summary, s') ∧ Erased settings person summary.warnings s s' := by
  have hrow : ∃ row ∈ s.db.person, row.id = person.id :=
    ⟨person, List.mem_of_find?_eq_some hperson.selected, rfl⟩
  have hreturns : ∃ summary s', exec env.run
      (erasePersonCascade hashIdentifier settings actor person.id) s = (.ok summary, s') := by
    unfold erasePersonCascade
    rw [exec_bind, exec_validate_of_cleanUpOnly henv hs hperson, andThen_ok, exec_bind]
    obtain ⟨rows, s₁, htx⟩ := exec_eraseTransaction_of_cleanUpOnly henv (s := s.tick.tick)
      person.tgUserId hrow
    obtain ⟨k, warnings, s₂, hderived, -⟩ :=
      exec_eraseDerived env settings person.id rows.sourceObjectRefs s₁
    rw [htx, andThen_ok, exec_bind, hderived, andThen_ok, exec_perform_bind, henv.run rfl]
    exact ⟨_, _, rfl⟩
  obtain ⟨summary, s', hok⟩ := hreturns
  rcases exec_erasePersonCascade_cases env hashIdentifier settings actor person.id hs with
    ⟨row, warnings, r, s₁, hexec, hselect, -, herased, hr⟩ | ⟨e, n, hexec⟩
  · rw [hok] at hexec
    cases hexec
    obtain rfl := Option.some.inj (hselect.symm.trans hperson.selected)
    rw [← hr summary rfl] at herased
    exact ⟨summary, s', hok, herased⟩
  · rw [hok] at hexec
    cases hexec

/-- **A second erase** finds nobody, and touches nothing. -/
theorem exec_erase_again (henv : env.CleanUpOnly) {person : Person} {warnings : List EraseWarning}
    {s' : World} (h : Erased settings person warnings s s') :
    exec env.run (erasePersonCascade hashIdentifier settings actor person.id) s' =
      (.error (.http 404 "person_not_found"), s'.tick) := by
  have hgone : s'.db.selectPerson person.id = none := by
    rw [h.rows]
    refine List.find?_eq_none.mpr fun row hrow => ?_
    have hleft := of_decide_eq_true (List.mem_filter.mp hrow).2
    simpa using hleft
  have hselect : s'.erase (.selectPerson person.id) = (.ok none, s') := by
    rw [World.erase, World.tables_of_closed h.closed, hgone]
  unfold erasePersonCascade validatePersonEraseTarget
  rw [exec_bind, ask, exec_perform_bind, henv.run rfl, hselect]
  rfl

end Cascade

/-! ## Completing an erase -/

/-- Nothing of the person is left in the stores that an erase cleans up. -/
structure CleanedUpFully (settings : RestSettings) (personId : Ident) (keys : List ArtifactKey)
    (s : World) : Prop where
  points : ∀ c, s.qdrant.collections (s.qdrant.resolve settings.qdrantAliasName) = some c →
    ∀ p ∈ c.points, ¬ p.Names personId
  node : ∀ node ∈ s.graph.persons, node.1 ≠ personId
  objects : ∀ key ∈ keys, s.objects key = none

/-- A second erase, with all stores healthy, completes the first. -/
def RetryCompletes (env : EraseEnv) (hashIdentifier : Ident → ℕ) (settings : RestSettings)
    (actor : String) (personId : Ident) (s : World) : Prop :=
  let first := exec env.run (erasePersonCascade hashIdentifier settings actor personId) s
  let second := exec (EraseEnv.run {}) (erasePersonCascade hashIdentifier settings actor personId)
    first.2
  (∃ summary, second.1 = .ok summary) ∧
    CleanedUpFully settings personId (s.db.erasedObjects personId) second.2

/-- **No erase can be completed by running it again.** -/
theorem not_retryCompletes {env : EraseEnv} (hashIdentifier : Ident → ℕ) (settings : RestSettings)
    (actor : String) {s : World} {person : Person} (henv : env.CleanUpOnly) (hs : s.tx = none)
    (hperson : Erasable s.db person) :
    ¬ RetryCompletes env hashIdentifier settings actor person.id s := by
  rintro ⟨⟨summary, hsecond⟩, -⟩
  obtain ⟨first, s', hfirst, herased⟩ :=
    exec_erase_of_cleanUpOnly hashIdentifier settings actor henv hs hperson
  have hagain := exec_erase_again hashIdentifier settings actor EraseEnv.CleanUpOnly.healthy herased
  rw [hfirst, hagain] at hsecond
  cases hsecond

/-- A person without rows in any other table. -/
def loner : Person where
  id := 1
  tgUserId := some 11
  username := none
  displayName := "tg:11"
  topics := []
  lastInteractionAt := some 60
  isOwner := false
  updatedAt := 61

/-- A point about this person. -/
def lonerPoint : Point where
  id := 201
  vector := [1, 0]
  payload :=
    { chatId := 7
      personIds := [1]
      topicTags := []
      tsFrom := 62
      tsTo := 62
      profileProvider := .wormsoft
      profileModel := "qwen/qwen3-embedding:8b"
      analysisWindowId := 201
      sourceWindowId := 201
      narrativeText := "приветствие" }

/-- The stores with the person and the point. -/
def lonerStores : World where
  db := { person := [loner] }
  qdrant := ({} : Qdrant).set "pil_memory_active" { dimension := 2, points := [lonerPoint] }

/-- The vector store does not answer. -/
def withoutQdrant : EraseEnv where
  faults _ c := match c with
    | .deletePoints _ _ => true
    | _ => false

theorem withoutQdrant_cleanUpOnly : withoutQdrant.CleanUpOnly := by
  intro n c hfault
  cases c with
  | deletePoints => rfl
  | _ => cases hfault

theorem not_retryCompletes_lonerStores :
    ¬ RetryCompletes withoutQdrant id {} "admin" 1 lonerStores :=
  @not_retryCompletes withoutQdrant id {} "admin" lonerStores loner withoutQdrant_cleanUpOnly rfl
    ⟨by decide, rfl, by decide⟩

/-- The first erase ends with a warning, the second finds nobody, and the point stays. -/
theorem lonerPoint_survives :
    let first := exec withoutQdrant.run (erasePersonCascade id {} "admin" 1) lonerStores
    let second := exec (EraseEnv.run {}) (erasePersonCascade id {} "admin" 1) first.2
    first.1.map EraseSummary.warnings = .ok [.qdrantCleanupFailed] ∧
      second.1 = .error (.http 404 "person_not_found") ∧
      second.2.qdrant.collections "pil_memory_active" =
        some { dimension := 2, points := [lonerPoint] } ∧
      ¬ RetryCompletes withoutQdrant id {} "admin" 1 lonerStores := by
  refine ⟨by decide, by decide, by decide, ?_⟩
  rintro ⟨⟨summary, hsecond⟩, -⟩
  have herror : (exec (EraseEnv.run {}) (erasePersonCascade id {} "admin" 1)
      (exec withoutQdrant.run (erasePersonCascade id {} "admin" 1) lonerStores).2).1 =
        .error (.http 404 "person_not_found") := by decide
  rw [herror] at hsecond
  cases hsecond

end Memory
end PersonalIntelligence
