import PersonalIntelligence.Library.Contract
import PersonalIntelligence.Memory.Erase

/-!
# What an erase does

The transaction of an erase either commits, and then the tables are those of
`Db.erased`, or leaves the tables alone (`exec_eraseTransaction_cases`).  The clean-up
that follows it never raises and touches no table (`exec_eraseDerived`).
-/

namespace PersonalIntelligence
namespace Memory

open Resumption

/-! ## The tables after an erase -/

namespace Db

variable (db : Db) (personId : Ident) (tgUserId : Option ℤ)

/-- The windows an erase deletes. -/
def erasedWindows : List Ident :=
  match tgUserId with
  | some tgUserId => db.windowsOf tgUserId
  | none => []

/-- The tables after the transaction of an erase. -/
def erased : Db :=
  (((db.deleteWindows (db.erasedWindows tgUserId)).deleteInteractions
    ((db.interactionsOf personId).map (·.1))).deleteTasks (db.tasksOf personId)).deletePerson
      personId

/-- The objects an erase goes on to delete. -/
def erasedObjects : List ArtifactKey := (db.interactionsOf personId).filterMap (·.2)

/-- What the transaction leaves in variables. -/
def erasedRows : ErasedRows where
  relationshipCount := db.countAnnotations personId
  membershipCount := db.countMemberships personId
  mentionCount := db.countMentions personId
  sourceObjectRefs := (db.interactionsOf personId).filterMap (·.2)
  deletedAnalyticsSignals :=
    db.analyticsSignal.countP fun row => row.windowId ∈ db.erasedWindows tgUserId
  deletedExtractedFacts :=
    db.extractedFact.countP fun row => row.windowId ∈ db.erasedWindows tgUserId
  deletedAnalysisWindows :=
    db.analysisWindow.countP fun row => row.id ∈ db.erasedWindows tgUserId
  deletedInteractions :=
    db.interaction.countP fun row => row.id ∈ (db.interactionsOf personId).map (·.1)
  deletedTasks := db.task.countP fun row => row.id ∈ db.tasksOf personId
  deletedPeople := db.person.countP fun row => row.id = personId

theorem deleteSignalsOf_nil : db.deleteSignalsOf [] = db := by simp [deleteSignalsOf]

theorem deleteFactsOf_nil : db.deleteFactsOf [] = db := by simp [deleteFactsOf]

theorem deleteWindows_nil : db.deleteWindows [] = db := by
  simp [deleteWindows, deleteSignalsOf, deleteFactsOf]

theorem deleteInteractions_nil : db.deleteInteractions [] = db := by
  simp [deleteInteractions]

theorem deleteTasks_nil : db.deleteTasks [] = db := by simp [deleteTasks]

/-- Facts and signals that are gone do not go again. -/
theorem deleteWindows_again (ids : List Ident) :
    ((db.deleteSignalsOf ids).deleteFactsOf ids).deleteWindows ids = db.deleteWindows ids := by
  simp [deleteWindows, deleteSignalsOf, deleteFactsOf]

end Db

/-! ## The transaction -/

/-- `s` in an open transaction that sees `t`. -/
def World.opened (s : World) (t : Db) (n : ℕ) : World := { s with tx := some t, calls := n }

/-- `s` with the tables `db` committed. -/
def World.closed (s : World) (db : Db) (n : ℕ) : World :=
  { s with db, tx := none, calls := n }

section Transaction

variable (env : EraseEnv)

/-- A command either has its effect or raises and has none. -/
theorem EraseEnv.run_cases (c : EraseCmd) (s : World) :
    env.run c s = ((s.erase c).1, (s.erase c).2.tick) ∨
      (c.infallible = false ∧ env.run c s = (.error .callFailed, s.tick)) := by
  unfold EraseEnv.run
  split_ifs with h
  · rw [Bool.and_eq_true, Bool.not_eq_true'] at h
    exact .inr ⟨h.1, rfl⟩
  · exact .inl rfl

variable {env} {α : Type} {s s' : World}

/-- What an effect keeps, the command keeps, if the count of calls does not matter. -/
theorem EraseEnv.run_invariant (env : EraseEnv) {I : World → Prop} {c : EraseCmd}
    (htick : ∀ s, I s → I s.tick) (herase : I s → I (s.erase c).2) (h : I s) :
    I (env.run c s).2 := by
  rcases env.run_cases c s with hrun | ⟨-, hrun⟩
  · rw [hrun]
    exact htick _ (herase h)
  · rw [hrun]
    exact htick s h

/-- In a run that returns, a command has had its effect. -/
theorem exec_ask_ok {c : EraseCmd} {a b : EraseAns c} {s₁ : World}
    (herase : s.erase c = (.ok a, s₁)) (h : exec env.run (ask c) s = (.ok b, s')) :
    b = a ∧ s' = s₁.tick := by
  rw [ask, exec_perform] at h
  rcases env.run_cases c s with hrun | ⟨-, hrun⟩
  · rw [hrun, herase] at h
    cases h
    exact ⟨rfl, rfl⟩
  · rw [hrun] at h
    cases h

theorem exec_ask_bind_ok {c : EraseCmd} {f : EraseAns c → Erasing α} {a : EraseAns c}
    {b : α} {s₁ : World} (herase : s.erase c = (.ok a, s₁))
    (h : exec env.run (ask c >>= f) s = (.ok b, s')) :
    exec env.run (f a) s₁.tick = (.ok b, s') := by
  rw [exec_bind_eq_ok] at h
  obtain ⟨a', s₂, hask, hrest⟩ := h
  obtain ⟨rfl, rfl⟩ := exec_ask_ok herase hask
  exact hrest

variable {t : Db} {n : ℕ}

/-- A query in an open transaction. -/
theorem exec_query_bind_ok {c : EraseCmd} {f : EraseAns c → Erasing α} (a : EraseAns c) {b : α}
    (herase : (s.opened t n).erase c = (.ok a, s.opened t n))
    (h : exec env.run (ask c >>= f) (s.opened t n) = (.ok b, s')) :
    exec env.run (f a) (s.opened t (n + 1)) = (.ok b, s') := exec_ask_bind_ok herase h

/-- A deletion in an open transaction, which is left out if there is nothing to delete. -/
theorem exec_ifAny_bind_ok {ids : List Ident} {delete : Erasing ℕ} {f : ℕ → Erasing α} {b : α}
    (t' : Db) (k : ℕ) (hdelete : ∀ {k' s₁}, exec env.run delete (s.opened t n) = (.ok k', s₁) →
      k' = k ∧ s₁ = (s.opened t' n).tick)
    (hnil : ids = [] → t' = t ∧ k = 0)
    (h : exec env.run (ifAny ids delete >>= f) (s.opened t n) = (.ok b, s')) :
    ∃ m, exec env.run (f k) (s.opened t' m) = (.ok b, s') := by
  unfold ifAny at h
  split_ifs at h with hids
  · obtain ⟨rfl, rfl⟩ := hnil hids
    exact ⟨n, h⟩
  · rw [exec_bind_eq_ok] at h
    obtain ⟨k', s₁, hrun, hrest⟩ := h
    obtain ⟨rfl, rfl⟩ := hdelete hrun
    exact ⟨n + 1, hrest⟩

theorem exec_selectWindowRows_bind_ok {tgUserId : Option ℤ} {f : List Ident → Erasing α} {b : α}
    (h : exec env.run (selectWindowRows tgUserId >>= f) (s.opened t n) = (.ok b, s')) :
    ∃ m, exec env.run (f (t.erasedWindows tgUserId)) (s.opened t m) = (.ok b, s') := by
  cases tgUserId with
  | none => exact ⟨n, h⟩
  | some u => exact ⟨n + 1, exec_ask_bind_ok rfl h⟩

/-- A count over the empty list of keys. -/
theorem countP_mem_nil {ρ : Type} (rows : List ρ) (key : ρ → Ident) :
    (rows.countP fun row => key row ∈ ([] : List Ident)) = 0 :=
  List.countP_eq_zero.mpr (by simp)

/-- **The rows of an erase**, if all of its statements have succeeded. -/
theorem exec_eraseRows_ok {personId : Ident} {tgUserId : Option ℤ} {rows : ErasedRows}
    (h : exec env.run (eraseRows personId tgUserId) (s.opened t n) = (.ok rows, s')) :
    (∃ m, s' = s.opened (t.erased personId tgUserId) m) ∧
      rows = t.erasedRows personId tgUserId ∧ rows.deletedPeople ≠ 0 := by
  unfold eraseRows at h
  replace h := exec_query_bind_ok (t.countAnnotations personId) rfl h
  replace h := exec_query_bind_ok (t.countMemberships personId) rfl h
  replace h := exec_query_bind_ok (t.countMentions personId) rfl h
  replace h := exec_query_bind_ok (t.tasksOf personId) rfl h
  replace h := exec_query_bind_ok (t.interactionsOf personId) rfl h
  obtain ⟨m, h⟩ := exec_selectWindowRows_bind_ok h
  have hwindows := t.deleteWindows_again (t.erasedWindows tgUserId)
  set windowIds := t.erasedWindows tgUserId with hids
  obtain ⟨m, h⟩ := exec_ifAny_bind_ok (t.deleteSignalsOf windowIds)
    (t.analyticsSignal.countP fun row => row.windowId ∈ windowIds)
    (fun hd => exec_ask_ok rfl hd) (fun hnil => by
      rw [hnil]
      exact ⟨t.deleteSignalsOf_nil, countP_mem_nil _ _⟩) h
  obtain ⟨m, h⟩ := exec_ifAny_bind_ok ((t.deleteSignalsOf windowIds).deleteFactsOf windowIds)
    (t.extractedFact.countP fun row => row.windowId ∈ windowIds)
    (fun hd => exec_ask_ok rfl hd) (fun hnil => by
      rw [hnil]
      exact ⟨Db.deleteFactsOf_nil _, countP_mem_nil _ _⟩) h
  obtain ⟨m, h⟩ := exec_ifAny_bind_ok (t.deleteWindows windowIds)
    (t.analysisWindow.countP fun row => row.id ∈ windowIds)
    (fun hd => hwindows ▸ exec_ask_ok rfl hd) (fun hnil => by
      rw [← hwindows, hnil]
      exact ⟨Db.deleteWindows_nil _, countP_mem_nil _ _⟩) h
  set interactionIds := (t.interactionsOf personId).map (·.1) with hinteractions
  obtain ⟨m, h⟩ := exec_ifAny_bind_ok ((t.deleteWindows windowIds).deleteInteractions interactionIds)
    (t.interaction.countP fun row => row.id ∈ interactionIds)
    (fun hd => exec_ask_ok rfl hd) (fun hnil => by
      rw [hnil]
      exact ⟨Db.deleteInteractions_nil _, countP_mem_nil _ _⟩) h
  obtain ⟨m, h⟩ := exec_ifAny_bind_ok (((t.deleteWindows windowIds).deleteInteractions
      interactionIds).deleteTasks (t.tasksOf personId))
    (t.task.countP fun row => row.id ∈ t.tasksOf personId)
    (fun hd => exec_ask_ok rfl hd) (fun hnil => by
      rw [hnil]
      exact ⟨Db.deleteTasks_nil _, countP_mem_nil _ _⟩) h
  replace h := exec_ask_bind_ok (a := t.person.countP fun row => row.id = personId) rfl h
  split_ifs at h with hzero
  · cases h
  · cases h
    exact ⟨⟨m + 1, rfl⟩, rfl, hzero⟩

/-- The statements of the transaction. -/
def EraseCmd.onRows : EraseCmd → Prop
  | .countAnnotations _ | .countMemberships _ | .countMentions _ | .selectTasks _
  | .selectInteractions _ | .selectWindows _ | .deleteSignals _ | .deleteFacts _
  | .deleteWindows _ | .deleteInteractions _ | .deleteTasks _ | .deletePerson _ => True
  | _ => False

/-- The contract of `eraseRows`. -/
def onRows : Contract EraseCmd EraseAns Exc where
  allowed := EraseCmd.onRows

theorem ifAny_keeps {ids : List Ident} {delete : Erasing ℕ}
    (h : delete.Keeps onRows fun _ => True) : (ifAny ids delete).Keeps onRows fun _ => True := by
  unfold ifAny
  split_ifs
  · exact Prog.keeps_ret.mpr trivial
  · exact h

theorem selectWindowRows_keeps (tgUserId : Option ℤ) :
    (selectWindowRows tgUserId).Keeps onRows fun _ => True := by
  cases tgUserId with
  | none => exact Prog.keeps_ret.mpr trivial
  | some u => exact Prog.keeps_perform (EraseCmd.selectWindows u) trivial fun _ _ => trivial

theorem eraseRows_keeps (personId : Ident) (tgUserId : Option ℤ) :
    (eraseRows personId tgUserId).Keeps onRows fun _ => True := by
  refine Prog.keeps_perform_bind trivial fun _ _ => ?_
  refine Prog.keeps_perform_bind trivial fun _ _ => ?_
  refine Prog.keeps_perform_bind trivial fun _ _ => ?_
  refine Prog.keeps_perform_bind trivial fun _ _ => ?_
  refine Prog.keeps_perform_bind trivial fun _ _ => ?_
  refine (selectWindowRows_keeps tgUserId).bind fun windowIds _ => ?_
  refine (ifAny_keeps (Prog.keeps_perform (EraseCmd.deleteSignals _) trivial
    fun _ _ => trivial)).bind fun _ _ => ?_
  refine (ifAny_keeps (Prog.keeps_perform (EraseCmd.deleteFacts _) trivial
    fun _ _ => trivial)).bind fun _ _ => ?_
  refine (ifAny_keeps (Prog.keeps_perform (EraseCmd.deleteWindows _) trivial
    fun _ _ => trivial)).bind fun _ _ => ?_
  refine (ifAny_keeps (Prog.keeps_perform (EraseCmd.deleteInteractions _) trivial
    fun _ _ => trivial)).bind fun _ _ => ?_
  refine (ifAny_keeps (Prog.keeps_perform (EraseCmd.deleteTasks _) trivial
    fun _ _ => trivial)).bind fun _ _ => ?_
  refine Prog.keeps_perform_bind trivial fun deletedPeople _ => ?_
  split_ifs
  · exact Prog.keeps_raise
  · exact Prog.keeps_ret.mpr trivial

variable (env) (s)

/-- Whatever becomes of them, the statements of an erase stay in their transaction. -/
theorem exec_eraseRows_opened (t : Db) (n : ℕ) (personId : Ident) (tgUserId : Option ℤ) :
    ∃ t' m, (exec env.run (eraseRows personId tgUserId) (s.opened t n)).2 = s.opened t' m := by
  refine (eraseRows_keeps personId tgUserId).exec_invariant
    (I := fun s' => ∃ t' m, s' = s.opened t' m) (fun _ _ _ _ => trivial) ?_ ⟨t, n, rfl⟩
  rintro c _ hc ⟨t', m, rfl⟩
  rcases env.run_cases c (s.opened t' m) with hrun | ⟨-, hrun⟩
  · rw [hrun]
    cases c with
    | selectPerson | selectOwnerBacking | begin | commit | rollback | deletePoints | deleteNode
    | deleteObject | insertAuditEntry => exact hc.elim
    | _ => exact ⟨_, m + 1, rfl⟩
  · rw [hrun]
    exact ⟨t', m + 1, rfl⟩

theorem EraseEnv.run_rollback : env.run .rollback s = (.ok (), { s with tx := none }.tick) := by
  rcases env.run_cases .rollback s with hrun | ⟨hno, -⟩
  · exact hrun
  · cases hno

theorem EraseEnv.exec_transaction (body : Erasing ErasedRows) :
    exec env.run (Prog.transaction (ask .begin) (ask .commit) (ask .rollback) body) s =
      andThen (env.run .begin s) fun _ s₁ =>
        rescue
          (exec env.run (do
            let result ← body
            ask .commit
            pure result) s₁)
          fun e s₂ => (.error e, { s₂ with tx := none }.tick) := by
  simp only [Resumption.exec_transaction, ask, exec_perform, env.run_rollback, andThen_ok]

/-- **The transaction of an erase** commits all of its deletions or none. -/
theorem exec_eraseTransaction_cases (hs : s.tx = none) (personId : Ident) (tgUserId : Option ℤ) :
    (∃ n, exec env.run (eraseTransaction personId tgUserId) s =
        (.ok (s.db.erasedRows personId tgUserId), s.closed (s.db.erased personId tgUserId) n) ∧
        ∃ row ∈ s.db.person, row.id = personId) ∨
    (∃ e n, exec env.run (eraseTransaction personId tgUserId) s = (.error e, s.closed s.db n)) := by
  have hclosed : ∀ n, { s with calls := n } = s.closed s.db n := by
    intro n
    rw [World.closed, ← hs]
  unfold eraseTransaction
  rw [env.exec_transaction]
  rcases env.run_cases .begin s with hbegin | ⟨-, hbegin⟩
  · have hopen : ((s.erase .begin).1, (s.erase .begin).2.tick) =
        ((.ok (), s.opened s.db (s.calls + 1)) : Except Exc Unit × World) := rfl
    rw [hbegin, hopen, andThen_ok, exec_bind]
    obtain ⟨t', m, hstays⟩ :=
      exec_eraseRows_opened env s s.db (s.calls + 1) personId tgUserId
    rcases hrows : exec env.run (eraseRows personId tgUserId) (s.opened s.db (s.calls + 1)) with
      ⟨e | rows, s₂⟩
    · rw [hrows] at hstays
      rw [andThen_error, rescue_error, show s₂ = s.opened t' m from hstays]
      exact .inr ⟨e, m + 1, rfl⟩
    · obtain ⟨⟨m, rfl⟩, rfl, hpeople⟩ := exec_eraseRows_ok hrows
      rw [andThen_ok, ask, exec_perform_bind]
      rcases env.run_cases .commit (s.opened (s.db.erased personId tgUserId) m) with
        hcommit | ⟨-, hcommit⟩
      · rw [hcommit]
        refine .inl ⟨m + 1, rfl, ?_⟩
        have hpos := List.countP_pos_iff.mp (Nat.pos_of_ne_zero hpeople)
        simpa using hpos
      · rw [hcommit]
        exact .inr ⟨_, m + 2, rfl⟩
  · rw [hbegin]
    exact .inr ⟨_, s.calls + 1, congrArg (Prod.mk _) (hclosed _)⟩

end Transaction

/-! ## The clean-up -/

section CleanUp

/-- The clean-up catches what it raises, so it keeps every contract that allows its calls. -/
theorem warned_keeps {C : Contract EraseCmd EraseAns Exc} (warning : EraseWarning)
    {cleanup : Erasing Unit} (h : cleanup.Keeps C fun _ => True) :
    (warned warning cleanup).Keeps C fun _ => True :=
  Prog.Keeps.tryCatch (fun _ => Prog.keeps_ret.mpr trivial)
    (h.bind fun _ _ => Prog.keeps_ret.mpr trivial)

theorem eraseNode_keeps {C : Contract EraseCmd EraseAns Exc} {personId : Ident}
    (hnode : C.allowed (.deleteNode personId)) (settings : RestSettings) :
    (eraseNode settings personId).Keeps C fun _ => True := by
  unfold eraseNode
  split_ifs
  · exact warned_keeps _ (Prog.keeps_perform (EraseCmd.deleteNode personId) hnode fun _ _ => trivial)
  · exact Prog.keeps_ret.mpr trivial

theorem eraseObjects_keeps {C : Contract EraseCmd EraseAns Exc}
    (hobject : ∀ key, C.allowed (.deleteObject key)) (settings : RestSettings)
    (keys : List ArtifactKey) : (eraseObjects settings keys).Keeps C fun _ => True := by
  have hdelete : ∀ (keys : List ArtifactKey) (n : ℕ),
      (deleteObjects keys n).Keeps C fun _ => True := by
    intro keys
    induction keys with
    | nil => exact fun n => Prog.keeps_ret.mpr trivial
    | cons key rest ih =>
      intro n
      refine (warned_keeps _ (Prog.keeps_perform (EraseCmd.deleteObject key) (hobject key)
        fun _ _ => trivial)).bind fun warnings _ => ?_
      cases warnings with
      | nil => exact ih _
      | cons warning more => exact Prog.keeps_ret.mpr trivial
  unfold eraseObjects
  split_ifs
  · exact Prog.keeps_ret.mpr trivial
  · exact hdelete keys 0
  · exact Prog.keeps_ret.mpr trivial

variable (env : EraseEnv) (settings : RestSettings) (personId : Ident)

/-- A failed clean-up is a warning. -/
theorem exec_warned (warning : EraseWarning) (cleanup : Erasing Unit) (s : World) :
    exec env.run (warned warning cleanup) s =
      match exec env.run cleanup s with
      | (.ok _, s') => (.ok [], s')
      | (.error _, s') => (.ok [warning], s') := by
  unfold warned
  rw [exec_tryCatch, exec_bind]
  rcases exec env.run cleanup s with ⟨e | ⟨⟩, s'⟩
  · rfl
  · rfl

/-- The vector store after its clean-up. -/
theorem exec_erasePoints (s : World) :
    ∃ warnings qdrant n, exec env.run (erasePoints settings personId) s =
        (.ok warnings, { s with qdrant, calls := n }) ∧
      (.qdrantCleanupFailed ∉ warnings →
        s.qdrant.deletePerson settings.qdrantAliasName personId = some qdrant) := by
  unfold erasePoints
  rw [exec_warned, ask, exec_perform]
  rcases env.run_cases (.deletePoints settings.qdrantAliasName personId) s with hrun | ⟨-, hrun⟩
  · rw [hrun, World.erase]
    cases s.qdrant.deletePerson settings.qdrantAliasName personId with
    | none => exact ⟨_, s.qdrant, s.calls + 1, rfl, fun h => absurd (List.mem_singleton_self _) h⟩
    | some q => exact ⟨_, q, s.calls + 1, rfl, fun _ => rfl⟩
  · rw [hrun]
    exact ⟨_, s.qdrant, s.calls + 1, rfl, fun h => absurd (List.mem_singleton_self _) h⟩

/-- The graph after its clean-up. -/
theorem exec_eraseNode (s : World) :
    ∃ warnings graph n, exec env.run (eraseNode settings personId) s =
        (.ok warnings, { s with graph, calls := n }) ∧
      (settings.neo4jEnabled = true → .neo4jCleanupFailed ∉ warnings →
        graph = s.graph.detachDelete personId) := by
  unfold eraseNode
  split_ifs with henabled
  · rw [exec_warned, ask, exec_perform]
    rcases env.run_cases (.deleteNode personId) s with hrun | ⟨-, hrun⟩
    · rw [hrun]
      exact ⟨_, _, s.calls + 1, rfl, fun _ _ => rfl⟩
    · rw [hrun]
      exact ⟨_, s.graph, s.calls + 1, rfl, fun _ h => absurd (List.mem_singleton_self _) h⟩
  · exact ⟨[], s.graph, s.calls, rfl, fun h => absurd h henabled⟩

theorem exec_warned_deleteObject (key : ArtifactKey) (s : World) :
    exec env.run (warned .s3CleanupFailed (ask (.deleteObject key))) s =
        (.ok [], { s with objects := Function.update s.objects key none }.tick) ∨
      exec env.run (warned .s3CleanupFailed (ask (.deleteObject key))) s =
        (.ok [.s3CleanupFailed], s.tick) := by
  rw [exec_warned, ask, exec_perform]
  rcases env.run_cases (.deleteObject key) s with hrun | ⟨-, hrun⟩
  · rw [hrun]
    exact .inl rfl
  · rw [hrun]
    exact .inr rfl

/-- What the clean-up of the object store leaves of the objects. -/
structure ObjectsErased (keys : List ArtifactKey) (warnings : List EraseWarning)
    (before after : ArtifactKey → Option Artifact) : Prop where
  kept : ∀ key, key ∉ keys → after key = before key
  erased : ∀ key, after key = before key ∨ after key = none
  complete : warnings = [] → ∀ key ∈ keys, after key = none

theorem exec_deleteObjects (keys : List ArtifactKey) (k : ℕ) (s : World) :
    ∃ k' warnings objects n, exec env.run (deleteObjects keys k) s =
      (.ok (k', warnings), { s with objects, calls := n }) ∧
      ObjectsErased keys warnings s.objects objects := by
  induction keys generalizing k s with
  | nil => exact ⟨k, [], s.objects, s.calls, rfl, fun _ _ => rfl, fun _ => .inl rfl, by simp⟩
  | cons key rest ih =>
    unfold deleteObjects
    rw [exec_bind]
    rcases exec_warned_deleteObject env key s with hrun | hrun
    · rw [hrun, andThen_ok]
      obtain ⟨k', warnings, objects, n, hexec, hobjects⟩ :=
        ih (k + 1) { s with objects := Function.update s.objects key none }.tick
      have herased : ∀ key', objects key' = s.objects key' ∨ objects key' = none := by
        intro key'
        rcases hobjects.erased key' with heq | hnone
        · by_cases hk : key' = key
          · subst hk
            exact .inr (heq.trans (Function.update_self ..))
          · exact .inl (heq.trans (Function.update_of_ne hk ..))
        · exact .inr hnone
      refine ⟨k', warnings, objects, n, hexec, fun key' hkey' => ?_, herased, fun hw key' hkey' => ?_⟩
      · rw [List.mem_cons, not_or] at hkey'
        exact (hobjects.kept key' hkey'.2).trans (Function.update_of_ne hkey'.1 ..)
      · by_cases hrest : key' ∈ rest
        · exact hobjects.complete hw key' hrest
        · obtain rfl : key' = key := (List.mem_cons.mp hkey').resolve_right hrest
          exact (hobjects.kept key' hrest).trans (Function.update_self ..)
    · rw [hrun, andThen_ok]
      exact ⟨k, _, s.objects, s.calls + 1, rfl, fun _ _ => rfl, fun _ => .inl rfl,
        fun hw => by cases hw⟩

theorem exec_eraseObjects (keys : List ArtifactKey) (s : World) :
    ∃ k warnings objects n, exec env.run (eraseObjects settings keys) s =
      (.ok (k, warnings), { s with objects, calls := n }) ∧
      ObjectsErased keys warnings s.objects objects := by
  unfold eraseObjects
  split_ifs with hkeys
  · subst hkeys
    exact ⟨0, [], s.objects, s.calls, rfl, fun _ _ => rfl, fun _ => .inl rfl, by simp⟩
  · exact exec_deleteObjects env keys 0 s
  · exact ⟨0, _, s.objects, s.calls, rfl, fun _ _ => rfl, fun _ => .inl rfl, fun hw => by cases hw⟩

/-- The stores after the clean-up. -/
structure CleanedUp (keys : List ArtifactKey) (warnings : List EraseWarning) (s s' : World) :
    Prop where
  db : s'.db = s.db
  tx : s'.tx = s.tx
  objects : ObjectsErased keys warnings s.objects s'.objects
  qdrant : .qdrantCleanupFailed ∉ warnings →
    s.qdrant.deletePerson settings.qdrantAliasName personId = some s'.qdrant
  graph : settings.neo4jEnabled = true → .neo4jCleanupFailed ∉ warnings →
    s'.graph = s.graph.detachDelete personId

/-- **The clean-up of an erase** touches no table, and what it does not warn about is
done. -/
theorem exec_eraseDerived (keys : List ArtifactKey) (s : World) :
    ∃ k warnings s', exec env.run (eraseDerived settings personId keys) s =
      (.ok (k, warnings), s') ∧ CleanedUp settings personId keys warnings s s' := by
  obtain ⟨vectorWarnings, qdrant, n₁, hvectors, hqdrant⟩ :=
    exec_erasePoints env settings personId s
  obtain ⟨graphWarnings, graph, n₂, hnode, hgraph⟩ :=
    exec_eraseNode env settings personId { s with qdrant, calls := n₁ }
  obtain ⟨k, objectWarnings, objects, n₃, hobjects, herased⟩ :=
    exec_eraseObjects env settings keys { s with qdrant, graph, calls := n₂ }
  have hexec : exec env.run (eraseDerived settings personId keys) s =
      (.ok (k, vectorWarnings ++ graphWarnings ++ objectWarnings),
        { s with qdrant, graph, objects, calls := n₃ }) := by
    unfold eraseDerived
    rw [exec_bind, hvectors, andThen_ok, exec_bind, hnode, andThen_ok, exec_bind, hobjects]
    rfl
  refine ⟨k, _, _, hexec, rfl, rfl, ⟨herased.kept, herased.erased, fun hw => ?_⟩, fun hw => ?_,
    fun henabled hw => ?_⟩
  · exact herased.complete (List.append_eq_nil_iff.mp hw).2
  · exact hqdrant fun hv => hw (List.mem_append_left _ (List.mem_append_left _ hv))
  · exact hgraph henabled fun hg => hw (List.mem_append_left _ (List.mem_append_right _ hg))

end CleanUp

/-! ## The cascade -/

/-- The stores after an erase whose transaction was committed. -/
structure Erased (settings : RestSettings) (person : Person) (warnings : List EraseWarning)
    (s s' : World) : Prop where
  closed : s'.tx = none
  rows : s'.db = { s.db.erased person.id person.tgUserId with auditLog := s'.db.auditLog }
  objects : ObjectsErased (s.db.erasedObjects person.id) warnings s.objects s'.objects
  qdrant : .qdrantCleanupFailed ∉ warnings →
    s.qdrant.deletePerson settings.qdrantAliasName person.id = some s'.qdrant
  graph : settings.neo4jEnabled = true → .neo4jCleanupFailed ∉ warnings →
    s'.graph = s.graph.detachDelete person.id

namespace Erased

variable {settings : RestSettings} {person : Person} {warnings : List EraseWarning} {s s' : World}

theorem tick (h : Erased settings person warnings s s') :
    Erased settings person warnings s s'.tick := ⟨h.1, h.2, h.3, h.4, h.5⟩

/-- The audit entry comes after everything. -/
theorem insertAuditLog (h : Erased settings person warnings s s') (row : AuditLog) :
    Erased settings person warnings s (s'.setTables (s'.tables.insertAuditLog row)).tick := by
  rw [World.tables_of_closed h.closed, World.setTables_of_closed h.closed]
  refine ⟨h.closed, ?_, h.objects, h.qdrant, h.graph⟩
  change { s'.db with auditLog := s'.db.auditLog ++ [row] } = _
  rw [h.rows]
  rfl

end Erased

section Cascade

variable (env : EraseEnv) (hashIdentifier : Ident → ℕ) (settings : RestSettings) (actor : String)
  (personId : Ident) {s : World}

theorem id_of_selectPerson {db : Db} {person : Person}
    (h : db.selectPerson personId = some person) : person.id = personId := by
  simpa using List.find?_some h

/-- The validation touches nothing. -/
theorem exec_validate_cases (hs : s.tx = none) :
    (∃ person n, exec env.run (validatePersonEraseTarget personId) s =
        (.ok person, s.closed s.db n) ∧ s.db.selectPerson personId = some person ∧
        person.isOwner = false ∧ s.db.backsOwner personId = false) ∨
    (∃ e n, exec env.run (validatePersonEraseTarget personId) s = (.error e, s.closed s.db n)) := by
  have hclosed : ∀ n, { s with calls := n } = s.closed s.db n := by
    intro n
    rw [World.closed, ← hs]
  have htables : s.tables = s.db := by rw [World.tables, hs, Option.getD_none]
  unfold validatePersonEraseTarget
  rw [ask, exec_perform_bind]
  rcases env.run_cases (.selectPerson personId) s with hrun | ⟨-, hrun⟩
  · rw [hrun, World.erase, andThen_ok, htables]
    cases hperson : s.db.selectPerson personId with
    | none => exact .inr ⟨_, s.calls + 1, congrArg (Prod.mk _) (hclosed _)⟩
    | some person =>
      dsimp only
      rw [ask, exec_perform_bind]
      rcases env.run_cases (.selectOwnerBacking personId) s.tick with hback | ⟨-, hback⟩
      · rw [hback, World.erase, andThen_ok, show s.tick.tables = s.db from htables]
        split_ifs with howner
        · exact .inr ⟨_, s.calls + 2, congrArg (Prod.mk _) (hclosed _)⟩
        · rw [Bool.or_eq_true, not_or, Bool.not_eq_true, Bool.not_eq_true] at howner
          exact .inl ⟨person, s.calls + 2, congrArg (Prod.mk _) (hclosed _), rfl, howner⟩
      · rw [hback]
        exact .inr ⟨_, s.calls + 2, congrArg (Prod.mk _) (hclosed _)⟩
  · rw [hrun]
    exact .inr ⟨_, s.calls + 1, congrArg (Prod.mk _) (hclosed _)⟩

/-- **An erase** either raises before it commits, and then nothing has happened, or
commits, and then it is done but for its warnings. -/
theorem exec_erasePersonCascade_cases (hs : s.tx = none) :
    (∃ person warnings r s',
        exec env.run (erasePersonCascade hashIdentifier settings actor personId) s = (r, s') ∧
        s.db.selectPerson personId = some person ∧ person.isOwner = false ∧
        Erased settings person warnings s s' ∧
        ∀ summary, r = .ok summary → summary.warnings = warnings) ∨
    (∃ e n, exec env.run (erasePersonCascade hashIdentifier settings actor personId) s =
        (.error e, s.closed s.db n)) := by
  unfold erasePersonCascade
  rw [exec_bind]
  rcases exec_validate_cases env personId hs with
    ⟨person, n, hvalid, hperson, howner, -⟩ | ⟨e, n, hvalid⟩
  · rw [hvalid, andThen_ok, exec_bind]
    obtain rfl := id_of_selectPerson personId hperson
    rcases exec_eraseTransaction_cases env (s.closed s.db n) rfl person.id person.tgUserId with
      ⟨m, htx, -⟩ | ⟨e, m, htx⟩
    · obtain ⟨k, warnings, s₁, hderived, hclean⟩ := exec_eraseDerived env settings person.id
        (s.db.erasedObjects person.id) (s.closed (s.db.erased person.id person.tgUserId) m)
      have hstores : Erased settings person warnings s s₁ := by
        refine ⟨hclean.tx, ?_, hclean.objects, hclean.qdrant, hclean.graph⟩
        rw [hclean.db]
        rfl
      have hrest : exec env.run (eraseDerived settings person.id
            ((s.closed s.db n).db.erasedRows person.id person.tgUserId).sourceObjectRefs)
          ((s.closed s.db n).closed ((s.closed s.db n).db.erased person.id person.tgUserId) m) =
            (.ok (k, warnings), s₁) := hderived
      refine .inl ⟨person, warnings, ?_⟩
      rw [htx, andThen_ok, exec_bind, hrest, andThen_ok, exec_perform_bind]
      rcases env.run_cases (.insertAuditEntry _) s₁ with haudit | ⟨-, haudit⟩
      · rw [haudit]
        refine ⟨_, _, rfl, hperson, howner, hstores.insertAuditLog _, fun summary hsummary => ?_⟩
        cases hsummary
        rfl
      · rw [haudit]
        exact ⟨_, _, rfl, hperson, howner, hstores.tick, fun summary hsummary => by cases hsummary⟩
    · rw [htx]
      exact .inr ⟨e, m, rfl⟩
  · rw [hvalid]
    exact .inr ⟨e, n, rfl⟩

end Cascade

end Memory
end PersonalIntelligence
