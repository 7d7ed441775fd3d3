import PersonalIntelligence.Library.Formatting
import PersonalIntelligence.Library.Runs
import PersonalIntelligence.Library.Triple
import PersonalIntelligence.Memory.DeploymentRuns

/-!
# The models of a collection

A physical collection is made for the model an indexer is configured with, and its name
says so, but only by a slug and a dimension (`collectionName_inj`).  A job brings a model
of its own, and its vector goes to the collection that the alias stands for when it is
upserted.  `ModelNotes` records beside the stores for which model a collection was made and
with which model a point was embedded; no program reads them.  A run keeps the models
apart exactly if every job that is upserted has the model of the collection that it
reaches (`oneModel_iff`).
-/

namespace PersonalIntelligence
namespace Memory

open PyText Resumption

/-! ## Names of collections -/

section Names

variable [CharData]

/-- What a name says of a model: the runs of letters and digits of its casefolded text. -/
def modelWords (modelName : String) : List (List Char) :=
  Slug.words slugChar (casefold modelName).toList

/-- The slug in `_collection_name`. -/
def modelSlug (modelName : String) : String :=
  String.ofList (Slug.strip '-' (Slug.squeeze slugChar '-' false (casefold modelName).toList))

theorem modelSlug_inj {modelName modelName' : String} :
    modelSlug modelName = modelSlug modelName' ↔ modelWords modelName = modelWords modelName' := by
  unfold modelSlug modelWords
  rw [String.ofList_inj]
  exact Slug.slug_inj (by decide)

theorem underscore_notMem_modelSlug (modelName : String) : '_' ∉ (modelSlug modelName).toList := by
  unfold modelSlug
  rw [String.toList_ofList]
  intro hmem
  rcases Slug.mem_slug (by decide) hmem with h | h
  · exact absurd h (by decide)
  · exact absurd h (by decide)

/-- **A name of a collection** says the words of the model and the dimension, and no more. -/
theorem collectionName_inj {aliasName modelName modelName' : String} {dimension dimension' : ℕ} :
    collectionName aliasName modelName dimension = collectionName aliasName modelName' dimension' ↔
      modelWords modelName = modelWords modelName' ∧ dimension = dimension' := by
  have hname : ∀ modelName dimension, (collectionName aliasName modelName dimension).toList =
      aliasName.toList ++ '_' :: ((modelSlug modelName).toList ++ '_' ::
        ((Nat.repr dimension).toList ++ "_v1".toList)) := by
    intro modelName dimension
    unfold collectionName modelSlug
    simp [String.toList_append, toString]
  constructor
  · intro h
    have hlist := congrArg String.toList h
    rw [hname, hname] at hlist
    have htail := (List.cons.inj (List.append_cancel_left hlist)).2
    obtain ⟨hslug, hrest⟩ := Formatting.field_inj (underscore_notMem_modelSlug modelName)
      (underscore_notMem_modelSlug modelName') htail
    have hdimension := List.append_cancel_right hrest
    exact ⟨modelSlug_inj.mp hslug,
      Formatting.repr_nat_injective (String.toList_injective hdimension)⟩
  · rintro ⟨hwords, rfl⟩
    refine String.toList_injective ?_
    rw [hname, hname, modelSlug_inj.mpr hwords]

end Names

/-! ## Notes of models -/

/-- What is recorded beside the stores. -/
structure ModelNotes where
  /-- The model of the indexer that made a collection. -/
  createdFor : String → Option String := fun _ => none
  /-- The model of the last vector. -/
  lastModel : String := ""
  /-- The model a point of a collection was embedded with. -/
  embeddedWith : String → Ident → Option String := fun _ _ => none

namespace ModelNotes

/-- The vector of a point is the last one. -/
def upserted (g : ModelNotes) (name : String) (id : Ident) : ModelNotes :=
  { g with
    embeddedWith := Function.update g.embeddedWith name
      (Function.update (g.embeddedWith name) id (some g.lastModel)) }

/-- What an indexer with this model has been answered. -/
def note (model : String) (c : IndexCmd) (r : Except Exc (IndexAns c)) (s : World)
    (g : ModelNotes) : ModelNotes :=
  match c, r with
  | .embed _ model, .ok _ => { g with lastModel := model }
  | .createCollection name _, .ok _ =>
    { g with createdFor := Function.update g.createdFor name (some model) }
  | .upsert name point, .ok _ => g.upserted (s.qdrant.resolve name) point.id
  | _, _ => g

end ModelNotes

/-- **One model.**  Every point of a collection was embedded with the model for which the
collection was made, and has its dimension. -/
def OneModel (q : Qdrant) (g : ModelNotes) : Prop :=
  ∀ name, ∀ c ∈ q.collections name, ∀ p ∈ c.points,
    p.vector.length = c.dimension ∧
      ∃ model, g.createdFor name = some model ∧ g.embeddedWith name p.id = some model

/-- The stores and the notes. -/
abbrev NotedWorld := World × ModelNotes

/-- A start of an indexer with a model, or a job that one takes. -/
inductive IndexerOp where
  | start (model : String)
  | index (model : String) (job : Publication EmbeddingJob)
  deriving DecidableEq, Repr

/-- The model that a job is embedded with. -/
def jobModel (settings : IndexerSettings) (job : EmbeddingJob) : String :=
  if job.profileModel.isEmpty then settings.wormsoftEmbeddingModel else job.profileModel

namespace IndexEnv

variable (env : IndexEnv)

/-- The calls of an indexer with this model, with notes. -/
def noted (model : String) : Handler IndexCmd IndexAns Exc NotedWorld :=
  Handler.noting env.run (ModelNotes.note model)

variable [CharData] (aliasName : String)

/-- One operation of an indexer that writes by the alias. -/
def step (s : NotedWorld) : IndexerOp → NotedWorld
  | .start model => (exec (env.noted model) (prepare ⟨aliasName, model⟩) s).2
  | .index model job => (exec (env.noted model) (indexJob ⟨aliasName, model⟩ job) s).2

/-- A job that is upserted has the model of the collection that the alias stands for. -/
def OwnModel (s : NotedWorld) : IndexerOp → Prop
  | .start _ => True
  | .index model job =>
    (upsertJob ⟨aliasName, model⟩ job.message).Raised env.run (fun _ => True) s.1 ∨
      s.2.createdFor (s.1.qdrant.resolve aliasName) = some (jobModel ⟨aliasName, model⟩ job.message)

instance (s : NotedWorld) : ∀ op, Decidable (env.OwnModel aliasName s op)
  | .start _ => inferInstanceAs (Decidable True)
  | .index _ _ => inferInstanceAs (Decidable (_ ∨ _))

end IndexEnv

/-! ## Collections -/

section Collections

variable {q q' : Qdrant} {g : ModelNotes}

theorem ModelNotes.embeddedWith_upserted_self (g : ModelNotes) (name : String) (id : Ident) :
    (g.upserted name id).embeddedWith name id = some g.lastModel := by
  unfold upserted
  dsimp only
  rw [Function.update_self, Function.update_self]

theorem ModelNotes.embeddedWith_upserted_of_ne {name other : String} {id id' : Ident}
    (hne : other ≠ name ∨ id' ≠ id) :
    (g.upserted name id).embeddedWith other id' = g.embeddedWith other id' := by
  unfold upserted
  dsimp only
  by_cases hname : other = name
  · subst hname
    rw [Function.update_self, Function.update_of_ne (hne.resolve_left fun h => h rfl)]
  · rw [Function.update_of_ne hname]

theorem OneModel.changeAliases (h : OneModel q g) (operations : List AliasOperation) :
    OneModel (q.changeAliases operations) g := by
  unfold OneModel
  rw [Qdrant.collections_changeAliases]
  exact h

/-- A new collection is empty. -/
theorem OneModel.createCollection (h : OneModel q g) {name : String} {dimension : ℕ}
    (hq : q.createCollection name dimension = some q') (model : String) :
    OneModel q' { g with createdFor := Function.update g.createdFor name (some model) } := by
  unfold Qdrant.createCollection at hq
  split_ifs at hq
  cases hq
  intro other c hc p hp
  rcases Qdrant.collections_set hc with ⟨rfl, rfl⟩ | ⟨hne, hold⟩
  · cases hp
  · dsimp only
    rw [Function.update_of_ne hne]
    exact h other c hold p hp

theorem Qdrant.upsert_eq_some {name : String} {p : Point} (hq : q.upsert name p = some q') :
    ∃ c, q.collections (q.resolve name) = some c ∧ p.vector.length = c.dimension ∧
      q' = q.set (q.resolve name)
        { c with points := Table.upsert Point.id (fun _ => p) p c.points } := by
  unfold Qdrant.upsert at hq
  cases hc : q.collections (q.resolve name) with
  | none =>
    rw [hc] at hq
    cases hq
  | some c =>
    rw [hc] at hq
    dsimp only at hq
    split_ifs at hq with hlength
    exact ⟨c, rfl, hlength, (Option.some.inj hq).symm⟩

/-- The point that is upserted is there. -/
theorem mem_upsert_points (p : Point) (points : List Point) :
    p ∈ Table.upsert Point.id (fun _ => p) p points := by
  by_cases hmem : p.id ∈ points.map Point.id
  · obtain ⟨old, hold, hid⟩ := List.mem_map.mp hmem
    exact Table.mem_upsert_of_eq hold hid
  · exact Table.fresh_mem_upsert hmem

/-- **The model of the point that is upserted** decides. -/
theorem OneModel.upsert_iff (h : OneModel q g) {name : String} {p : Point}
    (hq : q.upsert name p = some q') :
    OneModel q' (g.upserted (q.resolve name) p.id) ↔
      g.createdFor (q.resolve name) = some g.lastModel := by
  obtain ⟨c, hc, hlength, rfl⟩ := Qdrant.upsert_eq_some hq
  constructor
  · intro hone
    obtain ⟨-, model, hcreated, hembedded⟩ := hone (q.resolve name) _
      (Function.update_self _ _ _) p (mem_upsert_points p c.points)
    rw [g.embeddedWith_upserted_self] at hembedded
    rw [Option.some.inj hembedded]
    exact hcreated
  · intro hcreated other found hfound p' hp'
    have hself : p.vector.length = c.dimension ∧ ∃ model,
        (g.upserted (q.resolve name) p.id).createdFor (q.resolve name) = some model ∧
          (g.upserted (q.resolve name) p.id).embeddedWith (q.resolve name) p.id = some model :=
      ⟨hlength, _, hcreated, g.embeddedWith_upserted_self _ _⟩
    rcases Qdrant.collections_set hfound with ⟨rfl, rfl⟩ | ⟨hne, hold⟩
    · rcases Table.mem_upsert hp' with ⟨hmem, hne⟩ | ⟨_, -, -, rfl⟩ | ⟨-, rfl⟩
      · rw [ModelNotes.embeddedWith_upserted_of_ne (.inr hne)]
        exact h _ c hc p' hmem
      · exact hself
      · exact hself
    · rw [ModelNotes.embeddedWith_upserted_of_ne (.inl hne)]
      exact h other found hold p' hp'

end Collections

/-! ## Operations -/

namespace IndexEnv

variable (env : IndexEnv) {s : NotedWorld} {settings : IndexerSettings} {job : EmbeddingJob}

/-- Every call but an upsert keeps the models apart. -/
theorem oneModel_noted (model : String) {c : IndexCmd} (hc : ∀ name point, c ≠ .upsert name point)
    (h : OneModel s.1.qdrant s.2) :
    OneModel (env.noted model c s).2.1.qdrant (env.noted model c s).2.2 := by
  obtain ⟨s, g⟩ := s
  show OneModel (env.run c s).2.qdrant (ModelNotes.note model c (env.run c s).1 s g)
  unfold run
  split_ifs
  · cases c <;> exact h
  · cases c with
    | embed text model' =>
      unfold effect
      dsimp only
      cases env.embedding s.calls text model' <;> exact h
    | createCollection name size =>
      unfold effect
      dsimp only
      cases hq : s.qdrant.createCollection name size with
      | none => exact h
      | some q => exact h.createCollection hq model
    | updateCollectionAliases operations => exact h.changeAliases operations
    | upsert name point => exact absurd rfl (hc name point)
    | _ => exact h

/-- A start keeps the models apart. -/
theorem oneModel_prepare [CharData] (model : String) (h : OneModel s.1.qdrant s.2) :
    OneModel (exec (env.noted model) (prepare settings) s).2.1.qdrant
      (exec (env.noted model) (prepare settings) s).2.2 := by
  refine Prog.Keeps.exec_invariant (I := fun s : NotedWorld => OneModel s.1.qdrant s.2)
    (fun _ _ _ _ => trivial) (fun c s hc hs => ?_) (prepare_keeps settings) h
  refine env.oneModel_noted model (fun name point heq => ?_) hs
  subst heq
  exact hc

/-- What a job that has not been upserted has changed. -/
structure NotUpserted (s s' : NotedWorld) : Prop where
  qdrant : s'.1.qdrant = s.1.qdrant
  createdFor : s'.2.createdFor = s.2.createdFor
  embeddedWith : s'.2.embeddedWith = s.2.embeddedWith

theorem NotUpserted.trans {s₁ s₂ s₃ : NotedWorld} (h : NotUpserted s₁ s₂) (h' : NotUpserted s₂ s₃) :
    NotUpserted s₁ s₃ :=
  ⟨h'.qdrant.trans h.qdrant, h'.createdFor.trans h.createdFor,
    h'.embeddedWith.trans h.embeddedWith⟩

theorem NotUpserted.congr {s s' : NotedWorld} (h : NotUpserted s s') :
    OneModel s'.1.qdrant s'.2 ↔ OneModel s.1.qdrant s.2 := by
  unfold OneModel
  rw [h.qdrant, h.createdFor, h.embeddedWith]

/-- The calls before the upsert. -/
theorem notUpserted_noted (model : String) (c : IndexCmd)
    (hc : c = .now ∨ (∃ text model, c = .embed text model) ∨ ∃ job, c = .xack job) (s : NotedWorld) :
    NotUpserted s (env.noted model c s).2 := by
  obtain ⟨s, g⟩ := s
  show NotUpserted (s, g) ((env.run c s).2, ModelNotes.note model c (env.run c s).1 s g)
  unfold run
  rcases hc with rfl | ⟨text, model', rfl⟩ | ⟨job, rfl⟩
  · split_ifs <;> exact ⟨rfl, rfl, rfl⟩
  · split_ifs
    · exact ⟨rfl, rfl, rfl⟩
    · unfold effect
      dsimp only
      cases env.embedding s.calls text model' <;> exact ⟨rfl, rfl, rfl⟩
  · split_ifs <;> exact ⟨rfl, rfl, rfl⟩

/-- An upsert that is answered has been made, with the last vector's model. -/
theorem noted_upsert_cases (model name : String) (point : Point) (s : NotedWorld) :
    (∃ e s', env.noted model (.upsert name point) s = (.error e, s') ∧ NotUpserted s s') ∨
      ∃ s', env.noted model (.upsert name point) s = (.ok (), s') ∧
        s.1.qdrant.upsert name point = some s'.1.qdrant ∧
        s'.2 = s.2.upserted (s.1.qdrant.resolve name) point.id := by
  obtain ⟨s, g⟩ := s
  unfold noted Handler.noting run
  dsimp only
  split_ifs
  · exact .inl ⟨_, _, rfl, rfl, rfl, rfl⟩
  · unfold effect
    dsimp only
    cases hq : s.qdrant.upsert name point with
    | none => exact .inl ⟨_, _, rfl, rfl, rfl, rfl⟩
    | some q => exact .inr ⟨_, rfl, rfl, rfl⟩

/-- Nothing has been upserted since `s`, and the last vector is of the model of the job. -/
def Embedded (settings : IndexerSettings) (job : EmbeddingJob) (s t : NotedWorld) : Prop :=
  NotUpserted s t ∧ t.2.lastModel = jobModel settings job

/-- The call of the provider. -/
theorem triple_embed (model : String) :
    Triple (env.noted model) (NotUpserted s)
      (awaitIndex (.embed job.narrativeText (jobModel settings job)))
      (fun _ => Embedded settings job s) (NotUpserted s) := by
  refine triple_perform fun t ht => ?_
  have hnot := env.notUpserted_noted model (.embed job.narrativeText (jobModel settings job))
    (.inr (.inl ⟨_, _, rfl⟩)) t
  have hnote : (env.noted model (.embed job.narrativeText (jobModel settings job)) t).2.2 =
      ModelNotes.note model (.embed job.narrativeText (jobModel settings job))
        (env.noted model (.embed job.narrativeText (jobModel settings job)) t).1 t.1 t.2 := rfl
  rcases hrun : env.noted model (.embed job.narrativeText (jobModel settings job)) t with
    ⟨e | vector, t'⟩
  · rw [hrun] at hnot
    exact .inr ⟨e, t', rfl, ht.trans hnot⟩
  · rw [hrun] at hnot hnote
    exact .inl ⟨vector, t', rfl, ht.trans hnot, congrArg ModelNotes.lastModel hnote⟩

/-- The clock is read. -/
theorem triple_now (model : String) :
    Triple (env.noted model) (Embedded settings job s) (awaitIndex .now)
      (fun _ => Embedded settings job s) (NotUpserted s) := by
  refine triple_perform fun t ht => ?_
  have hnot := env.notUpserted_noted model .now (.inl rfl) t
  have hnotes : (env.noted model .now t).2.2 = t.2 := rfl
  rcases hrun : env.noted model .now t with ⟨e | ts, t'⟩
  · rw [hrun] at hnot
    exact .inr ⟨e, t', rfl, ht.1.trans hnot⟩
  · rw [hrun] at hnot hnotes
    exact .inl ⟨ts, t', rfl, ht.1.trans hnot, (congrArg ModelNotes.lastModel hnotes).trans ht.2⟩

/-- **A job** is upserted with a vector of its model, or changes nothing. -/
theorem exec_upsertJob_cases (model : String) (s : NotedWorld) :
    (∃ e s', exec (env.noted model) (upsertJob settings job) s = (.error e, s') ∧
        NotUpserted s s') ∨
      ∃ s₁ s' point, exec (env.noted model) (upsertJob settings job) s = (.ok (), s') ∧
        NotUpserted s s₁ ∧ s₁.2.lastModel = jobModel settings job ∧
        s₁.1.qdrant.upsert settings.qdrantAliasName point = some s'.1.qdrant ∧
        s'.2 = s₁.2.upserted (s₁.1.qdrant.resolve settings.qdrantAliasName) point.id := by
  have htriple : Triple (env.noted model) (NotUpserted s) (upsertJob settings job)
      (fun _ s' => ∃ s₁ point, Embedded settings job s s₁ ∧
        s₁.1.qdrant.upsert settings.qdrantAliasName point = some s'.1.qdrant ∧
        s'.2 = s₁.2.upserted (s₁.1.qdrant.resolve settings.qdrantAliasName) point.id)
      (NotUpserted s) := by
    refine (env.triple_embed model).bind fun vector => (env.triple_now model).bind fun tsFrom =>
      (env.triple_now model).bind fun tsTo => triple_perform fun t ht => ?_
    rcases env.noted_upsert_cases model settings.qdrantAliasName
      ⟨job.analysisWindowId, vector, payload job tsFrom tsTo⟩ t with
      ⟨e, s', hupsert, hsame⟩ | ⟨s', hupsert, hq, hg⟩
    · exact .inr ⟨e, s', hupsert, ht.1.trans hsame⟩
    · exact .inl ⟨(), s', hupsert, t, _, ht, hq, hg⟩
  rcases htriple s ⟨rfl, rfl, rfl⟩ with ⟨_, s', hexec, s₁, point, hembedded, hq, hg⟩ | hraise
  · exact .inr ⟨s₁, s', point, hexec, hembedded.1, hembedded.2, hq, hg⟩
  · exact .inl hraise

variable (settings job) in
/-- Whether it is upserted can be told from its calls. -/
theorem raised_upsertJob_iff (model : String) (s : NotedWorld) :
    (upsertJob settings job).Raised env.run (fun _ => True) s.1 ↔
      ∃ e s', exec (env.noted model) (upsertJob settings job) s = (.error e, s') := by
  have hstraight : (upsertJob settings job).Straight ⟨fun _ => True, fun _ _ => True,
      fun _ => False⟩ fun _ => True :=
    Prog.straight_perform_bind trivial fun _ _ => Prog.straight_perform_bind trivial fun _ _ =>
      Prog.straight_perform_bind trivial fun _ _ =>
        Prog.straight_perform (IndexCmd.upsert _ _) trivial fun _ _ => trivial
  have hsame := (exec_noting env.run (ModelNotes.note model) (upsertJob settings job) s).1
  rcases hstraight.exec_cases (fun _ _ _ _ => trivial) (fun _ => id) (fun _ _ => trivial) s.1 with
    ⟨hno, a, s', hexec, -⟩ | ⟨hyes, e, s', hexec⟩
  · refine iff_of_false hno ?_
    rintro ⟨e, s'', herror⟩
    rw [hexec] at hsame
    cases (congrArg Prod.fst herror).symm.trans hsame
  · rw [hexec] at hsame
    exact iff_of_true hyes ⟨e, _, Prod.ext hsame rfl⟩

variable [CharData] {aliasName : String}

/-- **An operation** keeps the models apart exactly if a job that it upserts has the model
of its collection. -/
theorem oneModel_step_iff (op : IndexerOp) (h : OneModel s.1.qdrant s.2) :
    OneModel (env.step aliasName s op).1.qdrant (env.step aliasName s op).2 ↔
      env.OwnModel aliasName s op := by
  cases op with
  | start model => exact iff_of_true (env.oneModel_prepare model h) trivial
  | index model job =>
    set settings : IndexerSettings := ⟨aliasName, model⟩
    have hindex : ∀ r s', exec (env.noted model) (upsertJob settings job.message) s = (r, s') →
        NotUpserted s' (env.step aliasName s (.index model job)) := by
      intro r s' hexec
      have hack : NotUpserted s' (exec (env.noted model) (awaitIndex (.xack job)) s').2 := by
        rw [awaitIndex, exec_perform]
        exact env.notUpserted_noted model (.xack job) (.inr (.inr ⟨job, rfl⟩)) s'
      unfold step indexJob
      dsimp only
      rw [exec_bind, exec_tryCatch, hexec]
      cases r <;> exact hack
    unfold OwnModel
    dsimp only
    rw [env.raised_upsertJob_iff settings job.message model s]
    rcases env.exec_upsertJob_cases model s with
      ⟨e, s', hexec, hsame⟩ | ⟨s₁, s', point, hexec, hbefore, hlast, hq, hg⟩
    · have hall := hsame.trans (hindex _ _ hexec)
      exact iff_of_true (hall.congr.mpr h) (.inl ⟨e, s', hexec⟩)
    · have hafter := hindex _ _ hexec
      have hstill := hbefore.congr.mpr h
      have hno : ¬ ∃ e s', exec (env.noted model) (upsertJob settings job.message) s =
          (.error e, s') := by
        rintro ⟨e, s'', herror⟩
        rw [hexec] at herror
        cases herror
      rw [hafter.congr, hg, hstill.upsert_iff hq, or_iff_right hno, hlast,
        hbefore.qdrant, hbefore.createdFor]

end IndexEnv

/-! ## Runs -/

theorem IndexEnv.oneModel_run_iff [CharData] (env : IndexEnv) (aliasName : String)
    (ops : List IndexerOp) :
    (∀ handled, handled <+: ops →
        OneModel (handled.foldl (env.step aliasName) ({}, {})).1.qdrant
          (handled.foldl (env.step aliasName) ({}, {})).2) ↔
      Runs.Meets (env.step aliasName) (env.OwnModel aliasName) ({}, {}) ops := by
  have hempty : OneModel ({} : World).qdrant {} := fun name c hc => by cases hc
  refine @Runs.forall_prefix_iff_meets NotedWorld _ (env.step aliasName)
    (fun s => OneModel s.1.qdrant s.2) _ _ (fun _ => id) (fun s op h => ?_) (fun s op h => ?_) ops
    ({}, {}) hempty
  · exact (env.oneModel_step_iff op h).mpr
  · exact (env.oneModel_step_iff op h).mp

/-- **One model in a collection, in every run** of starts and jobs, exactly if every job
that is upserted has the model of the collection that it reaches.  Two pairs of a model
and a dimension share a name exactly if the models have the same words and the dimensions
are equal. -/
theorem oneModel_iff [CharData] (env : IndexEnv) (aliasName : String) (ops : List IndexerOp) :
    ((∀ handled, handled <+: ops →
        OneModel (handled.foldl (env.step aliasName) ({}, {})).1.qdrant
          (handled.foldl (env.step aliasName) ({}, {})).2) ↔
      Runs.Meets (env.step aliasName) (env.OwnModel aliasName) ({}, {}) ops) ∧
    ∀ modelName modelName' dimension dimension',
      collectionName aliasName modelName dimension =
          collectionName aliasName modelName' dimension' ↔
        modelWords modelName = modelWords modelName' ∧ dimension = dimension' := by
  exact ⟨env.oneModel_run_iff aliasName ops, fun _ _ _ _ => collectionName_inj⟩

/-! ## Two models -/

/-- All vectors have one component. -/
def flat : IndexEnv where
  embedding _ _ _ := [1]

/-- A window that the projector wants to be embedded with another model than the indexer's. -/
def otherModel : Publication EmbeddingJob where
  origin := 101
  message :=
    { sourceWindowId := 201
      tgChatId := 7
      analysisWindowId := 201
      narrativeText := "приветствие"
      profileModel := "wormsoft-embed-v1" }

/-- The run: an indexer starts, and takes the job. -/
def otherModelRun : List IndexerOp := [.start "qwen3", .index "qwen3" otherModel]

theorem not_meets_otherModel : ¬ Runs.Meets (@IndexEnv.step flat basicCharData "pil_memory_active")
    (@IndexEnv.OwnModel flat "pil_memory_active") ({}, {}) otherModelRun := by
  decide

/-- The job gets into the collection of the indexer's model.  And two models that differ by
a punctuation mark have one collection. -/
theorem not_oneModel_otherModel :
    (¬ ∀ handled, handled <+: otherModelRun →
      OneModel
        (handled.foldl (@IndexEnv.step flat basicCharData "pil_memory_active") ({}, {})).1.qdrant
        (handled.foldl (@IndexEnv.step flat basicCharData "pil_memory_active") ({}, {})).2) ∧
      @collectionName basicCharData "pil_memory_active" "qwen/qwen3" 1 =
        @collectionName basicCharData "pil_memory_active" "qwen-qwen3" 1 := by
  refine ⟨fun hone => not_meets_otherModel ?_, by decide +kernel⟩
  exact (@IndexEnv.oneModel_run_iff basicCharData flat "pil_memory_active" otherModelRun).mp hone

end Memory
end PersonalIntelligence
