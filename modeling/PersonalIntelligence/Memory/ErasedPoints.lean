import PersonalIntelligence.Library.Runs
import PersonalIntelligence.Memory.DeploymentRuns

/-!
# Erased persons in the vector store

An erase deletes the points of a person from the collection that the alias stands for when
the delete arrives.  A job that was published before, and is indexed after that, brings a
point back; and a point in a collection that the alias stood for earlier is not reached.

`Free` says that there is nothing of the sort, with the exception of some collections.  An
erase that finds everything free but the collection it reaches leaves nothing behind, and
nothing comes back: the person is gone, and who is projected later is a new person.
-/

namespace PersonalIntelligence
namespace Memory

open PyText Resumption

/-- Nothing that names the person is in the vector store outside of `kept`, or on its way
there. -/
structure Free (personId : Ident) (kept : Set String) (y : Services) : Prop where
  published : ∀ x ∈ y.projections, personId ∈ x.1.participantIds → x.2.Keeps published fun _ => True
  queue : ∀ job ∈ y.world.embeddingRequested.drop y.taken, personId ∉ job.message.personIds
  indexed : ∀ x ∈ y.jobs, personId ∈ x.1.message.personIds → x.2.Keeps indexed fun _ => True
  points : y.world.qdrant.Without personId kept

section Moves

variable {d : Deployment} {y y' : Services} {event : Event}

/-- **A person who is gone and of whom nothing is left** does not come back. -/
theorem Free.move {personId : Ident} (hgone : Gone personId y.world)
    (h : Free personId ∅ y) (hmove : Moves d y event y') : Free personId ∅ y' := by
  have hpoints : ∀ {w : World}, w.qdrant = y.world.qdrant → w.qdrant.Without personId ∅ :=
    fun heq => heq ▸ h.points
  have hqueue : ∀ {w : World}, w.embeddingRequested = y.world.embeddingRequested →
      ∀ job ∈ w.embeddingRequested.drop y.taken, personId ∉ job.message.personIds :=
    fun heq => heq ▸ h.queue
  cases hmove with
  | quiet _ hrequested hqdrant =>
    exact ⟨h.published, hqueue hrequested, h.indexed, hpoints hqdrant⟩
  | commit _ hrequested hqdrant _ hparticipants =>
    refine ⟨Pool.forall_append h.published fun hmem => ?_, hqueue hrequested, h.indexed,
      hpoints hqdrant⟩
    exact absurd hmem (hparticipants personId hgone)
  | publish r hi _ hqdrant hrequested =>
    have hx := h.published _ (List.mem_of_getElem? hi)
    refine ⟨Pool.forall_set h.published fun hmem => (hx hmem).next (fun _ => trivial) r, ?_,
      h.indexed, hpoints hqdrant⟩
    rcases hrequested with hsame | ⟨job, rfl, hids, hadded⟩
    · exact hqueue hsame
    · -- a projection of the person publishes no more jobs
      have hnew : personId ∉ job.message.personIds := fun hmem =>
        Prog.Keeps.head (hx (hids ▸ hmem))
      intro job' hjob'
      dsimp only at hjob'
      rw [hadded, List.drop_append] at hjob'
      rcases List.mem_append.mp hjob' with hold | hlast
      · exact h.queue job' hold
      · rw [List.mem_singleton.mp (List.mem_of_mem_drop hlast)]
        exact hnew
  | begin => exact ⟨h.published, h.queue, h.indexed, h.points⟩
  | start _ _ _ hrequested hqdrant =>
    exact ⟨h.published, hqueue hrequested, h.indexed, hqdrant personId h.points⟩
  | take hjob =>
    obtain ⟨hlt, rfl⟩ := List.getElem?_eq_some_iff.mp hjob
    have hqueue' := h.queue
    rw [List.drop_eq_getElem_cons hlt] at hqueue'
    refine ⟨h.published, fun job hmem => hqueue' job (List.mem_cons_of_mem _ hmem),
      Pool.forall_append h.indexed fun hmem => ?_, h.points⟩
    exact absurd hmem (hqueue' _ List.mem_cons_self)
  | index r hi _ hrequested hqdrant =>
    have hx := h.indexed _ (List.mem_of_getElem? hi)
    exact ⟨h.published, hqueue hrequested,
      Pool.forall_set h.indexed fun hmem => (hx hmem).next (fun _ => trivial) r,
      hqdrant personId (fun hmem => Prog.Keeps.head (hx hmem)) h.points⟩
  | erase _ _ _ hrequested hqdrant =>
    exact ⟨h.published, hqueue hrequested, h.indexed, hpoints hqdrant⟩
  | delete _ _ hrequested hqdrant =>
    refine ⟨h.published, hqueue hrequested, h.indexed, ?_⟩
    rcases hqdrant with ⟨hsame, -⟩ | ⟨hdeleted, -⟩
    · exact hpoints hsame
    · exact h.points.deletePerson hdeleted
  | clean _ _ _ _ hrequested hqdrant =>
    exact ⟨h.published, hqueue hrequested, h.indexed, hpoints hqdrant⟩

end Moves

/-! ## Runs -/

/-- An erase that is about to call the vector store has the person nowhere but in the
collection that the call will reach. -/
def DeletesLast (y : Services) : Event → Prop
  | .continueErasure i => ∀ x ∈ y.erasures[i]?, ∀ aliasName,
      x.2.head? = some (.deletePoints aliasName x.1) → Free x.1 {y.world.qdrant.resolve aliasName} y
  | _ => True

/-- An erase has not called the vector store yet, will return a warning, or has left
nothing behind. -/
def Swept (d : Deployment) (y : Services) (x : Ident × Erasing EraseSummary) : Prop :=
  (∃ person rows, x.2 = d.finishErasure x.1 person rows) ∨
    (x.2.Keeps cleaning fun summary => summary.warnings ≠ []) ∨ Free x.1 ∅ y

/-- An erase that returned without a warning has left nothing behind. -/
def NothingLeft (y : Services) : Prop :=
  ∀ personId summary, (personId, .ret summary) ∈ y.erasures → summary.warnings = [] →
    y.world.qdrant.Without personId ∅

section Runs

variable {d : Deployment} {y y' : Services} {event : Event}

theorem Swept.move (hknown : Known d y) (hlast : DeletesLast y event) (hmove : Moves d y event y')
    (h : ∀ x ∈ y.erasures, Swept d y x) : ∀ x ∈ y'.erasures, Swept d y' x := by
  have hold : ∀ x ∈ y.erasures, Swept d y' x := fun x hx =>
    (h x hx).imp_right (Or.imp_right fun hfree => hfree.move (hknown.erasures x hx).1 hmove)
  cases hmove with
  | erase person rows => exact Pool.forall_append hold (.inl ⟨person, rows, rfl⟩)
  | @delete w i personId person rows r hi hlater hrequested hqdrant =>
    refine Pool.forall_set hold (.inr ?_)
    rcases hqdrant with ⟨-, e, rfl⟩ | ⟨hdeleted, rfl⟩
    · refine .inl ((eraseRest_keeps d personId person rows _).mono fun summary hsummary => ?_)
      exact hsummary (List.cons_ne_nil _ _)
    · have hhead : (d.finishErasure personId person rows).head? =
          some (.deletePoints d.restSettings.qdrantAliasName personId) := by
        rw [finishErase_eq]
        rfl
      have hfree := hlast _ hi _ hhead
      refine .inr ⟨hfree.published, ?_, hfree.indexed, ?_⟩
      · show ∀ job ∈ w.embeddingRequested.drop y.taken, personId ∉ job.message.personIds
        rw [hrequested]
        exact hfree.queue
      · exact hfree.points.deletePerson_self hdeleted
  | @clean event w i personId c k r hi hc =>
    refine Pool.forall_set hold (.inr ?_)
    rcases hold _ (List.mem_of_getElem? hi) with ⟨person, rows, hcall⟩ | hwarned | hfree
    · dsimp only at hcall
      rw [finishErase_eq] at hcall
      cases hcall
      exact (Prog.Keeps.head hc).elim
    · exact .inl (Prog.Keeps.next (fun _ => trivial) hwarned r)
    · exact .inr hfree
  | _ => exact hold

theorem nothingLeft_of_swept (h : ∀ x ∈ y.erasures, Swept d y x) : NothingLeft y := by
  intro personId summary hmem hwarnings
  rcases h _ hmem with ⟨person, rows, hret⟩ | hwarned | hfree
  · dsimp only at hret
    rw [finishErase_eq] at hret
    cases hret
  · have hret : (Prog.ret summary : Erasing EraseSummary).Keeps cleaning
        fun summary => summary.warnings ≠ [] := hwarned
    have hne := Prog.keeps_ret.mp hret
    exact absurd hwarnings hne
  · exact hfree.points

end Runs

/-- Every erase of a run finds the person nowhere but where it deletes. -/
def Deployment.DeletesLastRun [CharData] (d : Deployment) : Services → List Event → Prop
  | _, [] => True
  | y, event :: rest => DeletesLast y event ∧ d.DeletesLastRun (d.step y event) rest

/-- **No erase leaves a point behind**, in no state of a run whose erases delete last. -/
theorem nothingLeft_of_deletesLast [CharData] (d : Deployment) (mentions : List Mention)
    (annotations : List RelationshipAnnotation) (owners : List OwnerProfile) (qdrant : Qdrant)
    (events : List Event)
    (hlast : d.DeletesLastRun (Services.begin mentions annotations owners qdrant) events) :
    ∀ handled, handled <+: events →
      NothingLeft (d.steps (Services.begin mentions annotations owners qdrant) handled) := by
  have hbegin : Known d (Services.begin mentions annotations owners qdrant) :=
    known_begin mentions annotations owners qdrant
  have hrun := @Runs.forall_prefix Services Event d.step
    (fun y => Known d y ∧ ∀ x ∈ y.erasures, Swept d y x) DeletesLast d.DeletesLastRun
    (fun _ _ _ h => h) (fun y event h hevent => ?_) events _ ⟨hbegin, fun x hx => by cases hx⟩ hlast
  · exact fun handled hprefix => nothingLeft_of_swept (hrun handled hprefix).2
  · have hmove := h.1.moves event
    exact ⟨h.1.move hmove, Swept.move h.1 hevent hmove h.2⟩

/-! ## A job that comes late -/

/-- The queue is empty, and every program is at its end. -/
structure Drained (y : Services) : Prop where
  queue : y.taken = y.world.embeddingRequested.length
  projections : ∀ x ∈ y.projections, x.2.finished
  jobs : ∀ x ∈ y.jobs, x.2.finished

instance (y : Services) : Decidable (Drained y) :=
  decidable_of_iff (y.taken = y.world.embeddingRequested.length ∧
    (∀ x ∈ y.projections, x.2.finished) ∧ ∀ x ∈ y.jobs, x.2.finished)
    ⟨fun ⟨hqueue, hprojections, hjobs⟩ => ⟨hqueue, hprojections, hjobs⟩,
      fun h => ⟨h.queue, h.projections, h.jobs⟩⟩

/-- Services whose model has vectors of size 2. -/
def answering : Deployment where
  indexEnv := { embedding := fun _ _ _ => [0, 0] }

/-- An indexer starts, and a greeting is projected. -/
def greetingProjected : List Event :=
  [.clock 61, .start {}] ++ List.replicate 5 (.continueStart 0) ++
    [.project greeting] ++ List.replicate 4 (.continueProjection 0)

/-- The job of the greeting is taken and indexed. -/
def greetingIndexed : List Event := .take {} :: List.replicate 5 (.continueJob 0)

/-- Person 1, who has sent it, is erased. -/
def greeterErased : List Event := [.erase 1, .continueErasure 0, .continueErasure 0]

/-- The services after some events. -/
def servicesAfter (events : List Event) : Services :=
  @Deployment.steps basicCharData answering (Services.begin [] [] [] {}) events

/-- Nothing is on its way once the queue is drained. -/
theorem Drained.free {y : Services} (h : Drained y) {personId : Ident} {kept : Set String}
    (hpoints : y.world.qdrant.Without personId kept) : Free personId kept y where
  published x hx _ := Prog.keeps_of_finished (h.projections x hx)
  queue job hjob := by
    rw [h.queue, List.drop_length] at hjob
    cases hjob
  indexed x hx _ := Prog.keeps_of_finished (h.jobs x hx)
  points := hpoints

/-- The only collection of the run. -/
def greetingCollection : String := "pil_memory_active_qwen-qwen3-embedding-8b_2_v1"

theorem deletesLastRun_greeting : @Deployment.DeletesLastRun basicCharData answering
    (Services.begin [] [] [] {}) (greetingProjected ++ greetingIndexed ++ greeterErased) := by
  have hdelete : DeletesLast (servicesAfter (greetingProjected ++ greetingIndexed ++ [.erase 1]))
      (.continueErasure 0) := by
    rintro x hx aliasName hhead
    cases hx
    cases hhead
    have hdrained : Drained (servicesAfter (greetingProjected ++ greetingIndexed ++ [.erase 1])) := by
      decide
    have hresolve : (servicesAfter (greetingProjected ++ greetingIndexed ++
        [.erase 1])).world.qdrant.resolve "pil_memory_active" = greetingCollection := by
      decide
    -- all that happened in the vector store happened to one collection
    have hcollections : ∃ created c, (servicesAfter (greetingProjected ++ greetingIndexed ++
        [.erase 1])).world.qdrant.collections =
          Function.update (Function.update (fun _ => none) greetingCollection created)
            greetingCollection c := ⟨_, _, rfl⟩
    refine hdrained.free fun name hname c hc => ?_
    obtain ⟨created, c', heq⟩ := hcollections
    have hne : name ≠ greetingCollection := fun h => hname (h.trans hresolve.symm)
    rw [heq, Function.update_of_ne hne, Function.update_of_ne hne] at hc
    cases hc
  have haudit : DeletesLast (servicesAfter (greetingProjected ++ greetingIndexed ++
      [.erase 1, .continueErasure 0])) (.continueErasure 0) := by
    rintro x hx aliasName hhead
    cases hx
    cases hhead
  exact ⟨trivial, trivial, trivial, trivial, trivial, trivial, trivial, trivial, trivial, trivial,
    trivial, trivial, trivial, trivial, trivial, trivial, trivial, trivial, trivial, hdelete,
    haudit, trivial⟩

theorem nothingLeft_greeting :
    NothingLeft (servicesAfter (greetingProjected ++ greetingIndexed ++ greeterErased)) :=
  @nothingLeft_of_deletesLast basicCharData answering [] [] [] {}
    (greetingProjected ++ greetingIndexed ++ greeterErased) deletesLastRun_greeting _
    (List.prefix_refl _)

/-- The erase is over before the job is taken, and the job brings the point back. -/
theorem point_comes_back :
    (∀ entry, Event.project entry ∉ greeterErased ++ greetingIndexed) ∧
      Drained (servicesAfter (greetingProjected ++ greeterErased ++ greetingIndexed)) ∧
      ¬ NothingLeft (servicesAfter (greetingProjected ++ greeterErased ++ greetingIndexed)) := by
  refine ⟨by simp [greeterErased, greetingIndexed], by decide +kernel, fun h => ?_⟩
  have hleft := h 1 _ (List.mem_singleton.mpr rfl) rfl
  have hnames : ((servicesAfter (greetingProjected ++ greeterErased ++
      greetingIndexed)).world.qdrant.collections greetingCollection).map
        (fun c => c.points.map fun p => p.payload.personIds) = some [[1]] := by
    decide +kernel
  generalize servicesAfter (greetingProjected ++ greeterErased ++ greetingIndexed) = y at hleft hnames
  obtain ⟨c, hc, hpoints⟩ := Option.map_eq_some_iff.mp hnames
  obtain ⟨p, hp, hids⟩ : ∃ p ∈ c.points, p.payload.personIds = [1] :=
    List.mem_map.mp (hpoints ▸ List.mem_singleton_self _)
  have hperson : p.Names 1 := by
    unfold Point.Names
    rw [hids]
    exact List.mem_singleton_self 1
  exact hleft greetingCollection (Set.notMem_empty _) c hc p hp hperson

end Memory
end PersonalIntelligence
