import PersonalIntelligence.Admin.Forms
import PersonalIntelligence.Admin.LabelFilters
import Mathlib.Logic.Function.Basic

/-!
# Editing tags

An edit form shows the stored tags joined by `", "`, and what is saved of it are the tags
parsed from its text.  What a text is parsed to (`TagList`) is what joining and parsing
leaves as it is (`parseManualTags_joinTags`), and every list of tags that the tables have was
parsed from some text or is empty.  So a form that is saved as it was shown stores what was
stored before, whatever has been saved in between on other forms.

## Texts

A text is split at three separators, and the pieces are normalized, dropped if they are empty
and dropped if they were there before.  Normal tags have no separator in them and no
whitespace around them, and normalizing them again changes nothing; that needs two facts of the
Unicode tables, that folding is idempotent and makes no separators and no whitespace
(`FoldsTags`).  Joined by `", "`, such tags are split at the same places again, and the space
that is left in front of each goes with the whitespace.

## Stores

There are three columns of tags and three kinds of forms.  A handler that accepts a form has
written one column of one row, or nothing (`Accepted`, `accepted_of_submit`), and `stored` reads
the column of a form.  `Accepted.stored_eq` is the frame: the column of the form holds what was
parsed, and the others what they held.  The constraints of the tables are kept on the way
(`Constraints`), since a second row of a key would be shown instead of the first.

A form shows what its column has, without empty tags (`shownTags_ok`).  Every reachable store
has the constraints and only lists that were parsed (`Reachable.kept`), so the round trip of
texts is the round trip of forms (`tags_roundTrip`).
-/

namespace PersonalIntelligence
namespace Admin

open PyText

/-! ## Texts -/

/-- The characters of `[,;\n]`. -/
def isSeparator (c : Char) : Bool := c = ',' || c = ';' || c = '\n'

theorem splitTags_eq (value : String) :
    splitTags value = (value.toList.splitOnP isSeparator).map String.ofList := rfl

/-- The items of a text have no separators. -/
theorem separator_splitTags {rawTag value : String} (h : rawTag ∈ splitTags value) :
    ∀ c ∈ rawTag.toList, isSeparator c = false := by
  rw [splitTags_eq] at h
  obtain ⟨piece, hpiece, rfl⟩ := List.mem_map.mp h
  rw [String.toList_ofList]
  intro c hc
  have hkeep := (@Slug.mem_of_mem_splitOnP _ (fun c => !isSeparator c) _ _
    (by simpa only [Bool.not_not] using hpiece) c hc).2
  simpa using hkeep

/-- A map of characters to texts that are not empty, which leaves a text as it is, leaves its
characters as they are. -/
theorem eq_singleton_of_flatMap_eq {α : Type} {f : α → List α} (hne : ∀ a, f a ≠ []) :
    ∀ {l : List α}, l.flatMap f = l → ∀ a ∈ l, f a = [a]
  | [], _, a, ha => by cases ha
  | b :: rest, h, a, ha => by
    have hlength : ∀ l : List α, l.length ≤ (l.flatMap f).length := by
      intro l
      induction l with
      | nil => exact Nat.zero_le _
      | cons c l ih =>
        have hc : 0 < (f c).length := List.length_pos_iff.mpr (hne c)
        rw [List.flatMap_cons, List.length_append, List.length_cons]
        omega
    rw [List.flatMap_cons] at h
    have hb : 0 < (f b).length := List.length_pos_iff.mpr (hne b)
    have hrest := hlength rest
    have htotal := congrArg List.length h
    rw [List.length_append, List.length_cons] at htotal
    have hone : (f b).length = 1 := by omega
    obtain ⟨b', hb'⟩ := List.length_eq_one_iff.mp hone
    rw [hb', List.singleton_append, List.cons.injEq] at h
    rcases List.mem_cons.mp ha with rfl | ha
    · rw [hb', h.1]
    · exact eq_singleton_of_flatMap_eq hne h.2 a ha

section Tags

variable [CharData]

/-- What the tags rely on: case folding is idempotent, makes nothing empty, leaves the space
and introduces neither whitespace nor a separator. -/
structure FoldsTags : Prop where
  idempotent : ∀ s, casefold (casefold s) = casefold s
  nonempty : ∀ c, CharData.casefold c ≠ []
  space : CharData.casefold ' ' = [' ']
  whitespace : ∀ c, isSpace c = false → ∀ d ∈ CharData.casefold c, isSpace d = false
  separator : ∀ c, isSeparator c = false → ∀ d ∈ CharData.casefold c, isSeparator d = false

/-- Tags as they are stored. -/
structure TagList (tags : List String) : Prop where
  nonempty : "" ∉ tags
  nodup : tags.Nodup
  separator : ∀ tag ∈ tags, ∀ c ∈ tag.toList, isSeparator c = false
  tidy : ∀ tag ∈ tags, Tidy tag.toList
  normal : ∀ tag ∈ tags, normalizeTag tag = tag

/-! ## Folding -/

theorem FoldsTags.folds (h : FoldsTags) : Folds where
  space := h.space
  word c hc := ⟨h.nonempty c, h.whitespace c hc⟩
  again c d hd := by
    have hidem := congrArg String.toList (h.idempotent (String.ofList [c]))
    simp only [casefold, String.toList_ofList, List.flatMap_cons, List.flatMap_nil,
      List.append_nil] at hidem
    exact eq_singleton_of_flatMap_eq h.nonempty hidem d hd

/-! ## Parsing -/

/-- Normalising puts no separators into an item. -/
theorem separator_normalizeTag (hfolds : FoldsTags) {rawTag : String}
    (h : ∀ c ∈ rawTag.toList, isSeparator c = false) :
    ∀ c ∈ (normalizeTag rawTag).toList, isSeparator c = false := by
  unfold normalizeTag casefold compact
  rw [String.toList_ofList, String.toList_ofList]
  intro d hd
  obtain ⟨c, hc, hdc⟩ := List.mem_flatMap.mp hd
  refine hfolds.separator c ?_ d hdc
  rcases mem_intercalate hc with rfl | ⟨w, hw, hmem⟩
  · rfl
  · have hstripped : c ∈ (strip rawTag).toList := mem_of_mem_split hw c hmem
    rw [strip, String.toList_ofList] at hstripped
    exact h c ((lstrip_sublist _).mem ((rstrip_sublist _).mem hstripped))

/-- What the loop has seen does not come again. -/
theorem nodup_parseTags : ∀ (seen rawTags : List String), (parseTags seen rawTags).Nodup
  | seen, [] => List.nodup_nil
  | seen, rawTag :: rest => by
    rw [parseTags]
    split_ifs
    · exact nodup_parseTags seen rest
    · refine List.nodup_cons.mpr ⟨fun hmem => ?_, nodup_parseTags _ rest⟩
      exact (mem_parseTags.mp hmem).2.1 (List.mem_append_right _ (List.mem_singleton_self _))

/-- Items that are normal, new and different are all kept. -/
theorem parseTags_eq_map : ∀ {seen rawTags : List String},
    (rawTags.map normalizeTag).Nodup →
    (∀ rawTag ∈ rawTags, normalizeTag rawTag ≠ "" ∧ normalizeTag rawTag ∉ seen) →
      parseTags seen rawTags = rawTags.map normalizeTag
  | seen, [], _, _ => rfl
  | seen, rawTag :: rest, hnodup, hnew => by
    obtain ⟨hne, hseen⟩ := hnew rawTag List.mem_cons_self
    rw [List.map_cons, List.nodup_cons] at hnodup
    rw [parseTags, if_neg (by simp [hne, hseen]), List.map_cons, parseTags_eq_map hnodup.2]
    intro other hother
    obtain ⟨hne', hseen'⟩ := hnew other (List.mem_cons_of_mem _ hother)
    refine ⟨hne', fun hmem => ?_⟩
    rcases List.mem_append.mp hmem with hmem | hmem
    · exact hseen' hmem
    · rw [← List.mem_singleton.mp hmem] at hnodup
      exact hnodup.1 (List.mem_map_of_mem hother)

/-- **What a text is parsed to.** -/
theorem tagList_parseManualTags (hfolds : FoldsTags) (value : String) :
    TagList (parseManualTags value) where
  nonempty h := (mem_parseManualTags.mp h).1 rfl
  nodup := by
    unfold parseManualTags
    split_ifs
    · exact List.nodup_nil
    · exact nodup_parseTags _ _
  separator tag h := by
    obtain ⟨-, rawTag, hraw, rfl⟩ := mem_parseManualTags.mp h
    exact separator_normalizeTag hfolds (separator_splitTags hraw)
  tidy tag h := by
    obtain ⟨-, rawTag, -, rfl⟩ := mem_parseManualTags.mp h
    exact (spaced_normalizeTag hfolds.folds rawTag).tidy
  normal tag h := by
    obtain ⟨-, rawTag, -, rfl⟩ := mem_parseManualTags.mp h
    obtain ⟨hstrip, hcompact, hcasefold⟩ := plain_normalizeTag hfolds.folds rawTag
    rw [hstrip] at hcompact hcasefold
    rw [normalizeTag, hstrip, hcompact, hcasefold]

theorem TagList.nil : TagList [] := ⟨by simp, by simp, by simp, by simp, by simp⟩

/-! ## Joining -/

/-- The space after the comma is stripped. -/
theorem normalizeTag_space_append (tag : String) :
    normalizeTag (String.ofList (' ' :: tag.toList)) = normalizeTag tag := by
  have hlstrip : lstrip (' ' :: tag.toList) = lstrip tag.toList :=
    List.dropWhile_cons_of_pos (by decide)
  have hstrip : strip (String.ofList (' ' :: tag.toList)) = strip tag := by
    rw [strip, String.toList_ofList, hlstrip, strip]
  rw [normalizeTag, hstrip, normalizeTag]

/-- **Joined and parsed again**, stored tags are the same, in the same order. -/
theorem parseManualTags_joinTags {tags : List String} (h : TagList tags) :
    parseManualTags (joinTags tags) = tags := by
  cases tags with
  | nil => rfl
  | cons tag rest =>
    have htag : tag ≠ "" := fun heq => h.nonempty (heq ▸ List.mem_cons_self)
    have hitems : splitTags (joinTags (tag :: rest)) =
        tag :: rest.map fun t => String.ofList (' ' :: t.toList) := by
      have hpieces : ∀ v ∈ [] :: tag.toList :: rest.map String.toList,
          ∀ c ∈ v, isSeparator c = false := by
        intro v hv
        rcases List.mem_cons.mp hv with rfl | hv
        · exact fun c hc => absurd hc List.not_mem_nil
        · rw [← List.map_cons] at hv
          obtain ⟨t, ht, rfl⟩ := List.mem_map.mp hv
          exact h.separator t ht
      have hsplit := @Slug.splitOnP_intercalate _ ',' isSeparator [' '] rfl
        (by simp [isSeparator]) [] tag.toList (rest.map String.toList) hpieces
      rw [List.nil_append, List.nil_append] at hsplit
      rw [splitTags_eq, joinTags, String.toList_intercalate, List.map_cons]
      rw [show ", ".toList = [',', ' '] from rfl, hsplit]
      simp [Function.comp_def]
    have hnormal : (splitTags (joinTags (tag :: rest))).map normalizeTag = tag :: rest := by
      rw [hitems, List.map_cons, List.map_map, h.normal tag List.mem_cons_self]
      congr 1
      refine (List.map_congr_left fun t ht => ?_).trans (List.map_id rest)
      rw [Function.comp_apply, normalizeTag_space_append,
        h.normal t (List.mem_cons_of_mem _ ht), id]
    have hjoined : joinTags (tag :: rest) ≠ "" := by
      intro hempty
      rw [hempty] at hnormal
      have hone := congrArg List.length hnormal
      have hblank : normalizeTag "" = tag := (List.cons.inj hnormal).1
      exact htag (hblank.symm.trans rfl)
    unfold parseManualTags
    rw [if_neg (by simpa using hjoined), parseTags_eq_map, hnormal]
    · rw [hnormal]
      exact h.nodup
    · intro rawTag hraw
      have hmem : normalizeTag rawTag ∈ tag :: rest := hnormal ▸ List.mem_map_of_mem hraw
      exact ⟨fun heq => h.nonempty (heq ▸ hmem), List.not_mem_nil⟩

end Tags

/-! ## Storing -/

/-- Where a list of tags is stored. -/
inductive TagColumn where
  | manualTags (personId : Ident)
  | personLabels (ownerProfileId personId : Ident)
  | chatLabels (ownerProfileId chatId : Ident)
  | contextTags (ownerProfileId : Ident)
  deriving DecidableEq, Repr

section Stored

variable (store : Store)

def stored : TagColumn → List String
  | .manualTags personId => ((store.person.find? (·.id = personId)).map (·.manualTags)).getD []
  | .personLabels ownerProfileId personId =>
    labelsOf (annotationOfPerson store ownerProfileId personId)
  | .chatLabels ownerProfileId chatId => labelsOf (annotationOfChat store ownerProfileId chatId)
  | .contextTags ownerProfileId =>
    ((store.ownerProfile.find? (·.id = ownerProfileId)).map (·.contextTags)).getD []

/-- The column that a form shows and overwrites. -/
def columnOf : TagForm → Option TagColumn
  | .personAnnotations personId _ => some (.manualTags personId)
  | .personRelationship personId _ =>
    (getOwnerProfileRecord store.db).map fun owner => .personLabels owner.id personId
  | .chatRelationship chatId _ =>
    (getOwnerProfileRecord store.db).map fun owner => .chatLabels owner.id chatId
  | .ownerProfile _ => store.ownerProfileRow.map fun owner => .contextTags owner.id

/-- All lists of tags in the tables. -/
def tagLists : List (List String) :=
  store.person.map (·.manualTags) ++ store.relationshipAnnotation.map (·.labels) ++
    store.ownerProfile.map (·.contextTags)

/-- `ck_relationship_annotation_exactly_one_target`, and the primary key of `owner_profile`. -/
structure Constraints : Prop where
  target : ∀ ra ∈ store.relationshipAnnotation, ra.personId = none ↔ ra.chatId ≠ none
  profileIds : (store.ownerProfile.map (·.id)).Nodup

end Stored

section Submit

variable [CharData]

/-- What a form can do that is accepted. -/
inductive Accepted (store : Store) (newId : Ident) (now : Timestamp) : TagForm → Store → Prop
  | readonly {form} : Accepted store newId now form store
  | person {personId form} (hperson : ∃ p ∈ store.person, p.id = personId) :
      Accepted store newId now (.personAnnotations personId form) { store with
        person := Table.update (fun p => decide (p.id = personId))
          (fun p => { p with
            manualTags := parseManualTags form.manualTags
            notes := normalizeOptionalText (some form.notes)
            updatedAt := now }) store.person }
  | personRelationship {personId form owner} (howner : getOwnerProfileRecord store.db = some owner)
      (note : Option String) :
      Accepted store newId now (.personRelationship personId form) { store with
        relationshipAnnotation := Table.upsert (fun row => (row.ownerProfileId, row.personId))
          (annotated (parseManualTags form.relationshipLabels) note now)
          ⟨owner.id, some personId, none, parseManualTags form.relationshipLabels, note, now⟩
          store.relationshipAnnotation }
  | chatRelationship {chatId form owner} (howner : getOwnerProfileRecord store.db = some owner)
      (note : Option String) :
      Accepted store newId now (.chatRelationship chatId form) { store with
        relationshipAnnotation := Table.upsert (fun row => (row.ownerProfileId, row.chatId))
          (annotated (parseManualTags form.relationshipLabels) note now)
          ⟨owner.id, none, some chatId, parseManualTags form.relationshipLabels, note, now⟩
          store.relationshipAnnotation }
  | newOwnerProfile {form ownerPerson} (hnone : store.ownerProfileRow = none)
      (notes : Option String) (language : String) :
      Accepted store newId now (.ownerProfile form) { store with
        ownerProfile := store.ownerProfile ++ [newOwnerProfile (parseManualTags form.contextTags)
          notes language ownerPerson newId now] }
  | ownerProfile {form ownerPerson owner} (howner : store.ownerProfileRow = some owner)
      (notes : Option String) (language : String) :
      Accepted store newId now (.ownerProfile form) { store with
        ownerProfile := Table.update (fun row => decide (row.id = owner.id))
          (updatedOwnerProfile (parseManualTags form.contextTags) notes language ownerPerson now)
          store.ownerProfile }

variable {store store' : Store} {newId : Ident} {now : Timestamp} {form : TagForm}
  {redirect : Redirect}

theorem accepted_personAnnotations {personId : Ident} {form : PersonAnnotationsForm} {db' : Db}
    (h : adminPersonAnnotations store.db personId form now = .ok (redirect, db')) :
    Accepted store newId now (.personAnnotations personId form)
      (store.written (redirect, db')).2 := by
  rcases adminPersonAnnotations_ok h with ⟨-, rfl⟩ | ⟨hperson, rfl⟩
  · exact .readonly
  · exact .person hperson

theorem accepted_personRelationship {personId : Ident} {form : RelationshipAnnotationForm}
    {db' : Db}
    (h : adminPersonRelationshipAnnotation store.db personId form now = .ok (redirect, db')) :
    Accepted store newId now (.personRelationship personId form)
      (store.written (redirect, db')).2 := by
  rcases adminPersonRelationshipAnnotation_ok h with ⟨-, rfl⟩ | ⟨owner, howner, -, rfl⟩
  · exact .readonly
  · exact .personRelationship howner _

theorem accepted_chatRelationship {chatId : Ident} {form : RelationshipAnnotationForm} {db' : Db}
    (h : adminChatRelationshipAnnotation store.db chatId form now = .ok (redirect, db')) :
    Accepted store newId now (.chatRelationship chatId form)
      (store.written (redirect, db')).2 := by
  obtain ⟨owner, howner, -, rfl⟩ := adminChatRelationshipAnnotation_ok h
  exact .chatRelationship howner _

theorem accepted_ownerProfile {form : OwnerProfileForm}
    (h : adminMeUpdate store form newId now = .ok (redirect, store')) :
    Accepted store newId now (.ownerProfile form) store' := by
  unfold adminMeUpdate updateOwnerProfile at h
  cases hperson : getOwnerPersonId store.db with
  | error e =>
    rw [hperson] at h
    cases h
  | ok ownerPersonId =>
    rw [hperson] at h
    simp only [bind, Except.bind] at h
    cases hfind : store.person.find? (·.id = ownerPersonId) with
    | none =>
      rw [hfind] at h
      cases h
    | some ownerPerson =>
      rw [hfind] at h
      cases hprofile : store.ownerProfileRow with
      | none =>
        rw [hprofile] at h
        dsimp only at h
        split_ifs at h
        obtain ⟨-, rfl⟩ := Prod.mk.inj (Except.ok.inj h)
        exact .newOwnerProfile hprofile _ _
      | some owner =>
        rw [hprofile] at h
        dsimp only at h
        split_ifs at h
        obtain ⟨-, rfl⟩ := Prod.mk.inj (Except.ok.inj h)
        exact .ownerProfile hprofile _ _

omit [CharData] in
theorem exists_of_written {result : Except Exc (Redirect × Db)}
    (h : (do pure (store.written (← result))) = Except.ok (redirect, store')) :
    ∃ db', result = .ok (redirect, db') ∧ (store.written (redirect, db')).2 = store' := by
  cases result with
  | error e => cases h
  | ok result =>
    obtain ⟨redirect', db'⟩ := result
    obtain ⟨rfl, hstore⟩ := Prod.mk.inj (Except.ok.inj h)
    exact ⟨db', rfl, hstore⟩

theorem accepted_of_submit (h : submit store newId now form = .ok (redirect, store')) :
    Accepted store newId now form store' := by
  cases form with
  | personAnnotations personId form =>
    obtain ⟨db', hresult, rfl⟩ := exists_of_written h
    exact accepted_personAnnotations hresult
  | personRelationship personId form =>
    obtain ⟨db', hresult, rfl⟩ := exists_of_written h
    exact accepted_personRelationship hresult
  | chatRelationship chatId form =>
    obtain ⟨db', hresult, rfl⟩ := exists_of_written h
    exact accepted_chatRelationship hresult
  | ownerProfile form => exact accepted_ownerProfile h

end Submit

/-! ## What an accepted form stores -/

section Accepted

theorem annotationOfPerson_eq (store : Store) (ownerProfileId personId : Ident) :
    annotationOfPerson store ownerProfileId personId = store.relationshipAnnotation.find? fun ra =>
      (ra.ownerProfileId, ra.personId) = (ownerProfileId, some personId) := by
  simp only [annotationOfPerson, Prod.mk.injEq]

theorem annotationOfChat_eq (store : Store) (ownerProfileId chatId : Ident) :
    annotationOfChat store ownerProfileId chatId = store.relationshipAnnotation.find? fun ra =>
      (ra.ownerProfileId, ra.chatId) = (ownerProfileId, some chatId) := by
  simp only [annotationOfChat, Prod.mk.injEq]

/-- The labels of a key after an upsert. -/
theorem labels_upsert {κ : Type} [DecidableEq κ] {key : RelationshipAnnotation → κ}
    {labels : List String} {note : Option String} {now : Timestamp}
    (hkey : ∀ ra, key (annotated labels note now ra) = key ra) {fresh : RelationshipAnnotation}
    (hfresh : fresh.labels = labels) (rows : List RelationshipAnnotation) (k : κ) :
    labelsOf ((Table.upsert key (annotated labels note now) fresh rows).find? (key · = k)) =
      if k = key fresh then labels else labelsOf (rows.find? (key · = k)) := by
  split_ifs with heq
  · subst heq
    rw [Table.find?_upsert_self fun r hr => (hkey r).trans hr]
    cases rows.find? (key · = key fresh) with
    | none => exact hfresh
    | some ra => rfl
  · rw [Table.find?_upsert_of_not]
    · intro ra _ hra
      have hne : key ra ≠ k := fun h => heq (h.symm.trans hra)
      rw [hkey]
      exact ⟨decide_eq_false hne, decide_eq_false hne⟩
    · exact decide_eq_false (Ne.symm heq)

section Targets

variable {rows : List RelationshipAnnotation} {labels : List String} {note : Option String}
  {now : Timestamp} {owner owner' personId chatId : Ident}

/-- The annotations of a person have no chat. -/
theorem find?_chat_upsert (htarget : ∀ ra ∈ rows, ra.personId = none ↔ ra.chatId ≠ none) :
    (Table.upsert (fun row => (row.ownerProfileId, row.personId)) (annotated labels note now)
        ⟨owner, some personId, none, labels, note, now⟩ rows).find?
          (fun ra => (ra.ownerProfileId, ra.chatId) = (owner', some chatId)) =
      rows.find? fun ra => (ra.ownerProfileId, ra.chatId) = (owner', some chatId) := by
  refine Table.find?_upsert_of_not (fun ra hra hkey => ?_) (by simp)
  have hnone : ra.chatId = none := by
    by_contra hsome
    simp [(htarget ra hra).mpr hsome] at hkey
  simp [annotated, hnone]

/-- The annotations of a chat have no person. -/
theorem find?_person_upsert (htarget : ∀ ra ∈ rows, ra.personId = none ↔ ra.chatId ≠ none) :
    (Table.upsert (fun row => (row.ownerProfileId, row.chatId)) (annotated labels note now)
        ⟨owner, none, some chatId, labels, note, now⟩ rows).find?
          (fun ra => (ra.ownerProfileId, ra.personId) = (owner', some personId)) =
      rows.find? fun ra => (ra.ownerProfileId, ra.personId) = (owner', some personId) := by
  refine Table.find?_upsert_of_not (fun ra hra hkey => ?_) (by simp)
  have hnone : ra.personId = none := by
    refine (htarget ra hra).mpr fun hchat => ?_
    simp [hchat] at hkey
  simp [annotated, hnone]

end Targets

/-- An annotation after an upsert was there before, or has the labels. -/
theorem labels_of_mem_upsert {κ : Type} [DecidableEq κ] {key : RelationshipAnnotation → κ}
    {labels : List String} {note : Option String} {now : Timestamp}
    {fresh : RelationshipAnnotation} (hfresh : fresh.labels = labels)
    {rows : List RelationshipAnnotation} :
    ∀ ra ∈ Table.upsert key (annotated labels note now) fresh rows,
      ra ∈ rows ∨ ra.labels = labels :=
  Table.forall_upsert (fun _ hold => .inl hold) (fun _ _ _ _ => .inr rfl) (.inr hfresh)

variable [CharData] {store store' : Store} {newId : Ident} {now : Timestamp} {form : TagForm}

/-- A list that is stored was there before, or has been parsed from the text of the form. -/
theorem Accepted.mem_tagLists (h : Accepted store newId now form store') :
    ∀ tags ∈ tagLists store', tags ∈ tagLists store ∨ tags = parseManualTags form.text := by
  intro tags htags
  simp only [tagLists, List.mem_append, List.mem_map] at htags ⊢
  cases h with
  | readonly => exact .inl htags
  | person hperson =>
    rcases htags with (⟨p, hp, rfl⟩ | hlabels) | hcontext
    · obtain ⟨old, hold, rfl⟩ := Table.mem_update.mp hp
      split_ifs
      · exact .inr rfl
      · exact .inl (.inl (.inl ⟨old, hold, rfl⟩))
    · exact .inl (.inl (.inr hlabels))
    · exact .inl (.inr hcontext)
  | personRelationship howner note =>
    rcases htags with (hmanual | ⟨ra, hra, rfl⟩) | hcontext
    · exact .inl (.inl (.inl hmanual))
    · rcases labels_of_mem_upsert (by rfl) ra hra with hold | hlabels
      · exact .inl (.inl (.inr ⟨ra, hold, rfl⟩))
      · exact .inr hlabels
    · exact .inl (.inr hcontext)
  | chatRelationship howner note =>
    rcases htags with (hmanual | ⟨ra, hra, rfl⟩) | hcontext
    · exact .inl (.inl (.inl hmanual))
    · rcases labels_of_mem_upsert (by rfl) ra hra with hold | hlabels
      · exact .inl (.inl (.inr ⟨ra, hold, rfl⟩))
      · exact .inr hlabels
    · exact .inl (.inr hcontext)
  | newOwnerProfile hnone notes language =>
    rcases htags with (hmanual | hlabels) | ⟨row, hrow, rfl⟩
    · exact .inl (.inl (.inl hmanual))
    · exact .inl (.inl (.inr hlabels))
    · rcases List.mem_append.mp hrow with hold | hnew
      · exact .inl (.inr ⟨row, hold, rfl⟩)
      · rw [List.mem_singleton.mp hnew]
        exact .inr rfl
  | ownerProfile howner notes language =>
    rcases htags with (hmanual | hlabels) | ⟨row, hrow, rfl⟩
    · exact .inl (.inl (.inl hmanual))
    · exact .inl (.inl (.inr hlabels))
    · obtain ⟨old, hold, rfl⟩ := Table.mem_update.mp hrow
      split_ifs
      · exact .inr rfl
      · exact .inl (.inr ⟨old, hold, rfl⟩)

/-- The constraints are kept. -/
theorem Accepted.constraints (h : Accepted store newId now form store')
    (hkept : Constraints store) : Constraints store' := by
  cases h with
  | readonly => exact hkept
  | person hperson => exact ⟨hkept.target, hkept.profileIds⟩
  | personRelationship howner note =>
    exact ⟨Table.forall_upsert hkept.target (fun _ _ _ htarget => htarget) (by simp),
      hkept.profileIds⟩
  | chatRelationship howner note =>
    exact ⟨Table.forall_upsert hkept.target (fun _ _ _ htarget => htarget) (by simp),
      hkept.profileIds⟩
  | newOwnerProfile hnone notes language =>
    have hempty : store.ownerProfile = [] := Table.first_eq_none_iff.mp hnone
    refine ⟨hkept.target, ?_⟩
    rw [hempty]
    exact List.nodup_singleton _
  | ownerProfile howner notes language =>
    refine ⟨hkept.target, ?_⟩
    show ((Table.update _ _ store.ownerProfile).map (·.id)).Nodup
    rw [Table.map_update (by intro _; rfl)]
    exact hkept.profileIds

/-- **An accepted form** overwrites its column, or nothing. -/
theorem Accepted.stored_eq (h : Accepted store newId now form store')
    (hkept : Constraints store) {column : TagColumn}
    (hcolumn : columnOf store form = some column) :
    store' = store ∨
      stored store' = Function.update (stored store) column (parseManualTags form.text) := by
  cases h with
  | readonly => exact .inl rfl
  | @person personId form hperson =>
    obtain rfl : TagColumn.manualTags personId = column := Option.some.inj hcolumn
    refine .inr (funext fun other => ?_)
    rw [Function.update_apply]
    cases other with
    | manualTags personId' =>
      simp only [stored, TagColumn.manualTags.injEq]
      exact Table.column_update (by intro _; rfl) (by intro _; rfl) hperson personId' []
    | personLabels ownerProfileId personId' => rfl
    | chatLabels ownerProfileId chatId => rfl
    | contextTags ownerProfileId => rfl
  | @personRelationship personId form owner howner note =>
    obtain rfl : TagColumn.personLabels owner.id personId = column := by
      rw [columnOf, howner] at hcolumn
      exact Option.some.inj hcolumn
    refine .inr (funext fun other => ?_)
    rw [Function.update_apply]
    cases other with
    | manualTags personId' => rfl
    | personLabels ownerProfileId personId' =>
      rw [stored, stored, annotationOfPerson_eq, annotationOfPerson_eq,
        labels_upsert (by intro _; rfl) (by rfl)]
      simp only [TagColumn.personLabels.injEq, Prod.mk.injEq, Option.some.injEq]
      rfl
    | chatLabels ownerProfileId chatId =>
      rw [stored, annotationOfChat_eq, find?_chat_upsert hkept.target, if_neg (by simp), stored,
        annotationOfChat_eq]
    | contextTags ownerProfileId => rfl
  | @chatRelationship chatId form owner howner note =>
    obtain rfl : TagColumn.chatLabels owner.id chatId = column := by
      rw [columnOf, howner] at hcolumn
      exact Option.some.inj hcolumn
    refine .inr (funext fun other => ?_)
    rw [Function.update_apply]
    cases other with
    | manualTags personId => rfl
    | personLabels ownerProfileId personId =>
      rw [stored, annotationOfPerson_eq, find?_person_upsert hkept.target, if_neg (by simp), stored,
        annotationOfPerson_eq]
    | chatLabels ownerProfileId chatId' =>
      rw [stored, stored, annotationOfChat_eq, annotationOfChat_eq,
        labels_upsert (by intro _; rfl) (by rfl)]
      simp only [TagColumn.chatLabels.injEq, Prod.mk.injEq, Option.some.injEq]
      rfl
    | contextTags ownerProfileId => rfl
  | newOwnerProfile hnone notes language =>
    rw [columnOf, hnone] at hcolumn
    cases hcolumn
  | @ownerProfile form ownerPerson owner howner notes language =>
    obtain rfl : TagColumn.contextTags owner.id = column := by
      rw [columnOf, howner] at hcolumn
      exact Option.some.inj hcolumn
    refine .inr (funext fun other => ?_)
    rw [Function.update_apply]
    cases other with
    | manualTags personId => rfl
    | personLabels ownerProfileId personId => rfl
    | chatLabels ownerProfileId chatId => rfl
    | contextTags ownerProfileId =>
      simp only [stored, TagColumn.contextTags.injEq]
      exact Table.column_update (by intro _; rfl) (by intro _; rfl)
        ⟨owner, Table.mem_of_first howner, rfl⟩ ownerProfileId []

end Accepted

/-! ## What a form shows -/

section Shown

theorem TagList.normalizeStringList_eq [CharData] {tags : List String} (h : TagList tags) :
    normalizeStringList tags = tags := by
  refine List.filter_eq_self.mpr fun tag htag => ?_
  have hne : tag ≠ "" := fun heq => h.nonempty (heq ▸ htag)
  simpa using hne

variable {store : Store}

theorem getPersonContextData_ok {personId : Ident} {detail : PersonContext}
    (h : getPersonContextData store personId = .ok detail) :
    ∃ owner, getOwnerProfileRecord store.db = some owner ∧
      detail.manualTags = normalizeStringList (stored store (.manualTags personId)) ∧
      detail.relationshipLabels =
        normalizeStringList (stored store (.personLabels owner.id personId)) := by
  unfold getPersonContextData getCurrentOwnerProfileId at h
  cases howner : getOwnerProfileRecord store.db with
  | none =>
    rw [howner] at h
    cases h
  | some owner =>
    rw [howner] at h
    simp only [bind, Except.bind] at h
    cases hperson : store.person.find? (·.id = personId) with
    | none =>
      rw [hperson] at h
      cases h
    | some person =>
      rw [hperson] at h
      obtain rfl := Except.ok.inj h
      refine ⟨owner, rfl, ?_, rfl⟩
      simp [stored, hperson]

theorem adminPersonDetail_ok {personId : Ident} {detail : PersonContext}
    (h : adminPersonDetail store personId = .ok (some detail)) :
    getPersonContextData store personId = .ok detail := by
  unfold adminPersonDetail at h
  cases hcontext : getPersonContextData store personId with
  | error e =>
    rw [hcontext] at h
    cases h
  | ok context =>
    rw [hcontext] at h
    simp only [bind, Except.bind] at h
    split_ifs at h
    · cases h
    · obtain rfl := Option.some.inj (Except.ok.inj h)
      rfl

theorem getChatDetailData_ok {chatId : Ident} {detail : ChatDetail}
    (h : getChatDetailData store chatId = .ok detail) :
    ∃ owner, getOwnerProfileRecord store.db = some owner ∧
      detail.relationshipLabels =
        normalizeStringList (stored store (.chatLabels owner.id chatId)) := by
  unfold getChatDetailData getCurrentOwnerProfileId at h
  cases howner : getOwnerProfileRecord store.db with
  | none =>
    rw [howner] at h
    cases h
  | some owner =>
    rw [howner] at h
    simp only [bind, Except.bind] at h
    cases hchat : store.chat.find? (·.id = chatId) with
    | none =>
      rw [hchat] at h
      cases h
    | some chat =>
      rw [hchat] at h
      obtain rfl := Except.ok.inj h
      exact ⟨owner, rfl, rfl⟩

theorem exists_of_shown {result : Except Exc (Option PersonContext)}
    {field : PersonContext → List String} {tags : List String}
    (h : (do pure ((← result).map field)) = Except.ok (some tags)) :
    ∃ detail, result = .ok (some detail) ∧ field detail = tags := by
  cases result with
  | error e => cases h
  | ok detail =>
    obtain ⟨detail, rfl, hfield⟩ := Option.map_eq_some_iff.mp (Except.ok.inj h)
    exact ⟨detail, rfl, hfield⟩

/-- The page of the owner cannot be shown without a profile. -/
theorem getOwnerProfileData_ok [CharData] {detail : OwnerDetail}
    (h : getOwnerProfileData store = .ok detail) :
    ∃ owner, store.ownerProfileRow = some owner ∧
      detail.contextTags = normalizeStringList owner.contextTags := by
  unfold getOwnerProfileData at h
  cases hpersonId : backingPersonId store with
  | error e =>
    rw [hpersonId] at h
    cases h
  | ok ownerPersonId =>
    rw [hpersonId] at h
    simp only [bind, Except.bind] at h
    cases hcontext : getPersonContextData store ownerPersonId with
    | error e =>
      rw [hcontext] at h
      cases h
    | ok context =>
      rw [hcontext] at h
      cases hrow : store.ownerProfileRow with
      | none =>
        obtain ⟨owner, howner, -⟩ := getPersonContextData_ok hcontext
        have hempty : store.ownerProfile = [] := Table.first_eq_none_iff.mp hrow
        simp [getOwnerProfileRecord, Store.db, hempty, Table.first] at howner
      | some owner =>
        rw [hrow] at h
        obtain rfl := Except.ok.inj h
        exact ⟨owner, rfl, rfl⟩

/-- **A form shows** what its column has, without empty tags. -/
theorem shownTags_ok [CharData] (hkept : Constraints store) {form : TagForm} {tags : List String}
    (h : shownTags store form = .ok (some tags)) :
    ∃ column, columnOf store form = some column ∧
      tags = normalizeStringList (stored store column) := by
  cases form with
  | personAnnotations personId form =>
    obtain ⟨detail, hdetail, rfl⟩ := exists_of_shown h
    obtain ⟨owner, -, htags, -⟩ := getPersonContextData_ok (adminPersonDetail_ok hdetail)
    exact ⟨_, rfl, htags⟩
  | personRelationship personId form =>
    obtain ⟨detail, hdetail, rfl⟩ := exists_of_shown h
    obtain ⟨owner, howner, -, hlabels⟩ := getPersonContextData_ok (adminPersonDetail_ok hdetail)
    refine ⟨.personLabels owner.id personId, ?_, hlabels⟩
    rw [columnOf, howner]
    rfl
  | chatRelationship chatId form =>
    cases hdetail : getChatDetailData store chatId with
    | error e => simp [shownTags, hdetail, bind, Except.bind] at h
    | ok detail =>
      simp only [shownTags, hdetail, bind, Except.bind, pure, Except.pure, Except.ok.injEq,
        Option.some.injEq] at h
      obtain ⟨owner, howner, hlabels⟩ := getChatDetailData_ok hdetail
      refine ⟨.chatLabels owner.id chatId, ?_, h.symm.trans hlabels⟩
      rw [columnOf, howner]
      rfl
  | ownerProfile form =>
    cases hdetail : getOwnerProfileData store with
    | error e => simp [shownTags, hdetail, bind, Except.bind] at h
    | ok detail =>
      simp only [shownTags, hdetail, bind, Except.bind, pure, Except.pure, Except.ok.injEq,
        Option.some.injEq] at h
      obtain ⟨owner, howner, hcontext⟩ := getOwnerProfileData_ok hdetail
      refine ⟨.contextTags owner.id, ?_, ?_⟩
      · rw [columnOf, howner]
        rfl
      · rw [stored, Table.find?_of_mem hkept.profileIds (Table.mem_of_first howner), ← h]
        exact hcontext

end Shown

/-! ## Runs -/

section Runs

variable [CharData]

/-- The tables after any number of forms, and of statements elsewhere, which write no tags of
their own: a new row has none, and the first annotations were made of the tags of a person. -/
inductive Reachable : Store → Prop
  | empty : Reachable {}
  | submitted {store store' newId now form redirect} (hreach : Reachable store)
      (h : submit store newId now form = .ok (redirect, store')) : Reachable store'
  | elsewhere {store store' : Store} (hreach : Reachable store)
      (htags : ∀ tags ∈ tagLists store', tags = [] ∨ tags ∈ tagLists store)
      (hkept : Constraints store') : Reachable store'

/-- **In every state** the constraints hold, and all lists are as parsed. -/
theorem Reachable.kept (hfolds : FoldsTags) {store : Store} (h : Reachable store) :
    Constraints store ∧ ∀ tags ∈ tagLists store, TagList tags := by
  induction h with
  | empty => exact ⟨⟨by simp, by simp⟩, by simp [tagLists]⟩
  | submitted hreach h ih =>
    have haccepted := accepted_of_submit h
    refine ⟨haccepted.constraints ih.1, fun tags htags => ?_⟩
    rcases haccepted.mem_tagLists tags htags with hold | rfl
    · exact ih.2 tags hold
    · exact tagList_parseManualTags hfolds _
  | elsewhere hreach htags hkept ih =>
    refine ⟨hkept, fun tags hmem => ?_⟩
    rcases htags tags hmem with rfl | hold
    · exact TagList.nil
    · exact ih.2 tags hold

theorem tagList_stored {store : Store} (h : ∀ tags ∈ tagLists store, TagList tags)
    (column : TagColumn) : TagList (stored store column) := by
  have hgetD : ∀ {ρ : Type} (row : Option ρ) (tags : ρ → List String),
      (∀ r ∈ row, tags r ∈ tagLists store) → TagList ((row.map tags).getD []) := by
    intro ρ row tags hrow
    cases row with
    | none => exact TagList.nil
    | some r => exact h _ (hrow r rfl)
  cases column with
  | manualTags personId =>
    refine hgetD _ _ fun p hp => ?_
    exact List.mem_append_left _ (List.mem_append_left _
      (List.mem_map_of_mem (List.mem_of_find?_eq_some hp)))
  | personLabels ownerProfileId personId =>
    refine hgetD _ _ fun ra hra => ?_
    exact List.mem_append_left _ (List.mem_append_right _
      (List.mem_map_of_mem (List.mem_of_find?_eq_some hra)))
  | chatLabels ownerProfileId chatId =>
    refine hgetD _ _ fun ra hra => ?_
    exact List.mem_append_left _ (List.mem_append_right _
      (List.mem_map_of_mem (List.mem_of_find?_eq_some hra)))
  | contextTags ownerProfileId =>
    refine hgetD _ _ fun row hrow => ?_
    exact List.mem_append_right _ (List.mem_map_of_mem (List.mem_of_find?_eq_some hrow))

/-- **Tag editing round-trips.**  A text is parsed to tags that are not empty, different, tidy
and without separators, and these are the same when they are joined and parsed again.  So a
form that is submitted with the tags it shows leaves every list of tags as it is stored, in
every state. -/
theorem tags_roundTrip (hfolds : FoldsTags) :
    (∀ value, TagList (parseManualTags value) ∧
      parseManualTags (joinTags (parseManualTags value)) = parseManualTags value) ∧
    ∀ store, Reachable store → ∀ form, Unchanged store form →
      ∀ newId now redirect store', submit store newId now form = .ok (redirect, store') →
        ∀ column, stored store' column = stored store column := by
  constructor
  · intro value
    have htags := tagList_parseManualTags hfolds value
    exact ⟨htags, parseManualTags_joinTags htags⟩
  · rintro store hreach form ⟨tags, hshown, htext⟩ newId now redirect store' hsubmit column
    obtain ⟨hkept, hlists⟩ := hreach.kept hfolds
    obtain ⟨edited, hcolumn, rfl⟩ := shownTags_ok hkept hshown
    have htags := tagList_stored hlists edited
    rcases (accepted_of_submit hsubmit).stored_eq hkept hcolumn with rfl | hstored
    · rfl
    · rw [hstored, htext, htags.normalizeStringList_eq, parseManualTags_joinTags htags,
        Function.update_eq_self]

end Runs

theorem foldsTags_basicCharData : @FoldsTags basicCharData := by
  refine @FoldsTags.mk basicCharData ?_ (fun c => List.cons_ne_nil _ _) (by decide) ?_ ?_
  · intro s
    exact @casefold_casefold basicCharData folds_basicCharData s
  · exact fun c hc => (@Folds.word basicCharData folds_basicCharData c hc).2
  · intro c hc d hd
    obtain rfl := List.mem_singleton.mp hd
    have h := toNat_russianLower c
    unfold isSeparator at hc ⊢
    simp only [Bool.or_eq_false_iff, decide_eq_false_iff_not, ← Char.toNat_inj] at hc ⊢
    have hcomma : ','.toNat = 44 := rfl
    have hsemicolon : ';'.toNat = 59 := rfl
    have hnewline : '\n'.toNat = 10 := rfl
    rw [hcomma, hsemicolon, hnewline] at hc ⊢
    split_ifs at h <;> omega

/-- The owner and a colleague. -/
def desk : Store where
  person := [{ id := 1, displayName := "Owner", isOwner := true, createdAt := 0, updatedAt := 0 },
    { id := 2, displayName := "Maria", createdAt := 0, updatedAt := 0 }]
  ownerProfile := [{ id := 4, backingPersonId := some 1, updatedAt := 0, displayName := "Owner" }]

/-- After `"Pet  X,pet x;ok"` has been typed. -/
def labelled (now : Timestamp) : Store :=
  { desk with relationshipAnnotation := [⟨4, some 2, none, ["pet x", "ok"], none, now⟩] }

/-- The labels that are shown are saved again. -/
theorem labels_of_maria_stay :
    let _ := basicCharData
    Unchanged (labelled 0) (.personRelationship 2 { relationshipLabels := "pet x, ok" }) ∧
      submit (labelled 0) 9 1 (.personRelationship 2 { relationshipLabels := "pet x, ok" }) =
        .ok (⟨"/admin/people", "relationship_annotation_saved"⟩, labelled 1) ∧
      stored (labelled 1) (.personLabels 4 2) = stored (labelled 0) (.personLabels 4 2) ∧
      parseManualTags (joinTags (parseManualTags "Pet  X,pet x;ok")) = ["pet x", "ok"] := by
  intro _
  have htyped : parseManualTags "Pet  X,pet x;ok" = ["pet x", "ok"] := by
    decide +kernel
  have hshown : parseManualTags "pet x, ok" = ["pet x", "ok"] := by decide +kernel
  have hreach : Reachable (labelled 0) := by
    have hdesk : Reachable desk :=
      .elsewhere .empty (by decide) ⟨by decide, by decide⟩
    have hsubmit : submit desk 9 0 (.personRelationship 2
        { relationshipLabels := "Pet  X,pet x;ok" }) =
          .ok (⟨"/admin/people", "relationship_annotation_saved"⟩, labelled 0) := by
      simp only [submit, adminPersonRelationshipAnnotation, htyped]
      rfl
    exact .submitted hdesk hsubmit
  have hunchanged : Unchanged (labelled 0)
      (.personRelationship 2 { relationshipLabels := "pet x, ok" }) :=
    ⟨["pet x", "ok"], by decide, by decide⟩
  have hsubmit : submit (labelled 0) 9 1
      (.personRelationship 2 { relationshipLabels := "pet x, ok" }) =
        .ok (⟨"/admin/people", "relationship_annotation_saved"⟩, labelled 1) := by
    simp only [submit, adminPersonRelationshipAnnotation, hshown]
    rfl
  obtain ⟨htexts, hforms⟩ := tags_roundTrip foldsTags_basicCharData
  refine ⟨hunchanged, hsubmit, hforms _ hreach _ hunchanged _ _ _ _ hsubmit _, ?_⟩
  exact (htexts _).2.trans htyped

end Admin
end PersonalIntelligence
