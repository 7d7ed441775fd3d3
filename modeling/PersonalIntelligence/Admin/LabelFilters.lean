import PersonalIntelligence.Admin.Annotations
import PersonalIntelligence.Library.Spacing

/-!
# Finding a label by what was typed

What is saved of a form text are its items, stripped, with single spaces between their words
and casefolded.  What the lists are filtered by is only stripped.  So the item `s` of a saved
text is found under `s` exactly if the stripped `s` is saved as it is, which is a property of
`s` alone (`Plain`).

That another item of the text might be saved as the stripped `s` makes no difference: what
has been normalised is not changed by normalising it again (`plain_normalizeTag`), so then
the stripped `s` is normal itself.
-/

namespace PersonalIntelligence
namespace Admin

open PyText

/-! ## Tags -/

section Tags

variable [CharData]

/-- Without the whitespace around it, the text has single spaces between its words, and case
folding leaves it as it is. -/
def Plain (s : String) : Prop := compact (strip s) = strip s ∧ casefold (strip s) = strip s

/-- `_parse_manual_tags` takes the text, which has no separators, as one tag. -/
structure OneTag (s : String) : Prop where
  whole : ∀ c ∈ s.toList, c ≠ ',' ∧ c ≠ ';' ∧ c ≠ '\n'
  accepted : ∃ tag, parseManualTags s = [tag]

theorem mem_parseTags {tag : String} : ∀ {seen rawTags : List String},
    tag ∈ parseTags seen rawTags ↔
      tag ≠ "" ∧ tag ∉ seen ∧ ∃ rawTag ∈ rawTags, normalizeTag rawTag = tag
  | seen, [] => by simp [parseTags]
  | seen, rawTag :: rest => by
    rw [parseTags]
    by_cases hskip : (normalizeTag rawTag).isEmpty || seen.contains (normalizeTag rawTag)
    · rw [if_pos hskip, mem_parseTags]
      refine and_congr_right fun hne => and_congr_right fun hseen => ?_
      have hother : normalizeTag rawTag ≠ tag := by
        rintro rfl
        simp [hne, hseen] at hskip
      simp [hother]
    · rw [if_neg hskip, List.mem_cons, mem_parseTags]
      have hfresh : normalizeTag rawTag ≠ "" ∧ normalizeTag rawTag ∉ seen := by
        simpa using hskip
      by_cases htag : normalizeTag rawTag = tag
      · subst htag
        simp [hfresh]
      · simp [htag, Ne.symm htag]

/-- **The tags of a form text** are its items, normalised. -/
theorem mem_parseManualTags {tag value : String} : tag ∈ parseManualTags value ↔
    tag ≠ "" ∧ ∃ rawTag ∈ splitTags value, normalizeTag rawTag = tag := by
  unfold parseManualTags
  split_ifs with hempty
  · obtain rfl := String.isEmpty_iff.mp hempty
    have hnormal : normalizeTag "" = "" := rfl
    simp [splitTags, hnormal, eq_comm]
  · simp [mem_parseTags]

theorem OneTag.normalizeTag_ne {s : String} (h : OneTag s) : normalizeTag s ≠ "" := by
  obtain ⟨tag, htag⟩ := h.accepted
  have hsplit : splitTags s = [s] := by
    have hsingle : (s.toList.splitOnP fun c => c = ',' || c = ';' || c = '\n') = [s.toList] :=
      List.splitOnP_eq_singleton fun c hc => by simp [h.whole c hc]
    rw [splitTags, hsingle, List.map_singleton, String.ofList_toList]
  have hmem : tag ∈ parseManualTags s := by simp [htag]
  obtain ⟨hne, rawTag, hraw, hnormal⟩ := mem_parseManualTags.mp hmem
  rw [hsplit, List.mem_singleton] at hraw
  rwa [← hraw, hnormal]

theorem OneTag.strip_ne {s : String} (h : OneTag s) : strip s ≠ "" := by
  intro hstrip
  refine h.normalizeTag_ne ?_
  rw [normalizeTag, hstrip]
  rfl

section Folding

variable (hfolds : Folds)

include hfolds

theorem casefold_casefold (s : String) : casefold (casefold s) = casefold s := by
  unfold casefold
  rw [String.toList_ofList, List.flatMap_assoc]
  congr 1
  refine List.flatMap_congr fun c _ => ?_
  calc (CharData.casefold c).flatMap CharData.casefold
      = (CharData.casefold c).flatMap fun d => [d] :=
        List.flatMap_congr fun d hd => hfolds.again c d hd
    _ = CharData.casefold c := by rw [List.flatMap_singleton']

/-- Words are folded one by one. -/
theorem casefold_intercalate : ∀ words : List (List Char),
    ([' '].intercalate words).flatMap CharData.casefold =
      [' '].intercalate (words.map fun w => w.flatMap CharData.casefold)
  | [] => rfl
  | [w] => by simp
  | w :: w' :: rest => by
    have htail := casefold_intercalate (w' :: rest)
    rw [List.map_cons] at htail
    simp [List.intercalate_cons_cons, List.flatMap_append, hfolds.space, htail]

/-- A saved tag is spaced. -/
theorem spaced_normalizeTag (rawTag : String) : Spaced (normalizeTag rawTag).toList := by
  unfold normalizeTag casefold compact
  rw [String.toList_ofList, String.toList_ofList, casefold_intercalate hfolds]
  refine spaced_intercalate fun w hw => ?_
  obtain ⟨v, hv, rfl⟩ := List.mem_map.mp hw
  obtain ⟨hne, hword⟩ := mem_split hv
  constructor
  · obtain ⟨c, rest, rfl⟩ := List.exists_cons_of_ne_nil hne
    rw [List.flatMap_cons]
    exact fun h => (hfolds.word c (hword c List.mem_cons_self)).1 (List.append_eq_nil_iff.mp h).1
  · intro d hd
    obtain ⟨c, hc, hdc⟩ := List.mem_flatMap.mp hd
    exact (hfolds.word c (hword c hc)).2 d hdc

/-- **A saved tag is normal.** -/
theorem plain_normalizeTag (rawTag : String) :
    strip (normalizeTag rawTag) = normalizeTag rawTag ∧ Plain (normalizeTag rawTag) := by
  have hspaced := spaced_normalizeTag hfolds rawTag
  have hstrip : strip (normalizeTag rawTag) = normalizeTag rawTag := by
    have h := strip_eq_self hspaced.tidy.head hspaced.tidy.last
    rwa [String.ofList_toList] at h
  have hcompact : compact (normalizeTag rawTag) = normalizeTag rawTag := by
    have h := compact_of_spaced hspaced
    rwa [String.ofList_toList] at h
  refine ⟨hstrip, ?_, ?_⟩
  · rw [hstrip, hcompact]
  · rw [hstrip]
    exact casefold_casefold hfolds _

/-- **The tag that is looked for** is saved exactly if it is normal. -/
theorem strip_mem_parseManualTags {s value : String} (hone : OneTag s)
    (hitem : ∃ rawTag ∈ splitTags value, strip rawTag = strip s) :
    strip s ∈ parseManualTags value ↔ Plain s := by
  rw [mem_parseManualTags]
  constructor
  · rintro ⟨-, rawTag, -, hnormal⟩
    obtain ⟨-, hplain⟩ := plain_normalizeTag hfolds rawTag
    have hstrip := (plain_normalizeTag hfolds rawTag).1
    rw [hnormal] at hplain hstrip
    unfold Plain at hplain ⊢
    rwa [hstrip] at hplain
  · rintro ⟨hcompact, hcasefold⟩
    obtain ⟨rawTag, hraw, hstrip⟩ := hitem
    refine ⟨hone.strip_ne, rawTag, hraw, ?_⟩
    rw [normalizeTag, hstrip, hcompact, hcasefold]

end Folding

end Tags

/-! ## Lists -/

section Lists

variable {db : Db} {limit : ℕ}

theorem normalizeOptionalText_some {s : String} (h : strip s ≠ "") :
    normalizeOptionalText (some s) = some (strip s) := by
  simp [normalizeOptionalText, h]

/-- A page that has room for everybody shows who passes the filters. -/
theorem mem_adminPeople (hfit : (peopleRows db none none false).length ≤ limit)
    {manualTag relationshipLabel : Option String} {personId : Ident} :
    personId ∈ (adminPeople db limit manualTag relationshipLabel).map (·.id) ↔
      ∃ row ∈ peopleRows db manualTag relationshipLabel false, row.1.id = personId := by
  have hfewer : (peopleRows db manualTag relationshipLabel false).length ≤ limit := by
    refine (List.Sublist.length_le ?_).trans hfit
    refine List.monotone_filter_right _ fun row h => ?_
    simp only [Bool.and_eq_true] at h ⊢
    exact ⟨⟨rfl, rfl⟩, h.2⟩
  simp only [adminPeople, getPeopleData, List.map_map, List.mem_map, Table.mem_page hfewer,
    Function.comp_apply, personItem]

/-- And the same for the chats, where the page is filtered. -/
theorem mem_adminChats (hfit : (chatRows db).length ≤ limit) {s : String} (hs : strip s ≠ "")
    {chatId : Ident} : chatId ∈ (adminChats db limit (some s)).map (·.id) ↔
      ∃ row ∈ chatRows db, strip s ∈ labelsOf row.2 ∧ row.1.id = chatId := by
  have hshown : ∀ labels : List String,
      (normalizeStringList (normalizeStringList labels)).contains (strip s) = true ↔
        strip s ∈ labels := by
    intro labels
    simp [normalizeStringList, hs]
  simp only [adminChats, normalizeOptionalText_some hs, getChatData, List.mem_map,
    List.mem_filter, Table.mem_page hfit]
  constructor
  · rintro ⟨item, ⟨⟨row, hrow, rfl⟩, hlabel⟩, rfl⟩
    exact ⟨row, hrow, (hshown _).mp hlabel, rfl⟩
  · rintro ⟨row, hrow, hlabel, rfl⟩
    exact ⟨_, ⟨⟨row, hrow, rfl⟩, (hshown _).mpr hlabel⟩, rfl⟩

end Lists

/-! ## Saving -/

section Saving

/-- All annotations of the key have the labels, and there is one. -/
structure Labelled {κ : Type} (rows : List RelationshipAnnotation)
    (key : RelationshipAnnotation → κ) (k : κ) (labels : List String) : Prop where
  all : ∀ ra ∈ rows, key ra = k → ra.labels = labels
  one : ∃ ra ∈ rows, key ra = k

theorem labelled_upsert {κ : Type} [DecidableEq κ] {key : RelationshipAnnotation → κ}
    {labels : List String} {note : Option String} {now : Timestamp}
    (hkey : ∀ row, key (annotated labels note now row) = key row)
    {fresh : RelationshipAnnotation} (hfresh : fresh.labels = labels)
    (rows : List RelationshipAnnotation) :
    Labelled (Table.upsert key (annotated labels note now) fresh rows) key (key fresh) labels where
  all ra hra heq := by
    rcases Table.mem_upsert hra with ⟨-, hne⟩ | ⟨old, -, -, rfl⟩ | ⟨-, rfl⟩
    · exact absurd heq hne
    · rfl
    · exact hfresh
  one := by
    by_cases hmem : key fresh ∈ rows.map key
    · obtain ⟨old, hold, heq⟩ := List.mem_map.mp hmem
      exact ⟨_, Table.mem_upsert_of_eq hold heq, (hkey old).trans heq⟩
    · exact ⟨fresh, Table.fresh_mem_upsert hmem, rfl⟩

/-- The person is not the owner. -/
def Db.NotOwner (db : Db) (personId : Ident) : Prop :=
  ∀ p ∈ db.person, p.id = personId → p.isOwner = false

variable [CharData] {db db' : Db} {personId chatId : Ident} {now : Timestamp} {path : String}

/-- What a form with the tags of a person does, if it is accepted. -/
theorem adminPersonAnnotations_ok {form : PersonAnnotationsForm} {redirect : Redirect}
    (h : adminPersonAnnotations db personId form now = .ok (redirect, db')) :
    (redirect.flash = "owner_profile_readonly" ∧ db' = db) ∨
      (∃ p ∈ db.person, p.id = personId) ∧ db' = { db with
        person := Table.update (fun p => decide (p.id = personId))
          (fun p => { p with
            manualTags := parseManualTags form.manualTags
            notes := normalizeOptionalText (some form.notes)
            updatedAt := now }) db.person } := by
  unfold adminPersonAnnotations at h
  cases howner : getOwnerPersonId db with
  | error e =>
    rw [howner] at h
    cases h
  | ok ownerPersonId =>
    rw [howner] at h
    by_cases hself : personId = ownerPersonId
    · simp only [bind, Except.bind, if_pos hself, pure, Except.pure] at h
      obtain ⟨rfl, rfl⟩ := Prod.mk.inj (Except.ok.inj h)
      exact .inl ⟨rfl, rfl⟩
    · simp only [bind, Except.bind, if_neg hself, updatePersonAnnotations] at h
      split_ifs at h with hcount
      obtain ⟨-, rfl⟩ := Prod.mk.inj (Except.ok.inj h)
      have hpos : 0 < db.person.countP (·.id = personId) := by omega
      obtain ⟨p, hp, hid⟩ := List.countP_pos_iff.mp hpos
      exact .inr ⟨⟨p, hp, of_decide_eq_true hid⟩, rfl⟩

/-- What a form with the labels of a person does, if it is accepted. -/
theorem adminPersonRelationshipAnnotation_ok {form : RelationshipAnnotationForm}
    {redirect : Redirect}
    (h : adminPersonRelationshipAnnotation db personId form now = .ok (redirect, db')) :
    (redirect.flash = "owner_profile_readonly" ∧ db' = db) ∨
      ∃ owner, getOwnerProfileRecord db = some owner ∧ (∃ p ∈ db.person, p.id = personId) ∧
        db' = { db with
          relationshipAnnotation := Table.upsert (fun row => (row.ownerProfileId, row.personId))
            (annotated (parseManualTags form.relationshipLabels)
              (normalizeOptionalText (some form.relationshipNote)) now)
            ⟨owner.id, some personId, none, parseManualTags form.relationshipLabels,
              normalizeOptionalText (some form.relationshipNote), now⟩
            db.relationshipAnnotation } := by
  unfold adminPersonRelationshipAnnotation at h
  cases howner : getOwnerPersonId db with
  | error e =>
    rw [howner] at h
    cases h
  | ok ownerPersonId =>
    rw [howner] at h
    by_cases hself : personId = ownerPersonId
    · simp only [bind, Except.bind, if_pos hself, pure, Except.pure] at h
      obtain ⟨rfl, rfl⟩ := Prod.mk.inj (Except.ok.inj h)
      exact .inl ⟨rfl, rfl⟩
    · simp only [bind, Except.bind, if_neg hself, updatePersonRelationshipAnnotation,
        getCurrentOwnerProfileId] at h
      cases hprofile : getOwnerProfileRecord db with
      | none =>
        rw [hprofile] at h
        cases h
      | some owner =>
        rw [hprofile] at h
        dsimp only at h
        split_ifs at h with hmem
        obtain ⟨-, rfl⟩ := Prod.mk.inj (Except.ok.inj h)
        exact .inr ⟨owner, rfl, List.mem_map.mp hmem, rfl⟩

/-- What a form with the labels of a chat does, if it is accepted. -/
theorem adminChatRelationshipAnnotation_ok {form : RelationshipAnnotationForm}
    {redirect : Redirect}
    (h : adminChatRelationshipAnnotation db chatId form now = .ok (redirect, db')) :
    ∃ owner, getOwnerProfileRecord db = some owner ∧ (∃ c ∈ db.chat, c.id = chatId) ∧
      db' = { db with
        relationshipAnnotation := Table.upsert (fun row => (row.ownerProfileId, row.chatId))
          (annotated (parseManualTags form.relationshipLabels)
            (normalizeOptionalText (some form.relationshipNote)) now)
          ⟨owner.id, none, some chatId, parseManualTags form.relationshipLabels,
            normalizeOptionalText (some form.relationshipNote), now⟩
          db.relationshipAnnotation } := by
  unfold adminChatRelationshipAnnotation at h
  simp only [bind, Except.bind, updateChatRelationshipAnnotation, getCurrentOwnerProfileId] at h
  cases hprofile : getOwnerProfileRecord db with
  | none =>
    rw [hprofile] at h
    cases h
  | some owner =>
    rw [hprofile] at h
    dsimp only at h
    split_ifs at h with hmem
    obtain ⟨-, rfl⟩ := Prod.mk.inj (Except.ok.inj h)
    exact ⟨owner, rfl, List.mem_map.mp hmem, rfl⟩

/-- After the tags have been saved. -/
theorem adminPersonAnnotations_saved {form : PersonAnnotationsForm} (hnot : db.NotOwner personId)
    (h : adminPersonAnnotations db personId form now =
      .ok (⟨path, "person_annotations_saved"⟩, db')) :
    (∀ p ∈ db'.person, p.id = personId → p.manualTags = parseManualTags form.manualTags) ∧
      ∃ p ∈ db'.person, p.id = personId ∧ p.isOwner = false := by
  rcases adminPersonAnnotations_ok h with ⟨hflash, -⟩ | ⟨⟨p, hp, hid⟩, rfl⟩
  · have hother : "person_annotations_saved" = "owner_profile_readonly" := hflash
    exact absurd hother (by decide)
  · constructor
    · intro p hp hid
      obtain ⟨old, -, rfl⟩ := Table.mem_update.mp hp
      split_ifs at hid ⊢ with hupdated
      · rfl
      · exact absurd (decide_eq_true hid) hupdated
    · refine ⟨_, Table.mem_update.mpr ⟨p, hp, rfl⟩, ?_⟩
      rw [if_pos (decide_eq_true hid)]
      exact ⟨hid, hnot p hp hid⟩

/-- After the labels of a person have been saved. -/
theorem adminPersonRelationshipAnnotation_saved {form : RelationshipAnnotationForm}
    (hnot : db.NotOwner personId)
    (h : adminPersonRelationshipAnnotation db personId form now =
      .ok (⟨path, "relationship_annotation_saved"⟩, db')) :
    (∃ p ∈ db'.person, p.id = personId ∧ p.isOwner = false) ∧
      ∃ owner, getOwnerProfileRecord db' = some owner ∧
        Labelled db'.relationshipAnnotation (fun ra => (ra.ownerProfileId, ra.personId))
          (owner.id, some personId) (parseManualTags form.relationshipLabels) := by
  rcases adminPersonRelationshipAnnotation_ok h with
    ⟨hflash, -⟩ | ⟨owner, howner, ⟨p, hp, hid⟩, rfl⟩
  · have hother : "relationship_annotation_saved" = "owner_profile_readonly" := hflash
    exact absurd hother (by decide)
  · exact ⟨⟨p, hp, hid, hnot p hp hid⟩, owner, howner, labelled_upsert (fun _ => rfl) rfl _⟩

/-- After the labels of a chat have been saved. -/
theorem adminChatRelationshipAnnotation_saved {form : RelationshipAnnotationForm}
    (h : adminChatRelationshipAnnotation db chatId form now =
      .ok (⟨path, "relationship_annotation_saved"⟩, db')) :
    (∃ c ∈ db'.chat, c.id = chatId) ∧
      ∃ owner, getOwnerProfileRecord db' = some owner ∧
        Labelled db'.relationshipAnnotation (fun ra => (ra.ownerProfileId, ra.chatId))
          (owner.id, some chatId) (parseManualTags form.relationshipLabels) := by
  obtain ⟨owner, howner, hchat, rfl⟩ := adminChatRelationshipAnnotation_ok h
  exact ⟨hchat, owner, howner, labelled_upsert (fun _ => rfl) rfl _⟩

end Saving

/-! ## Finding -/

/-- The labels in a join, if all annotations of a row have the same. -/
theorem exists_labels_leftJoin {ρ : Type} {on : ρ → RelationshipAnnotation → Bool} {rows : List ρ}
    {annotations : List RelationshipAnnotation} {r : ρ} {labels : List String} {x : String}
    (hall : ∀ ra ∈ annotations, on r ra = true → ra.labels = labels)
    (hone : ∃ ra ∈ annotations, on r ra = true) :
    (∃ o, (r, o) ∈ Table.leftJoin on rows annotations ∧ x ∈ labelsOf o) ↔
      r ∈ rows ∧ x ∈ labels := by
  constructor
  · rintro ⟨_ | ra, hrow, hx⟩
    · cases hx
    · obtain ⟨hr, hra, hon⟩ := Table.mem_leftJoin_some.mp hrow
      exact ⟨hr, hall ra hra hon ▸ hx⟩
  · rintro ⟨hr, hx⟩
    obtain ⟨ra, hra, hon⟩ := hone
    refine ⟨some ra, Table.mem_leftJoin_some.mpr ⟨hr, hra, hon⟩, ?_⟩
    rwa [← hall ra hra hon] at hx

section Finding

variable {db : Db} {limit : ℕ} {s : String} {labels : List String}

/-- The labels of a person, in the rows of the query, -/
theorem exists_labels_peopleJoined {p : Person} {owner : OwnerProfile}
    (howner : getOwnerProfileRecord db = some owner)
    (h : Labelled db.relationshipAnnotation (fun ra => (ra.ownerProfileId, ra.personId))
      (owner.id, some p.id) labels) {x : String} :
    (∃ o, (p, o) ∈ peopleJoined db ∧ x ∈ labelsOf o) ↔ p ∈ db.person ∧ x ∈ labels := by
  refine exists_labels_leftJoin (fun ra hra hon => h.all ra hra ?_) ?_
  · simpa [howner] using hon
  · obtain ⟨ra, hra, hkey⟩ := h.one
    exact ⟨ra, hra, by simpa [howner] using hkey⟩

/-- and those of a chat. -/
theorem exists_labels_chatRows {c : Chat} {owner : OwnerProfile}
    (howner : getOwnerProfileRecord db = some owner)
    (h : Labelled db.relationshipAnnotation (fun ra => (ra.ownerProfileId, ra.chatId))
      (owner.id, some c.id) labels) {x : String} :
    (∃ o, (c, o) ∈ chatRows db ∧ x ∈ labelsOf o) ↔ c ∈ db.chat ∧ x ∈ labels := by
  refine exists_labels_leftJoin (fun ra hra hon => h.all ra hra ?_) ?_
  · simpa [howner] using hon
  · obtain ⟨ra, hra, hkey⟩ := h.one
    exact ⟨ra, hra, by simpa [howner] using hkey⟩

/-- A person whose tags are these is found by one of them. -/
theorem found_by_tag {personId : Ident} {tags : List String} (hs : strip s ≠ "")
    (htags : ∀ p ∈ db.person, p.id = personId → p.manualTags = tags)
    (hperson : ∃ p ∈ db.person, p.id = personId ∧ p.isOwner = false)
    (hfit : (peopleRows db none none false).length ≤ limit) :
    personId ∈ (adminPeople db limit (some s) none).map (·.id) ↔ strip s ∈ tags := by
  rw [mem_adminPeople hfit]
  simp only [peopleRows, List.mem_filter, normalizeOptionalText_some hs, Option.all_some,
    Bool.and_eq_true, List.contains_iff_mem]
  constructor
  · rintro ⟨row, ⟨hrow, ⟨htag, -⟩, -⟩, hid⟩
    rwa [htags row.1 (Table.mem_of_mem_leftJoin hrow) hid] at htag
  · intro htag
    obtain ⟨p, hp, hid, hnot⟩ := hperson
    obtain ⟨o, hrow⟩ := Table.exists_mem_leftJoin hp
    exact ⟨(p, o), ⟨hrow, ⟨(htags p hp hid).symm ▸ htag, rfl⟩, by simp [hnot]⟩, hid⟩

/-- A person whose labels are these is found by one of them, -/
theorem found_by_label {personId : Ident} {owner : OwnerProfile} (hs : strip s ≠ "")
    (howner : getOwnerProfileRecord db = some owner)
    (hlabels : Labelled db.relationshipAnnotation (fun ra => (ra.ownerProfileId, ra.personId))
      (owner.id, some personId) labels)
    (hperson : ∃ p ∈ db.person, p.id = personId ∧ p.isOwner = false)
    (hfit : (peopleRows db none none false).length ≤ limit) :
    personId ∈ (adminPeople db limit none (some s)).map (·.id) ↔ strip s ∈ labels := by
  rw [mem_adminPeople hfit]
  simp only [peopleRows, List.mem_filter, normalizeOptionalText_some hs, Option.all_some,
    Bool.and_eq_true, List.contains_iff_mem]
  constructor
  · rintro ⟨⟨p, o⟩, ⟨hrow, ⟨-, hlabel⟩, -⟩, rfl⟩
    exact ((exists_labels_peopleJoined howner hlabels).mp ⟨o, hrow, hlabel⟩).2
  · intro hlabel
    obtain ⟨p, hp, rfl, hnot⟩ := hperson
    obtain ⟨o, hrow, ho⟩ := (exists_labels_peopleJoined howner hlabels).mpr ⟨hp, hlabel⟩
    exact ⟨(p, o), ⟨hrow, ⟨rfl, ho⟩, by simp [hnot]⟩, rfl⟩

/-- and so is a chat. -/
theorem chat_found_by_label {chatId : Ident} {owner : OwnerProfile} (hs : strip s ≠ "")
    (howner : getOwnerProfileRecord db = some owner)
    (hlabels : Labelled db.relationshipAnnotation (fun ra => (ra.ownerProfileId, ra.chatId))
      (owner.id, some chatId) labels)
    (hchat : ∃ c ∈ db.chat, c.id = chatId) (hfit : (chatRows db).length ≤ limit) :
    chatId ∈ (adminChats db limit (some s)).map (·.id) ↔ strip s ∈ labels := by
  rw [mem_adminChats hfit hs]
  constructor
  · rintro ⟨⟨c, o⟩, hrow, hlabel, rfl⟩
    exact ((exists_labels_chatRows howner hlabels).mp ⟨o, hrow, hlabel⟩).2
  · intro hlabel
    obtain ⟨c, hc, rfl⟩ := hchat
    obtain ⟨o, hrow, ho⟩ := (exists_labels_chatRows howner hlabels).mpr ⟨hc, hlabel⟩
    exact ⟨(c, o), hrow, ho, rfl⟩

end Finding

section Found

variable [CharData] (db db' : Db) (limit : ℕ) (now : Timestamp) (path : String)

/-- **Found by what was typed.**  After one of the three forms has been saved with `s` among
the items of its text, the person or the chat is in the list that is filtered by `s` exactly
if `s` is normal but for whitespace around it. -/
theorem found_iff_plain (hfolds : Folds) {s value : String} (hone : OneTag s)
    (hitem : ∃ rawTag ∈ splitTags value, strip rawTag = strip s) :
    (∀ personId (form : PersonAnnotationsForm), form.manualTags = value →
        adminPersonAnnotations db personId form now =
          .ok (⟨path, "person_annotations_saved"⟩, db') →
        db.NotOwner personId → (peopleRows db' none none false).length ≤ limit →
        (personId ∈ (adminPeople db' limit (some s) none).map (·.id) ↔ Plain s)) ∧
    (∀ personId (form : RelationshipAnnotationForm), form.relationshipLabels = value →
        adminPersonRelationshipAnnotation db personId form now =
          .ok (⟨path, "relationship_annotation_saved"⟩, db') →
        db.NotOwner personId → (peopleRows db' none none false).length ≤ limit →
        (personId ∈ (adminPeople db' limit none (some s)).map (·.id) ↔ Plain s)) ∧
    (∀ chatId (form : RelationshipAnnotationForm), form.relationshipLabels = value →
        adminChatRelationshipAnnotation db chatId form now =
          .ok (⟨path, "relationship_annotation_saved"⟩, db') →
        (chatRows db').length ≤ limit →
        (chatId ∈ (adminChats db' limit (some s)).map (·.id) ↔ Plain s)) := by
  have hplain := strip_mem_parseManualTags hfolds hone hitem
  refine ⟨?_, ?_, ?_⟩
  · rintro personId form rfl hsaved hnot hfit
    obtain ⟨htags, hperson⟩ := adminPersonAnnotations_saved hnot hsaved
    rw [← hplain]
    exact found_by_tag hone.strip_ne htags hperson hfit
  · rintro personId form rfl hsaved hnot hfit
    obtain ⟨hperson, owner, howner, hlabels⟩ :=
      adminPersonRelationshipAnnotation_saved hnot hsaved
    rw [← hplain]
    exact found_by_label hone.strip_ne howner hlabels hperson hfit
  · rintro chatId form rfl hsaved hfit
    obtain ⟨hchat, owner, howner, hlabels⟩ := adminChatRelationshipAnnotation_saved hsaved
    rw [← hplain]
    exact chat_found_by_label hone.strip_ne howner hlabels hchat hfit

end Found

/-- The owner, a colleague and a chat. -/
def office : Db where
  person := [{ id := 1, displayName := "Owner", isOwner := true, createdAt := 0, updatedAt := 0 },
    { id := 2, displayName := "Maria", createdAt := 0, updatedAt := 0 }]
  chat := [{ id := 3, tgChatId := 7, kind := .group, updatedAt := 0 }]
  ownerProfile := [⟨4, some 1, 0⟩]

def typed : RelationshipAnnotationForm := { relationshipLabels := "Коллега, frontier" }

/-- What is saved of it. -/
def savedLabels (personId chatId : Option Ident) : RelationshipAnnotation :=
  ⟨4, personId, chatId, ["коллега", "frontier"], none, 0⟩

/-- The persons once the tags of the colleague are saved. -/
def taggedPersons : List Person :=
  [{ id := 1, displayName := "Owner", isOwner := true, createdAt := 0, updatedAt := 0 },
    { id := 2, displayName := "Maria", manualTags := ["коллега", "frontier"], createdAt := 0
      updatedAt := 0 }]

/-- The second item, saved by each of the forms. -/
theorem found_frontier :
    let _ := basicCharData
    2 ∈ (adminPeople { office with person := taggedPersons } 50 (some "frontier") none).map (·.id) ∧
    2 ∈ (adminPeople { office with relationshipAnnotation := [savedLabels (some 2) none] } 50 none
        (some "frontier")).map (·.id) ∧
      3 ∈ (adminChats { office with relationshipAnnotation := [savedLabels none (some 3)] } 50
        (some "frontier")).map (·.id) := by
  let _ := basicCharData
  have hone : OneTag "frontier" :=
    ⟨List.all_iff_forall_prop.mp (by decide), "frontier", by decide⟩
  have hitem : ∃ rawTag ∈ splitTags "Коллега, frontier", strip rawTag = strip "frontier" :=
    ⟨" frontier", by decide, by decide⟩
  have hplain : Plain "frontier" := ⟨by decide, by decide⟩
  have hnot : office.NotOwner 2 := by
    intro p hp hid
    revert p
    decide
  refine ⟨?_, ?_, ?_⟩
  · exact ((found_iff_plain office _ 50 0 "/admin/people" folds_basicCharData hone hitem).1 2
      { manualTags := "Коллега, frontier" } rfl (by decide +kernel) hnot (by decide)).mpr hplain
  · exact ((found_iff_plain office _ 50 0 "/admin/people" folds_basicCharData hone hitem).2.1 2
      typed rfl (by decide +kernel) hnot (by decide)).mpr hplain
  · exact ((found_iff_plain office _ 50 0 "/admin/people" folds_basicCharData hone hitem).2.2 3
      typed rfl (by decide +kernel) (by decide)).mpr hplain

/-- The first item: its capital letter is not saved. -/
theorem not_found_capital :
    let _ := basicCharData
    OneTag "Коллега" ∧ "Коллега" ∈ splitTags typed.relationshipLabels ∧ office.NotOwner 2 ∧
      ∃ db', adminPersonRelationshipAnnotation office 2 typed 0 =
          .ok (⟨"/admin/people", "relationship_annotation_saved"⟩, db') ∧
        (peopleRows db' none none false).length ≤ 50 ∧
        2 ∉ (adminPeople db' 50 none (some "Коллега")).map (·.id) := by
  intro _
  refine ⟨⟨List.all_iff_forall_prop.mp (by decide), "коллега", by decide⟩,
    by decide, ?_,
    { office with relationshipAnnotation := [savedLabels (some 2) none] }, by decide +kernel,
    by decide +kernel, by decide⟩
  intro p hp hid
  revert p
  decide

end Admin
end PersonalIntelligence
