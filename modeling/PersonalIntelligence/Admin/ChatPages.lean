import PersonalIntelligence.Admin.LabelFilters

/-!
# A page of chats with a label

`get_people_data` filters in the query, so a page is the first `limit` people who pass.  For
chats the query has the limit and the page is filtered: a chat with the label that is not
among the first `limit` chats is not shown, whether there is room for it or not.

The filtered page is the beginning of the page that there should be (`filter_take_prefix`), so
the two are compared by their lengths.
-/

namespace PersonalIntelligence
namespace Admin

open PyText

section Pages

variable (db : Db) (limit : ℕ) (s : String)

/-- The rows of `get_chat_data` in their order. -/
def chatList : List (Chat × Option RelationshipAnnotation) :=
  (chatRows db).insertionSort fun a b =>
    laterFirst ((windowEnds db a.1.id).max?, a.1.updatedAt)
      ((windowEnds db b.1.id).max?, b.1.updatedAt)

/-- The chat has the label. -/
def carries (row : Chat × Option RelationshipAnnotation) : Bool :=
  (labelsOf row.2).contains (strip s)

/-- The first chats with the label: the page as the people have it. -/
def labelledPage : List ChatItem :=
  (((chatList db).filter (carries s)).take limit).map (chatItem db)

/-- No chat with the label is missed. -/
structure MissesNone : Prop where
  page : adminChats db limit (some s) = labelledPage db limit s
  all : ((chatRows db).filter (carries s)).length ≤ limit →
    ∀ row ∈ chatRows db, carries s row = true → chatItem db row ∈ adminChats db limit (some s)

variable {db limit s}

theorem mem_chatList {row : Chat × Option RelationshipAnnotation} :
    row ∈ chatList db ↔ row ∈ chatRows db := List.mem_insertionSort _

theorem length_filter_chatList (p : Chat × Option RelationshipAnnotation → Bool) :
    ((chatList db).filter p).length = ((chatRows db).filter p).length :=
  ((List.perm_insertionSort _ (chatRows db)).filter p).length_eq

/-- The page is the first rows of the list, filtered. -/
theorem adminChats_eq (hs : strip s ≠ "") : adminChats db limit (some s) =
    (((chatList db).take limit).filter (carries s)).map (chatItem db) := by
  have hcarries : (fun chat : ChatItem =>
      (normalizeStringList chat.relationshipLabels).contains (strip s)) ∘ chatItem db =
        carries s := by
    funext row
    simp [carries, chatItem, normalizeStringList, hs]
  rw [adminChats, normalizeOptionalText_some hs, getChatData]
  simp only [List.filter_map, hcarries]
  rfl

theorem page_iff_length (hs : strip s ≠ "") :
    adminChats db limit (some s) = labelledPage db limit s ↔
      (((chatList db).take limit).filter (carries s)).length =
        (((chatList db).filter (carries s)).take limit).length := by
  rw [adminChats_eq hs, labelledPage]
  constructor
  · intro h
    simpa only [List.length_map] using congrArg List.length h
  · intro h
    rw [Table.filter_take_prefix.eq_of_length h]

/-- A page of the first chats with the label shows all of them if there is room. -/
theorem mem_labelledPage (hfit : ((chatRows db).filter (carries s)).length ≤ limit)
    {row : Chat × Option RelationshipAnnotation} (hrow : row ∈ chatRows db)
    (hcarries : carries s row = true) : chatItem db row ∈ labelledPage db limit s := by
  rw [labelledPage, List.take_of_length_le (by rwa [length_filter_chatList])]
  exact List.mem_map_of_mem (List.mem_filter.mpr ⟨mem_chatList.mpr hrow, hcarries⟩)

/-- **The chats with a label** are the first that have it, and all of them if they fit, exactly
if all chats of the unfiltered page have it or none after that page. -/
theorem missesNone_iff (hs : strip s ≠ "") : MissesNone db limit s ↔
    (∀ row ∈ (chatList db).take limit, carries s row = true) ∨
      ∀ row ∈ (chatList db).drop limit, carries s row = false := by
  rw [← Table.length_filter_take_eq_iff, ← page_iff_length hs]
  constructor
  · exact MissesNone.page
  · intro h
    refine ⟨h, fun hfit row hrow hcarries => ?_⟩
    rw [h]
    exact mem_labelledPage hfit hrow hcarries

end Pages

/-- Two chats, of which one has a label; chat 2 is the one written in last. -/
def twoChats (labelled : Ident) : Db where
  chat := [{ id := 1, tgChatId := 10, kind := .group, updatedAt := 1 },
    { id := 2, tgChatId := 20, kind := .group, updatedAt := 2 }]
  ownerProfile := [⟨4, some 9, 0⟩]
  relationshipAnnotation := [⟨4, none, some labelled, ["work"], none, 0⟩]

/-- There is room for one, and the other has no label. -/
theorem work_on_page_of_one : MissesNone (twoChats 2) 1 "work" :=
  (missesNone_iff (by decide)).mpr (.inl (by decide))

/-- There is room for the chat with the label, and the other one takes it. -/
theorem work_missed : strip "work" ≠ "" ∧
    ((chatRows (twoChats 1)).filter (carries "work")).length = 1 ∧
    adminChats (twoChats 1) 1 (some "work") = [] ∧
    (labelledPage (twoChats 1) 1 "work").map (·.id) = [1] ∧ ¬ MissesNone (twoChats 1) 1 "work" := by
  have hpage : adminChats (twoChats 1) 1 (some "work") = [] := by decide
  have hlabelled : (labelledPage (twoChats 1) 1 "work").map (·.id) = [1] := by decide
  refine ⟨by decide, by decide, hpage, hlabelled, fun h => ?_⟩
  rw [← h.page, hpage] at hlabelled
  cases hlabelled

end Admin
end PersonalIntelligence
