import PersonalIntelligence.Persona.Aggregator
import Mathlib.Data.Finset.Card
import Mathlib.Data.Finset.SDiff

/-!
# What a profile list keeps

`_merge_list` appends what a batch names and the list does not have (`mergeLoop_eq`) and keeps
the end of that.  An item that the list has already is not moved to the end: whether it is kept
depends on where it stands and on how many items are new (`KeepsNew.old`), whether or not the
batch names it.

What is said of lists that merges lead to is said of profiles: in every run of updates, the
lists of every profile come from merges (`profiled_runUpdates`).
-/

namespace PersonalIntelligence
namespace Persona

open PyText

/-! ## Slices -/

section Slices

variable {α : Type}

theorem sliceFrom_neg (xs : List α) {n : ℤ} (hn : 1 ≤ n) :
    sliceFrom xs (-n) = xs.rtake n.toNat := by
  rw [sliceFrom, if_pos (by omega), show (-n).natAbs = n.toNat by omega]

theorem sliceFrom_sublist (xs : List α) (i : ℤ) : (sliceFrom xs i).Sublist xs := by
  unfold sliceFrom
  split_ifs
  · exact List.drop_sublist _ xs
  · exact List.drop_sublist _ xs

theorem length_rtake (xs : List α) (n : ℕ) : (xs.rtake n).length = min n xs.length := by
  rw [List.rtake, List.length_drop]
  omega

/-- Which items are at the end of a list. -/
theorem mem_rtake_iff {before after : List α} {x : α} (hnodup : (before ++ x :: after).Nodup)
    (n : ℕ) : x ∈ (before ++ x :: after).rtake n ↔ after.length < n := by
  have hlength : (before ++ x :: after).length = before.length + after.length + 1 := by
    simp [Nat.add_assoc]
  rw [List.rtake, hlength]
  constructor
  · intro hmem
    by_contra hlt
    have hdrop : before.length + after.length + 1 - n =
        (before ++ [x]).length + (after.length - n) := by
      simp only [List.length_append, List.length_singleton]
      omega
    have hsplit : before ++ x :: after = before ++ [x] ++ after := by
      rw [List.append_assoc, List.singleton_append]
    rw [hsplit, hdrop, List.drop_length_add_append] at hmem
    have hafter : x ∉ after :=
      (List.nodup_cons.mp (List.nodup_append.mp hnodup).2.1).1
    exact hafter (List.mem_of_mem_drop hmem)
  · intro hlt
    rw [List.drop_append_of_le_length (by omega)]
    exact List.mem_append_right _ List.mem_cons_self

end Slices

section Lists

variable [CaseData]

/-! ## What a batch adds -/

/-- The items that a batch names, each in the form in which it is kept. -/
def named (batch : List String) : Finset String := (batch.map normalForm).toFinset.erase ""

theorem mem_named {batch : List String} {x : String} :
    x ∈ named batch ↔ x ≠ "" ∧ ∃ item ∈ batch, normalForm item = x := by
  rw [named, Finset.mem_erase, List.mem_toFinset, List.mem_map]

theorem mem_named_cons {item : String} {rest : List String} {x : String} :
    x ∈ named (item :: rest) ↔ (x ≠ "" ∧ x = normalForm item) ∨ x ∈ named rest := by
  simp only [mem_named, List.exists_mem_cons_iff]
  rw [and_or_left, eq_comm]

/-- The loop appends what is named and has not been seen, each item once. -/
theorem mergeLoop_eq : ∀ (new : List String) (seen : Finset String) (merged : List String),
    ∃ fresh, mergeLoop new seen merged = merged ++ fresh ∧ fresh.Nodup ∧
      fresh.toFinset = named new \ seen
  | [], seen, merged => ⟨[], (List.append_nil merged).symm, List.nodup_nil, by simp [named]⟩
  | item :: rest, seen, merged => by
    rw [mergeLoop]
    split_ifs with hnew
    · obtain ⟨fresh, heq, hnodup, hfresh⟩ :=
        mergeLoop_eq rest (insert (normalForm item) seen) (merged ++ [normalForm item])
      have hmem : ∀ x, x ∈ fresh ↔ x ∈ named rest ∧ x ∉ insert (normalForm item) seen := by
        intro x
        rw [← List.mem_toFinset, hfresh, Finset.mem_sdiff]
      refine ⟨normalForm item :: fresh, by rw [heq, List.append_assoc, List.singleton_append],
        List.nodup_cons.mpr ⟨?_, hnodup⟩, ?_⟩
      · intro h
        exact ((hmem _).mp h).2 (Finset.mem_insert_self _ _)
      · ext x
        rw [List.mem_toFinset, List.mem_cons, hmem, Finset.mem_sdiff, mem_named_cons,
          Finset.mem_insert, not_or]
        constructor
        · rintro (rfl | ⟨hnamed, -, hseen⟩)
          · exact ⟨.inl ⟨hnew.1, rfl⟩, hnew.2⟩
          · exact ⟨.inr hnamed, hseen⟩
        · rintro ⟨⟨-, hx⟩ | hnamed, hseen⟩
          · exact .inl hx
          · exact or_iff_not_imp_left.mpr fun hx => ⟨hnamed, hx, hseen⟩
    · obtain ⟨fresh, heq, hnodup, hfresh⟩ := mergeLoop_eq rest seen merged
      refine ⟨fresh, heq, hnodup, ?_⟩
      rw [hfresh]
      ext x
      rw [Finset.mem_sdiff, Finset.mem_sdiff, mem_named_cons]
      -- What is not appended names nothing, or has been seen.
      refine and_congr_left fun hseen => ⟨.inr, fun h => h.resolve_left ?_⟩
      rintro ⟨hx, rfl⟩
      exact hnew ⟨hx, hseen⟩

/-! ## What every list satisfies -/

/-- An item is stripped, in lower case and not empty. -/
structure Normal (x : String) : Prop where
  nonempty : x ≠ ""
  stripped : strip x = x
  lower : lowerCase x = x

/-- The invariant of a profile list. -/
structure Kept (list : List String) : Prop where
  nodup : list.Nodup
  normal : ∀ x ∈ list, Normal x

theorem normal_of_mem_named (hlower : Lowers) {batch : List String} {x : String}
    (h : x ∈ named batch) : Normal x := by
  obtain ⟨hne, item, -, rfl⟩ := mem_named.mp h
  exact ⟨hne, strip_strip _, lowerCase_strip hlower item⟩

/-- With what is new the list is still one of distinct items. -/
theorem kept_append (hlower : Lowers) {existing batch fresh : List String} (h : Kept existing)
    (hnodup : fresh.Nodup) (hfresh : fresh.toFinset = named batch \ existing.toFinset) :
    Kept (existing ++ fresh) := by
  have hmem : ∀ x ∈ fresh, x ∈ named batch ∧ x ∉ existing := by
    intro x hx
    rw [← List.mem_toFinset, hfresh, Finset.mem_sdiff, List.mem_toFinset] at hx
    exact hx
  constructor
  · refine List.nodup_append'.mpr ⟨h.nodup, hnodup, ?_⟩
    exact fun x hx hx' => (hmem x hx').2 hx
  · intro x hx
    rcases List.mem_append.mp hx with hx | hx
    · exact h.normal x hx
    · exact normal_of_mem_named hlower (hmem x hx).1

theorem Kept.sublist {list list' : List String} (h : Kept list) (hsub : list'.Sublist list) :
    Kept list' :=
  ⟨h.nodup.sublist hsub, fun x hx => h.normal x (hsub.mem hx)⟩

theorem Kept.mergeList (hlower : Lowers) {existing : List String} (h : Kept existing)
    (batch : List String) (maxLen : ℤ) : Kept (mergeList existing batch maxLen) := by
  obtain ⟨fresh, heq, hnodup, hfresh⟩ := mergeLoop_eq batch existing.toFinset existing
  rw [Persona.mergeList, heq]
  exact (kept_append hlower h hnodup hfresh).sublist (sliceFrom_sublist _ _)

/-- The lists that calls of `_merge_list` lead to, with any batches and limits. -/
inductive Reachable : List String → Prop
  | empty : Reachable []
  | merge {list : List String} (h : Reachable list) (batch : List String) (maxLen : ℤ) :
      Reachable (mergeList list batch maxLen)

theorem Reachable.kept (hlower : Lowers) {list : List String} (h : Reachable list) :
    Kept list := by
  induction h with
  | empty => exact ⟨List.nodup_nil, by simp⟩
  | merge _ batch maxLen ih => exact ih.mergeList hlower batch maxLen

/-! ## What is kept -/

/-- What a merge makes of a list. -/
structure KeepsNew (existing batch : List String) (maxLen : ℤ) (result : List String) : Prop where
  kept : Kept result
  length_le : result.length ≤ maxLen
  /-- What a batch names that fits and is new to the list is in it afterwards. -/
  new : (named batch).card ≤ maxLen → ∀ x ∈ named batch, x ∉ existing → x ∈ result
  /-- What the list had stays if not too much stands behind it or is new. -/
  old : ∀ before x after, existing = before ++ x :: after →
    (x ∈ result ↔ after.length + (named batch \ existing.toFinset).card < maxLen)

/-- **A capped list** is one of distinct items in their normal form, within its limit, with
everything that was new in the last batch; of what it had before it keeps the end. -/
theorem mergeList_keepsNew (hlower : Lowers) {existing : List String} (h : Reachable existing)
    (batch : List String) {maxLen : ℤ} (hmax : 1 ≤ maxLen) :
    KeepsNew existing batch maxLen (mergeList existing batch maxLen) := by
  have hkept := h.kept hlower
  obtain ⟨fresh, heq, hnodup, hfresh⟩ := mergeLoop_eq batch existing.toFinset existing
  have hwhole := kept_append hlower hkept hnodup hfresh
  have hcard : fresh.length = (named batch \ existing.toFinset).card := by
    rw [← hfresh, List.toFinset_card_of_nodup hnodup]
  have hmerge : mergeList existing batch maxLen = (existing ++ fresh).rtake maxLen.toNat := by
    rw [mergeList, heq, sliceFrom_neg _ hmax]
  refine ⟨hkept.mergeList hlower batch maxLen, ?_, ?_, ?_⟩
  · rw [hmerge, length_rtake]
    omega
  · intro hfits x hx hnew
    have hmem : x ∈ fresh := by
      rw [← List.mem_toFinset, hfresh, Finset.mem_sdiff, List.mem_toFinset]
      exact ⟨hx, hnew⟩
    obtain ⟨before, after, rfl⟩ := List.append_of_mem hmem
    have hle : (named batch \ existing.toFinset).card ≤ (named batch).card :=
      Finset.card_le_card Finset.sdiff_subset
    rw [List.length_append, List.length_cons] at hcard
    rw [hmerge]
    rw [← List.append_assoc] at hwhole ⊢
    exact (mem_rtake_iff hwhole.nodup _).mpr (by omega)
  · rintro before x after rfl
    rw [hmerge]
    have hsplit : before ++ x :: after ++ fresh = before ++ x :: (after ++ fresh) := by
      rw [List.append_assoc, List.cons_append]
    rw [hsplit] at hwhole ⊢
    rw [mem_rtake_iff hwhole.nodup, List.length_append, hcard]
    omega

/-! ## Profiles -/

/-- The lists of a profile come from merges. -/
structure Profiled (p : Person) : Prop where
  organizations : Reachable p.organizations
  topics : Reachable p.topics

section Profiles

variable {settings : Settings} {computeTrust : Ident → Timestamp → ℚ} {rows : List Person}

theorem profiled_update (h : ∀ p ∈ rows, Profiled p) (now : Timestamp) (update : Update) :
    ∀ p ∈ (updatePersonFromEvent settings computeTrust now rows update).2, Profiled p := by
  unfold updatePersonFromEvent
  split_ifs
  · split
    · exact h
    · rename_i row hrow
      have hrow := h row (List.mem_of_find?_eq_some hrow)
      exact Table.forall_update h fun p _ _ _ =>
        ⟨hrow.organizations.merge update.organizations _, hrow.topics.merge update.topics _⟩
  · exact h

/-- Updates one after another, each at its time. -/
def runUpdates (settings : Settings) (computeTrust : Ident → Timestamp → ℚ) :
    List (Timestamp × Update) → List Person → List Person
  | [], rows => rows
  | (now, update) :: rest, rows =>
    runUpdates settings computeTrust rest
      (updatePersonFromEvent settings computeTrust now rows update).2

/-- **In every run of updates** the lists of every profile come from merges. -/
theorem profiled_runUpdates (updates : List (Timestamp × Update)) (h : ∀ p ∈ rows, Profiled p) :
    ∀ p ∈ runUpdates settings computeTrust updates rows, Profiled p := by
  induction updates generalizing rows with
  | nil => exact h
  | cons first rest ih => exact ih (profiled_update h first.1 first.2)

end Profiles

end Lists

/-- A profile without items. -/
def newProfile : Person where
  id := 1
  tgUserId := some 11
  blocked := false
  organizations := []
  topics := []
  trustScore := 0
  lastInteractionAt := none
  updatedAt := 0

/-- A message of its person with two topics. -/
def twoTopics : Update where
  tgSenderId := some 11
  organizations := []
  topics := ["a", "b"]
  occurredAt := 1

/-- Two items at a limit of two, as the message leaves them, and a batch with the later of them
and a new one. -/
theorem keepsNew_of_two :
    let _ := basicCaseData
    ∃ p ∈ runUpdates { personaMaxTopics := 2 } (fun _ _ => 0) [(1, twoTopics)] [newProfile],
      p.topics = ["a", "b"] ∧ KeepsNew p.topics ["b", "c"] 2 (mergeList p.topics ["b", "c"] 2) := by
  let _ := basicCaseData
  have htopics : ∃ p ∈ runUpdates { personaMaxTopics := 2 } (fun _ _ => 0) [(1, twoTopics)]
      [newProfile], p.topics = ["a", "b"] := by decide +kernel
  obtain ⟨p, hp, htopics⟩ := htopics
  have hstart : ∀ p ∈ [newProfile], Profiled p := by
    intro p hp
    rw [List.mem_singleton.mp hp]
    exact ⟨.empty, .empty⟩
  exact ⟨p, hp, htopics, mergeList_keepsNew lowers_basicCaseData
    (profiled_runUpdates [(1, twoTopics)] hstart p hp).topics ["b", "c"] (by decide)⟩

/-- The batch names two items at a limit of two, and the one that was there first is lost. -/
theorem first_item_lost :
    let _ := basicCaseData
    let existing := mergeList [] ["a", "b"] 2
    Reachable existing ∧ (named ["a", "c"]).card = 2 ∧ "a" ∈ named ["a", "c"] ∧
      mergeList existing ["a", "c"] 2 = ["b", "c"] ∧ "a" ∉ mergeList existing ["a", "c"] 2 := by
  refine ⟨?_, ?_⟩
  · exact @Reachable.merge basicCaseData [] (@Reachable.empty basicCaseData) ["a", "b"] 2
  · decide +kernel

end Persona
end PersonalIntelligence
