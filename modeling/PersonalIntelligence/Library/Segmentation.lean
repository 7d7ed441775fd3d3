import Mathlib.Data.List.Chain
import Mathlib.Data.Int.Basic

/-!
# Cutting a stream into segments

A stream is cut by two rules: a segment is closed when it has reached a size, and it
is closed early when the next item does not continue it.  `Cut` is the state of the
scan, the segments closed so far and the one still open; `Cut.push` reads one item.

The result of a scan is described without the scan.  `IsSegmentation` says that the
segments put together are the stream, that no rule fires inside a segment, and that
some rule fires between any two.  The scan establishes it (`isSegmentation_close`),
through the invariant `Cut.Valid`, which is the same statement with one segment
unfinished.
-/

namespace Segmentation

variable {α : Type}

/-- The length at which a segment is closed.  A segment is closed after an item has
been added to it, so a size below one acts as one. -/
def limit (size : ℤ) : ℕ := max 1 size.toNat

/-- Between the segments `w` and `w'` a rule fired: `w` was full, or the first item of
`w'` broke with the last one of `w`. -/
def Boundary (size : ℤ) (breaks : α → α → Bool) (w w' : List α) : Prop :=
  w.length = limit size ∨ ∃ a ∈ w.getLast?, ∃ b ∈ w'.head?, breaks a b = true

/-- A boundary survives more items at the end. -/
theorem Boundary.append {size : ℤ} {breaks : α → α → Bool} {w w' : List α}
    (h : Boundary size breaks w w') (t : List α) : Boundary size breaks w (w' ++ t) := by
  rcases h with h | ⟨a, ha, b, hb, hab⟩
  · exact .inl h
  · refine .inr ⟨a, ha, b, ?_, hab⟩
    rw [List.head?_append, hb]
    rfl

/-- A segment on its own: it has items, not too many, and none of them breaks with the
one before it. -/
structure IsSegment (size : ℤ) (breaks : α → α → Bool) (w : List α) : Prop where
  ne_nil : w ≠ []
  length_le : w.length ≤ limit size
  unbroken : w.IsChain fun a b => breaks a b = false

theorem limit_pos (size : ℤ) : 0 < limit size := le_max_left 1 _

/-- The segments of a stream under the two rules. -/
structure IsSegmentation (size : ℤ) (breaks : α → α → Bool) (items : List α)
    (segments : List (List α)) : Prop where
  flatten : segments.flatten = items
  segment : ∀ w ∈ segments, IsSegment size breaks w
  boundary : segments.IsChain (Boundary size breaks)

/-- The state of a scan. -/
structure Cut (α : Type) where
  /-- The finished segments. -/
  closed : List (List α) := []
  /-- The items of the segment that is still open. -/
  opened : List α := []

namespace Cut

/-- Close the open segment, if it has items. -/
def close (s : Cut α) : Cut α :=
  if s.opened = [] then s else ⟨s.closed ++ [s.opened], []⟩

/-- Add an item and close the segment if that has filled it. -/
def append (size : ℤ) (s : Cut α) (x : α) : Cut α :=
  if size ≤ (s.opened ++ [x]).length then ⟨s.closed ++ [s.opened ++ [x]], []⟩
  else ⟨s.closed, s.opened ++ [x]⟩

/-- The next item breaks with the last one of the open segment. -/
def broken (breaks : α → α → Bool) (s : Cut α) (x : α) : Bool :=
  s.opened.getLast?.any (breaks · x)

/-- Read one item. -/
def push (size : ℤ) (breaks : α → α → Bool) (s : Cut α) (x : α) : Cut α :=
  (if s.broken breaks x then s.close else s).append size x

@[simp] theorem close_nil (closed : List (List α)) : close ⟨closed, []⟩ = ⟨closed, []⟩ := rfl

@[simp] theorem close_opened (s : Cut α) : s.close.opened = [] := by
  unfold close
  split_ifs with h
  · exact h
  · rfl

@[simp] theorem close_close (s : Cut α) : s.close.close = s.close := if_pos s.close_opened

/-- The state while `items` have been read. -/
structure Valid (size : ℤ) (breaks : α → α → Bool) (items : List α) (s : Cut α) : Prop where
  items_eq : s.closed.flatten ++ s.opened = items
  segment : ∀ w ∈ s.closed, IsSegment size breaks w
  boundary : s.closed.IsChain (Boundary size breaks)
  opened_lt : s.opened.length < limit size
  unbroken : s.opened.IsChain fun a b => breaks a b = false
  seam : ∀ w ∈ s.closed.getLast?, Boundary size breaks w s.opened

variable {size : ℤ} {breaks : α → α → Bool} {items : List α} {s : Cut α}

variable (size breaks) in
theorem valid_empty : Valid size breaks ([] : List α) {} where
  items_eq := rfl
  segment := by simp
  boundary := List.isChain_nil
  opened_lt := limit_pos size
  unbroken := List.isChain_nil
  seam := by simp

/-- A segment that is not full is not closed, and one that is full is. -/
theorem length_le_limit_iff {w : List α} (hw : w ≠ []) :
    limit size ≤ w.length ↔ size ≤ w.length := by
  have hpos := List.length_pos_iff.mpr hw
  unfold limit
  omega

/-- What a scan must know about its state before the item `x` is appended: the seam
behind the open segment holds with `x` in it. -/
structure Ready (size : ℤ) (breaks : α → α → Bool) (items : List α) (s : Cut α) (x : α) :
    Prop where
  items_eq : s.closed.flatten ++ s.opened = items
  segment : ∀ w ∈ s.closed, IsSegment size breaks w
  boundary : s.closed.IsChain (Boundary size breaks)
  opened_lt : s.opened.length < limit size
  unbroken : (s.opened ++ [x]).IsChain fun a b => breaks a b = false
  seam : ∀ w ∈ s.closed.getLast?, Boundary size breaks w (s.opened ++ [x])

theorem isChain_append_segment {closed : List (List α)} {w : List α}
    (hc : closed.IsChain (Boundary size breaks))
    (hw : ∀ v ∈ closed.getLast?, Boundary size breaks v w) :
    (closed ++ [w]).IsChain (Boundary size breaks) := by
  rw [List.isChain_append]
  refine ⟨hc, List.isChain_singleton _, fun v hv u hu => ?_⟩
  cases hu
  exact hw v hv

/-- An item that continues the open segment is appended to it. -/
theorem Valid.ready_of_not_broken (h : Valid size breaks items s) {x : α}
    (hx : s.broken breaks x = false) : Ready size breaks items s x where
  items_eq := h.items_eq
  segment := h.segment
  boundary := h.boundary
  opened_lt := h.opened_lt
  unbroken := by
    rw [List.isChain_append]
    refine ⟨h.unbroken, List.isChain_singleton _, fun a ha b hb => ?_⟩
    cases hb
    unfold broken at hx
    rw [ha] at hx
    exact hx
  seam := fun w hw => (h.seam w hw).append _

/-- An item that breaks with the open segment starts a new one. -/
theorem Valid.ready_of_broken (h : Valid size breaks items s) {x : α}
    (hx : s.broken breaks x = true) : Ready size breaks items s.close x := by
  obtain ⟨a, ha, hax⟩ : ∃ a, s.opened.getLast? = some a ∧ breaks a x = true := by
    unfold broken at hx
    rwa [Option.any_eq_true] at hx
  have hne : s.opened ≠ [] := by
    intro h0
    rw [h0] at ha
    cases ha
  unfold close
  rw [if_neg hne]
  refine ⟨?_, ?_, isChain_append_segment h.boundary h.seam, ?_, List.isChain_singleton _, ?_⟩
  · rw [List.flatten_append, List.flatten_singleton, List.append_nil]
    exact h.items_eq
  · intro w hw
    rcases List.mem_append.mp hw with hw | hw
    · exact h.segment w hw
    · rw [List.mem_singleton.mp hw]
      exact ⟨hne, h.opened_lt.le, h.unbroken⟩
  · exact limit_pos size
  · intro w hw
    rw [List.getLast?_concat, Option.mem_some_iff] at hw
    subst hw
    exact .inr ⟨a, ha, x, rfl, hax⟩

/-- Appending re-establishes the invariant. -/
theorem Ready.valid_append {x : α} (h : Ready size breaks items s x) :
    Valid size breaks (items ++ [x]) (s.append size x) := by
  have hne : s.opened ++ [x] ≠ [] := List.append_ne_nil_of_right_ne_nil _ (List.cons_ne_nil _ _)
  have hle : (s.opened ++ [x]).length ≤ limit size := by
    rw [List.length_append]
    exact h.opened_lt
  unfold append
  split_ifs with hfull
  · have hlen : (s.opened ++ [x]).length = limit size :=
      le_antisymm hle ((length_le_limit_iff hne).mpr hfull)
    refine ⟨?_, ?_, isChain_append_segment h.boundary h.seam, ?_, List.isChain_nil, ?_⟩
    · rw [List.flatten_append, List.flatten_singleton, List.append_nil, ← List.append_assoc,
        h.items_eq]
    · intro w hw
      rcases List.mem_append.mp hw with hw | hw
      · exact h.segment w hw
      · rw [List.mem_singleton.mp hw]
        exact ⟨hne, hle, h.unbroken⟩
    · exact limit_pos size
    · intro w hw
      rw [List.getLast?_concat, Option.mem_some_iff] at hw
      subst hw
      exact .inl hlen
  · refine ⟨?_, h.segment, h.boundary, ?_, h.unbroken, h.seam⟩
    · rw [← List.append_assoc, h.items_eq]
    · exact lt_of_not_ge (mt (length_le_limit_iff hne).mp hfull)

/-- **One item.** -/
theorem Valid.push (h : Valid size breaks items s) (x : α) :
    Valid size breaks (items ++ [x]) (s.push size breaks x) := by
  unfold Cut.push
  cases hx : s.broken breaks x with
  | true => exact (h.ready_of_broken hx).valid_append
  | false => exact (h.ready_of_not_broken hx).valid_append

/-- **A whole scan.** -/
theorem Valid.foldl (h : Valid size breaks items s) (xs : List α) :
    Valid size breaks (items ++ xs) (xs.foldl (Cut.push size breaks) s) := by
  induction xs generalizing items s with
  | nil => simpa using h
  | cons x rest ih => simpa using ih (h.push x)

/-- **The end of a scan.**  With the open segment closed the segments are those of
the stream. -/
theorem Valid.isSegmentation_close (h : Valid size breaks items s) :
    IsSegmentation size breaks items s.close.closed := by
  unfold close
  split_ifs with hnil
  · refine ⟨?_, h.segment, h.boundary⟩
    rw [← h.items_eq, hnil, List.append_nil]
  · refine ⟨?_, ?_, isChain_append_segment h.boundary h.seam⟩
    · rw [List.flatten_append, List.flatten_singleton, h.items_eq]
    · intro w hw
      rcases List.mem_append.mp hw with hw | hw
      · exact h.segment w hw
      · rw [List.mem_singleton.mp hw]
        exact ⟨hnil, h.opened_lt.le, h.unbroken⟩

end Cut

end Segmentation
