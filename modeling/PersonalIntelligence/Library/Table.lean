import Mathlib.Data.List.Basic
import Mathlib.Data.List.Forall2
import Mathlib.Data.List.Nodup
import Mathlib.Data.List.Pairwise
import Mathlib.Data.List.Sort

/-!
# Tables

A table is the list of its rows.  The statements that need more than a filter or an
append are here: `INSERT ... ON CONFLICT DO UPDATE`, which is `upsert` on the column of
the unique constraint, `UPDATE ... WHERE`, `SELECT ... ORDER BY ... LIMIT 1` and
`LEFT JOIN`.

A unique constraint is the statement that the keys of the rows have no duplicates.  It
is an invariant of `upsert` (`nodup_keys_upsert`) and not part of the type, because a
table has several columns and a statement only looks at one of them.
-/

namespace Table

variable {ρ κ : Type} [DecidableEq κ]

/-- `UPDATE ... WHERE`. -/
def update (p : ρ → Bool) (f : ρ → ρ) (rows : List ρ) : List ρ :=
  rows.map fun r => if p r then f r else r

/-- `INSERT ... ON CONFLICT (key) DO UPDATE`. -/
def upsert (key : ρ → κ) (f : ρ → ρ) (fresh : ρ) (rows : List ρ) : List ρ :=
  if key fresh ∈ rows.map key then update (fun r => key r = key fresh) f rows
  else rows ++ [fresh]

/-- `SELECT ... ORDER BY ... LIMIT 1`: of several rows none of which comes before
another, the first in the table. -/
def first (before : ρ → ρ → Bool) : List ρ → Option ρ
  | [] => none
  | r :: rest =>
    match first before rest with
    | none => some r
    | some best => if before best r then some best else some r

/-- A row of a `LEFT JOIN`, with each of its partners or alone. -/
def joinRow {τ : Type} (r : ρ) : List τ → List (ρ × Option τ)
  | [] => [(r, none)]
  | partners => partners.map fun o => (r, some o)

/-- `LEFT JOIN`. -/
def leftJoin {τ : Type} (on : ρ → τ → Bool) (rows : List ρ) (others : List τ) :
    List (ρ × Option τ) :=
  rows.flatMap fun r => joinRow r (others.filter (on r))

/-- `INSERT ... ON CONFLICT DO NOTHING`, where the whole row is the key: what is in the table
afterwards. -/
theorem any_insert {rows : List ρ} {row : ρ} [Decidable (row ∈ rows)] {p : ρ → Bool} :
    (if row ∈ rows then rows else rows ++ [row]).any p = true ↔
      p row = true ∨ rows.any p = true := by
  split_ifs with hmem
  · exact (or_iff_right_of_imp fun h => List.any_eq_true.mpr ⟨row, hmem, h⟩).symm
  · rw [List.any_append, Bool.or_eq_true, List.any_cons, List.any_nil, Bool.or_false, or_comm]

section Update

variable {p : ρ → Bool} {f : ρ → ρ} {rows : List ρ}

theorem mem_update {r : ρ} : r ∈ update p f rows ↔
    ∃ old ∈ rows, (if p old then f old else old) = r := List.mem_map

/-- An update of no row. -/
theorem update_eq_self (h : ∀ r ∈ rows, p r = false) : update p f rows = rows :=
  (List.map_congr_left fun r hr => if_neg (by simp [h r hr])).trans (List.map_id _)

/-- A selection that an update neither takes a row from nor adds one to. -/
theorem filter_update {q : ρ → Bool}
    (hq : ∀ r ∈ rows, p r = true → q r = false ∧ q (f r) = false) :
    (update p f rows).filter q = rows.filter q := by
  induction rows with
  | nil => rfl
  | cons r rest ih =>
    have hrest : (update p f rest).filter q = rest.filter q :=
      ih fun r' hr' => hq r' (List.mem_cons_of_mem r hr')
    have hcons : update p f (r :: rest) = (if p r then f r else r) :: update p f rest := rfl
    rw [hcons]
    split_ifs with hp
    · obtain ⟨hold, hnew⟩ := hq r List.mem_cons_self hp
      rw [List.filter_cons_of_neg (by simp [hnew]), List.filter_cons_of_neg (by simp [hold]), hrest]
    · rw [List.filter_cons, List.filter_cons, hrest]

/-- The columns an update does not write. -/
theorem map_update {β : Type} {g : ρ → β} (hg : ∀ r, g (f r) = g r) :
    (update p f rows).map g = rows.map g := by
  unfold update
  rw [List.map_map]
  refine List.map_congr_left fun r _ => ?_
  rw [Function.comp_apply]
  split_ifs
  · exact hg r
  · rfl

/-- What holds of every row still does, if the update keeps it. -/
theorem forall_update {P : ρ → Prop} (h : ∀ r ∈ rows, P r)
    (hf : ∀ r ∈ rows, p r = true → P r → P (f r)) : ∀ r ∈ update p f rows, P r := by
  intro r hr
  obtain ⟨old, hold, rfl⟩ := mem_update.mp hr
  split_ifs with hp
  · exact hf old hold hp (h old hold)
  · exact h old hold

/-- The first row of a key after an update of the rows of a key. -/
theorem find?_update {key : ρ → κ} (hf : ∀ r, key (f r) = key r) (k k' : κ) :
    (update (fun r => key r = k) f rows).find? (key · = k') =
      (rows.find? (key · = k')).map fun r => if k' = k then f r else r := by
  induction rows with
  | nil => rfl
  | cons r rest ih =>
    have hhead : key (if decide (key r = k) = true then f r else r) = key r := by
      split_ifs
      · exact hf r
      · rfl
    unfold update at ih ⊢
    rw [List.map_cons, List.find?_cons, List.find?_cons, hhead]
    by_cases hr : key r = k'
    · subst hr
      simp
    · rw [decide_eq_false hr]
      exact ih

/-- The value of a column for a key, after an update of the rows of a key that there is. -/
theorem column_update {key : ρ → κ} (hf : ∀ r, key (f r) = key r) {β : Type} {column : ρ → β}
    {value : β} (hvalue : ∀ r, column (f r) = value) {k : κ} (hk : ∃ r ∈ rows, key r = k) (k' : κ)
    (default : β) :
    (((update (fun r => key r = k) f rows).find? (key · = k')).map column).getD default =
      if k' = k then value else ((rows.find? (key · = k')).map column).getD default := by
  rw [find?_update hf]
  split_ifs with heq
  · subst heq
    obtain ⟨r, hr, hkey⟩ := hk
    have hsome : (rows.find? (key · = k')).isSome :=
      List.find?_isSome.mpr ⟨r, hr, decide_eq_true hkey⟩
    obtain ⟨first, hfirst⟩ := Option.isSome_iff_exists.mp hsome
    rw [hfirst]
    exact hvalue first
  · rw [Option.map_id']

omit [DecidableEq κ] in
/-- `UNIQUE` on a column that may be null. -/
theorem eq_of_unique {key : ρ → Option κ}
    (hunique : rows.Pairwise fun r r' => key r = key r' → key r = none) {r r' : ρ}
    (hr : r ∈ rows) (hr' : r' ∈ rows) {k : κ} (hk : key r = some k) (hk' : key r' = some k) :
    r = r' := by
  by_contra hne
  have hsymm : Std.Symm fun r r' : ρ => key r = key r' → key r = none :=
    ⟨fun _ _ h heq => heq.trans (h heq.symm)⟩
  have hnone := hunique.forall hr hr' hne (hk.trans hk'.symm)
  rw [hk] at hnone
  cases hnone

/-- A row is the first one of its key if there is no other. -/
theorem find?_of_mem {key : ρ → κ} (hnodup : (rows.map key).Nodup) {r : ρ} (hr : r ∈ rows) :
    rows.find? (key · = key r) = some r := by
  induction rows with
  | nil => cases hr
  | cons head rest ih =>
    rw [List.map_cons, List.nodup_cons] at hnodup
    rcases List.mem_cons.mp hr with rfl | hr
    · simp
    · have hne : key head ≠ key r := fun heq => hnodup.1 (heq ▸ List.mem_map_of_mem hr)
      rw [List.find?_cons, decide_eq_false hne]
      exact ih hnodup.2 hr

end Update

/-- `DELETE ... WHERE key = k`, and the insertion of other rows of that key. -/
theorem filter_replaced {key : ρ → κ} {k : κ} {rows new : List ρ} (hnew : ∀ r ∈ new, key r = k)
    (k' : κ) : (rows.filter (key · ≠ k) ++ new).filter (key · = k') =
      if k' = k then new else rows.filter (key · = k') := by
  rw [List.filter_append, List.filter_filter]
  split_ifs with hk
  · subst hk
    have hold : rows.filter (fun r => decide (key r = k') && decide (key r ≠ k')) = [] :=
      List.filter_eq_nil_iff.mpr fun r _ => by simp
    have hall : new.filter (key · = k') = new :=
      List.filter_eq_self.mpr fun r hr => decide_eq_true (hnew r hr)
    rw [hold, hall, List.nil_append]
  · have hold : rows.filter (fun r => decide (key r = k') && decide (key r ≠ k)) =
        rows.filter (key · = k') := by
      refine List.filter_congr fun r _ => ?_
      by_cases hr : key r = k' <;> simp [hr, hk]
    have hnone : new.filter (key · = k') = [] :=
      List.filter_eq_nil_iff.mpr fun r hr hr' =>
        hk (((hnew r hr).symm.trans (of_decide_eq_true hr')).symm)
    rw [hold, hnone, List.append_nil]

section Upsert

variable {key : ρ → κ} {f : ρ → ρ} {fresh : ρ} {rows : List ρ}

/-- A row after an upsert: an old one, an old one updated, or the new one. -/
theorem mem_upsert {r : ρ} (h : r ∈ upsert key f fresh rows) :
    (r ∈ rows ∧ key r ≠ key fresh) ∨ (∃ old ∈ rows, key old = key fresh ∧ r = f old) ∨
      (key fresh ∉ rows.map key ∧ r = fresh) := by
  unfold upsert at h
  split_ifs at h with hkey
  · obtain ⟨old, hold, rfl⟩ := mem_update.mp h
    by_cases hk : key old = key fresh
    · rw [if_pos (decide_eq_true hk)]
      exact .inr (.inl ⟨old, hold, hk, rfl⟩)
    · rw [if_neg (by simpa using hk)]
      exact .inl ⟨hold, hk⟩
  · rcases List.mem_append.mp h with hold | hnew
    · exact .inl ⟨hold, fun hk => hkey (hk ▸ List.mem_map_of_mem hold)⟩
    · exact .inr (.inr ⟨hkey, List.mem_singleton.mp hnew⟩)

/-- What holds of every row holds after an upsert, if the update keeps it and the new row has
it. -/
theorem forall_upsert {P : ρ → Prop} (h : ∀ r ∈ rows, P r)
    (hf : ∀ r ∈ rows, key r = key fresh → P r → P (f r)) (hfresh : P fresh) :
    ∀ r ∈ upsert key f fresh rows, P r := by
  intro r hr
  rcases mem_upsert hr with ⟨hold, -⟩ | ⟨old, hold, hkey, rfl⟩ | ⟨-, rfl⟩
  · exact h r hold
  · exact hf old hold hkey (h old hold)
  · exact hfresh

/-- A row with another key stays. -/
theorem mem_upsert_of_ne {r : ρ} (h : r ∈ rows) (hne : key r ≠ key fresh) :
    r ∈ upsert key f fresh rows := by
  unfold upsert
  split_ifs
  · exact mem_update.mpr ⟨r, h, by simp [hne]⟩
  · exact List.mem_append_left _ h

/-- A row with the key is updated. -/
theorem mem_upsert_of_eq {r : ρ} (h : r ∈ rows) (heq : key r = key fresh) :
    f r ∈ upsert key f fresh rows := by
  unfold upsert
  rw [if_pos (heq ▸ List.mem_map_of_mem h)]
  exact mem_update.mpr ⟨r, h, by simp [heq]⟩

/-- A new key is a new row. -/
theorem fresh_mem_upsert (h : key fresh ∉ rows.map key) : fresh ∈ upsert key f fresh rows := by
  unfold upsert
  rw [if_neg h]
  exact List.mem_append_right _ (List.mem_singleton_self _)

/-- The columns an upsert does not update. -/
theorem map_upsert {β : Type} {g : ρ → β} (hg : ∀ r, g (f r) = g r) :
    (upsert key f fresh rows).map g =
      if key fresh ∈ rows.map key then rows.map g else rows.map g ++ [g fresh] := by
  unfold upsert
  split_ifs
  · exact map_update hg
  · rw [List.map_append, List.map_singleton]

/-- The keys after an upsert. -/
theorem keys_upsert (hf : ∀ r, key r = key fresh → key (f r) = key fresh) :
    (upsert key f fresh rows).map key =
      if key fresh ∈ rows.map key then rows.map key else rows.map key ++ [key fresh] := by
  unfold upsert
  split_ifs
  · rw [update, List.map_map]
    refine List.map_congr_left fun r _ => ?_
    rw [Function.comp_apply]
    split_ifs with hkey
    · have hr : key r = key fresh := of_decide_eq_true hkey
      rw [hf r hr, hr]
    · rfl
  · rw [List.map_append, List.map_singleton]

/-- A unique constraint outlives an upsert. -/
theorem nodup_keys_upsert (hf : ∀ r, key r = key fresh → key (f r) = key fresh)
    (h : (rows.map key).Nodup) : ((upsert key f fresh rows).map key).Nodup := by
  rw [keys_upsert hf]
  split_ifs with hmem
  · exact h
  · exact List.nodup_append.mpr ⟨h, List.nodup_singleton _, fun a ha b hb hab =>
      hmem (List.mem_singleton.mp hb ▸ hab ▸ ha)⟩

/-- The keys are those that were there and the new one. -/
theorem mem_keys_upsert (hf : ∀ r, key r = key fresh → key (f r) = key fresh) {k : κ} :
    k ∈ (upsert key f fresh rows).map key ↔ k ∈ rows.map key ∨ k = key fresh := by
  rw [keys_upsert hf]
  split_ifs with hmem
  · refine (or_iff_left_of_imp ?_).symm
    rintro rfl
    exact hmem
  · rw [List.mem_append, List.mem_singleton]

/-- What an upsert makes of the rows of its key. -/
def put (f : ρ → ρ) (fresh : ρ) : List ρ → List ρ
  | [] => [fresh]
  | r :: rest => f r :: rest.map f

theorem map_put {β : Type} {g : ρ → β} {f' : β → β} (hg : ∀ r, g (f r) = f' (g r))
    (rows : List ρ) : (put f fresh rows).map g = put f' (g fresh) (rows.map g) := by
  cases rows with
  | nil => rfl
  | cons r rest =>
    have hrest : (rest.map f).map g = (rest.map g).map f' := by
      rw [List.map_map, List.map_map]
      exact List.map_congr_left fun r _ => hg r
    show g (f r) :: (rest.map f).map g = f' (g r) :: (rest.map g).map f'
    rw [hg, hrest]

/-- Two upserts of one key commute if what they make of a row does. -/
theorem put_comm {f' : ρ → ρ} {fresh' : ρ} (hfresh : f' fresh = f fresh')
    (hf : ∀ r, f' (f r) = f (f' r)) (rows : List ρ) :
    put f' fresh' (put f fresh rows) = put f fresh (put f' fresh' rows) := by
  cases rows with
  | nil => exact congrArg (fun r => [r]) hfresh
  | cons r rest =>
    show f' (f r) :: (rest.map f).map f' = f (f' r) :: (rest.map f').map f
    rw [hf, List.map_map, List.map_map, show f' ∘ f = f ∘ f' from funext hf]

/-- The rows of the key, after an upsert, -/
theorem filter_upsert_self (hf : ∀ r, key r = key fresh → key (f r) = key fresh) :
    (upsert key f fresh rows).filter (key · = key fresh) =
      put f fresh (rows.filter (key · = key fresh)) := by
  unfold upsert
  split_ifs with hmem
  · have hrows : rows.filter (key · = key fresh) ≠ [] := by
      obtain ⟨r, hr, hkey⟩ := List.mem_map.mp hmem
      exact List.ne_nil_of_mem (List.mem_filter.mpr ⟨hr, decide_eq_true hkey⟩)
    have hput : put f fresh (rows.filter (key · = key fresh)) =
        (rows.filter (key · = key fresh)).map f := by
      obtain ⟨r, rest, hcons⟩ := List.exists_cons_of_ne_nil hrows
      rw [hcons]
      rfl
    rw [hput, update, List.filter_map]
    have hkeys : rows.filter ((fun r => decide (key r = key fresh)) ∘ fun r =>
        if decide (key r = key fresh) = true then f r else r) = rows.filter (key · = key fresh) := by
      refine List.filter_congr fun r _ => ?_
      by_cases hr : key r = key fresh
      · simp [hr, hf r hr]
      · simp [hr]
    rw [hkeys]
    refine List.map_congr_left fun r hr => ?_
    exact if_pos (List.mem_filter.mp hr).2
  · have hrows : rows.filter (key · = key fresh) = [] :=
      List.filter_eq_nil_iff.mpr fun r hr hkey =>
        hmem (of_decide_eq_true hkey ▸ List.mem_map_of_mem hr)
    rw [List.filter_append, hrows]
    simp [put]

/-- and those of any other key. -/
theorem filter_upsert_of_ne (hf : ∀ r, key r = key fresh → key (f r) = key fresh) {k : κ}
    (hk : k ≠ key fresh) :
    (upsert key f fresh rows).filter (key · = k) = rows.filter (key · = k) := by
  unfold upsert
  split_ifs with hmem
  · refine filter_update fun r _ hr => ?_
    have hkey : key r = key fresh := of_decide_eq_true hr
    exact ⟨by simp [hkey, Ne.symm hk], by simp [hf r hkey, Ne.symm hk]⟩
  · have hnew : [fresh].filter (key · = k) = [] := by simp [Ne.symm hk]
    rw [List.filter_append, hnew, List.append_nil]

/-- The rows of the other keys are not touched. -/
theorem filter_upsert_compl (hf : ∀ r, key r = key fresh → key (f r) = key fresh) :
    (upsert key f fresh rows).filter (fun r => !decide (key r = key fresh)) =
      rows.filter fun r => !decide (key r = key fresh) := by
  unfold upsert
  split_ifs with hmem
  · refine filter_update fun r _ hr => ?_
    have hkey : key r = key fresh := of_decide_eq_true hr
    exact ⟨by simp [hkey], by simp [hf r hkey]⟩
  · rw [List.filter_append]
    simp

/-- How many rows have a property, if an upsert decides it for its key. -/
theorem countP_upsert (hf : ∀ r, key r = key fresh → key (f r) = key fresh) {p : ρ → Bool}
    (hp : ∀ r, p (f r) = p fresh) (hnodup : (rows.map key).Nodup) :
    (upsert key f fresh rows).countP p + (rows.filter (key · = key fresh)).countP p =
      rows.countP p + [fresh].countP p := by
  have hput : (put f fresh (rows.filter (key · = key fresh))).countP p = [fresh].countP p := by
    have hsub : ((rows.filter (key · = key fresh)).map key).Nodup :=
      hnodup.sublist (List.filter_sublist.map key)
    match hrows : rows.filter (key · = key fresh) with
    | [] => rfl
    | [r] =>
      show [f r].countP p = [fresh].countP p
      rw [List.countP_singleton, List.countP_singleton, hp]
    | r :: r' :: rest =>
      have hkey : ∀ x ∈ r :: r' :: rest, key x = key fresh := fun x hx => by
        rw [← hrows] at hx
        exact of_decide_eq_true (List.mem_filter.mp hx).2
      rw [hrows, List.map_cons, List.map_cons, hkey r (by simp), hkey r' (by simp)] at hsub
      exact absurd hsub (by simp)
  have hafter := List.countP_eq_countP_filter_add (upsert key f fresh rows) p (key · = key fresh)
  have hbefore := List.countP_eq_countP_filter_add rows p (key · = key fresh)
  rw [filter_upsert_self hf, filter_upsert_compl hf, hput] at hafter
  omega

/-- The first row of the key after an upsert, -/
theorem find?_upsert_self (hf : ∀ r, key r = key fresh → key (f r) = key fresh) :
    (upsert key f fresh rows).find? (key · = key fresh) =
      some (((rows.find? (key · = key fresh)).map f).getD fresh) := by
  rw [← List.head?_filter, filter_upsert_self hf, ← List.head?_filter]
  cases rows.filter (key · = key fresh) with
  | nil => rfl
  | cons r rest => rfl

/-- and the first one of other rows. -/
theorem find?_upsert_of_not {q : ρ → Bool}
    (hq : ∀ r ∈ rows, key r = key fresh → q r = false ∧ q (f r) = false)
    (hfresh : q fresh = false) :
    (upsert key f fresh rows).find? q = rows.find? q := by
  have hupdated : ∀ rows : List ρ,
      (∀ r ∈ rows, key r = key fresh → q r = false ∧ q (f r) = false) →
        (update (fun r => key r = key fresh) f rows).find? q = rows.find? q := by
    intro rows hrows
    induction rows with
    | nil => rfl
    | cons r rest ih =>
      have htail := ih fun r' hr' => hrows r' (List.mem_cons_of_mem _ hr')
      unfold update at htail ⊢
      rw [List.map_cons, List.find?_cons, List.find?_cons, htail]
      by_cases hr : key r = key fresh
      · obtain ⟨hold, hnew⟩ := hrows r List.mem_cons_self hr
        simp [hr, hold, hnew]
      · simp [hr]
  unfold upsert
  split_ifs
  · exact hupdated rows hq
  · rw [List.find?_append, List.find?_singleton, hfresh]
    simp

end Upsert

section First

variable {before : ρ → ρ → Bool}

theorem mem_of_first : ∀ {rows : List ρ} {r : ρ}, first before rows = some r → r ∈ rows
  | [], r, h => by cases h
  | head :: rest, r, h => by
    unfold first at h
    cases hrest : first before rest with
    | none =>
      rw [hrest] at h
      obtain rfl := Option.some.inj h
      exact List.mem_cons_self ..
    | some best =>
      rw [hrest] at h
      dsimp only at h
      split_ifs at h
      · obtain rfl := Option.some.inj h
        exact List.mem_cons_of_mem _ (mem_of_first hrest)
      · obtain rfl := Option.some.inj h
        exact List.mem_cons_self ..

theorem first_eq_none_iff {rows : List ρ} : first before rows = none ↔ rows = [] := by
  cases rows with
  | nil => simp [first]
  | cons head rest =>
    unfold first
    cases first before rest with
    | none => simp
    | some best =>
      dsimp only
      split_ifs <;> simp

omit [DecidableEq κ] in
/-- The first of the values of a column. -/
theorem first_map {σ : Type} {before : σ → σ → Bool} (g : ρ → σ) (rows : List ρ) :
    first before (rows.map g) = (first (fun x y => before (g x) (g y)) rows).map g := by
  induction rows with
  | nil => rfl
  | cons r rest ih =>
    rw [List.map_cons, first, first, ih]
    cases first (fun x y => before (g x) (g y)) rest with
    | none => rfl
    | some best =>
      rw [Option.map_some]
      dsimp only
      split_ifs <;> rfl

omit [DecidableEq κ] in
/-- Tables that correspond row by row have first rows that correspond. -/
theorem first_rel {σ : Type} {R : ρ → σ → Prop} {before' : σ → σ → Bool}
    (hbefore : ∀ {x x' y y'}, R x x' → R y y' → before x y = before' x' y') {rows : List ρ}
    {rows' : List σ} (h : List.Forall₂ R rows rows') :
    Option.Rel R (first before rows) (first before' rows') := by
  induction h with
  | nil => exact .none
  | @cons r r' rest rest' hrow hrest ih =>
    rw [first, first]
    generalize first before rest = found at ih ⊢
    generalize first before' rest' = found' at ih ⊢
    cases ih with
    | none => exact .some hrow
    | @some best best' hbest =>
      dsimp only
      rw [hbefore hbest hrow]
      split_ifs
      · exact .some hbest
      · exact .some hrow

end First

omit [DecidableEq κ] in
/-- Updates that correspond keep a correspondence. -/
theorem update_rel {σ : Type} {R : ρ → σ → Prop} {p : ρ → Bool} {f : ρ → ρ} {p' : σ → Bool}
    {f' : σ → σ} (hp : ∀ {r r'}, R r r' → p r = p' r') (hf : ∀ {r r'}, R r r' → R (f r) (f' r'))
    {rows : List ρ} {rows' : List σ} (h : List.Forall₂ R rows rows') :
    List.Forall₂ R (update p f rows) (update p' f' rows') := by
  unfold update
  rw [List.forall₂_map_left_iff, List.forall₂_map_right_iff]
  refine h.imp fun r r' hrow => ?_
  rw [hp hrow]
  split_ifs
  · exact hf hrow
  · exact hrow

section Join

variable {τ : Type} {on : ρ → τ → Bool} {rows : List ρ} {others : List τ} {r : ρ}

theorem mem_joinRow_some {r' : ρ} {o : τ} {partners : List τ} :
    (r, some o) ∈ joinRow r' partners ↔ r = r' ∧ o ∈ partners := by
  cases partners with
  | nil => simp [joinRow]
  | cons o' rest =>
    simp only [joinRow, List.mem_map, Prod.mk.injEq, Option.some.injEq]
    constructor
    · rintro ⟨x, hx, rfl, rfl⟩
      exact ⟨rfl, hx⟩
    · rintro ⟨rfl, hx⟩
      exact ⟨o, hx, rfl, rfl⟩

theorem fst_of_mem_joinRow {partners : List τ} {x : ρ × Option τ} (h : x ∈ joinRow r partners) :
    x.1 = r := by
  cases partners with
  | nil => rw [List.mem_singleton.mp h]
  | cons o rest =>
    obtain ⟨y, -, rfl⟩ := List.mem_map.mp h
    rfl

/-- A row with a partner, -/
theorem mem_leftJoin_some {o : τ} :
    (r, some o) ∈ leftJoin on rows others ↔ r ∈ rows ∧ o ∈ others ∧ on r o = true := by
  simp only [leftJoin, List.mem_flatMap, mem_joinRow_some, List.mem_filter]
  constructor
  · rintro ⟨r', hr', rfl, ho, hon⟩
    exact ⟨hr', ho, hon⟩
  · rintro ⟨hr, ho, hon⟩
    exact ⟨r, hr, rfl, ho, hon⟩

/-- and every row is there, with a partner or without one. -/
theorem exists_mem_leftJoin (hr : r ∈ rows) : ∃ o, (r, o) ∈ leftJoin on rows others := by
  simp only [leftJoin, List.mem_flatMap]
  cases hpartners : others.filter (on r) with
  | nil => exact ⟨none, r, hr, by simp [hpartners, joinRow]⟩
  | cons o rest => exact ⟨some o, r, hr, by simp [hpartners, joinRow]⟩

theorem mem_of_mem_leftJoin {x : ρ × Option τ} (h : x ∈ leftJoin on rows others) :
    x.1 ∈ rows := by
  obtain ⟨r, hr, hx⟩ := List.mem_flatMap.mp h
  exact fst_of_mem_joinRow hx ▸ hr

end Join

/-- The first page of rows that all fit on it. -/
theorem mem_page {α : Type} {le : α → α → Prop} [DecidableRel le] {rows : List α} {limit : ℕ}
    (hfit : rows.length ≤ limit) {x : α} :
    x ∈ (rows.insertionSort le).take limit ↔ x ∈ rows := by
  rw [List.take_of_length_le (by rwa [List.length_insertionSort]), List.mem_insertionSort]

section Pages

variable {p : ρ → Bool} {rows : List ρ} {limit : ℕ}

theorem filter_take_append (p : ρ → Bool) (rows : List ρ) (limit : ℕ) :
    (rows.take limit).filter p ++ (rows.drop limit).filter p = rows.filter p := by
  rw [← List.filter_append, List.take_append_drop]

/-- A page that is filtered is the beginning of the page of the rows that pass. -/
theorem filter_take_prefix : (rows.take limit).filter p <+: (rows.filter p).take limit := by
  refine List.prefix_take_iff.mpr ⟨⟨_, filter_take_append p rows limit⟩, ?_⟩
  exact (List.length_filter_le _ _).trans (List.length_take_le _ _)

/-- **Filtering a page** gives the page of the rows that pass if the whole page passes, or no
later row does, and only then. -/
theorem length_filter_take_eq_iff :
    ((rows.take limit).filter p).length = ((rows.filter p).take limit).length ↔
      (∀ r ∈ rows.take limit, p r = true) ∨ ∀ r ∈ rows.drop limit, p r = false := by
  have hpage : ((rows.take limit).filter p).length ≤ (rows.take limit).length :=
    List.length_filter_le _ _
  have htotal := congrArg List.length (filter_take_append p rows limit)
  rw [List.length_append] at htotal
  have hlater : ((rows.drop limit).filter p).length ≤ (rows.drop limit).length :=
    List.length_filter_le _ _
  have htake : (rows.take limit).length = min limit rows.length := List.length_take
  have hdrop : (rows.drop limit).length = rows.length - limit := List.length_drop
  rw [List.length_take]
  constructor
  · intro h
    by_cases hnone : ((rows.drop limit).filter p).length = 0
    · refine .inr fun r hr => ?_
      have hnil := List.filter_eq_nil_iff.mp (List.length_eq_zero_iff.mp hnone) r hr
      simpa using hnil
    · exact .inl (List.length_filter_eq_length_iff.mp (by omega))
  · rintro (hall | hnone)
    · have hfull := List.length_filter_eq_length_iff.mpr hall
      omega
    · have hnil : (rows.drop limit).filter p = [] :=
        List.filter_eq_nil_iff.mpr fun r hr => by simp [hnone r hr]
      rw [hnil, List.length_nil] at htotal
      omega

end Pages

section Partners

variable {α β : Type} {R : α → β → Prop} {xs : List α} {ys : List β}

/-- Each entry of one list has its partner in the other. -/
theorem exists_of_forall₂ (h : List.Forall₂ R xs ys) {y : β} (hy : y ∈ ys) : ∃ x ∈ xs, R x y := by
  induction h with
  | nil => cases hy
  | @cons x y' xs ys hxy _ ih =>
    rcases List.mem_cons.mp hy with rfl | hrest
    · exact ⟨x, List.mem_cons_self, hxy⟩
    · obtain ⟨x', hx', hR⟩ := ih hrest
      exact ⟨x', List.mem_cons_of_mem _ hx', hR⟩

/-- Partners are related pairwise if any two of them are. -/
theorem pairwise_zip_of_forall₂ (h : List.Forall₂ R xs ys) {S : α × β → α × β → Prop}
    (hS : ∀ x y x' y', R x y → R x' y' → S (x, y) (x', y')) : (xs.zip ys).Pairwise S := by
  induction h with
  | nil => exact .nil
  | @cons x y xs ys hxy hrest ih =>
    refine .cons (fun pair hpair => ?_) ih
    exact hS x y pair.1 pair.2 hxy (List.forall₂_zip hrest hpair)

end Partners

end Table
