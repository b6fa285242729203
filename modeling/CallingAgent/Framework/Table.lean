import Mathlib.Algebra.Ring.Nat
import Mathlib.Data.List.Nodup

/-!
# Keyed tables

A `Table key` is a list of rows, in insertion order, of which no two have the
same primary key; an `Update key` is an `UPDATE … SET … WHERE …` that leaves
the primary key alone. Both carry their condition, so a statement cannot leave
an invalid table.

* `Table.lookup`: the row of a key; every row is the one its key finds
  (`lookup_of_mem`);
* `lookup_update`: an update acts on the row of a key alone, so what a
  statement does to one row can be said without the others;
* `lookup_insert`, `mem_insert`: an insert adds one row and keeps the rest;
* `insert_update`: inserts and updates commute;
* `filter_rows_perm`, `find?_filter_rows_congr`: what two tables with the same
  rows of a kind have in common;
* `Within`: a table that lacks some of the rows of other kinds, which inserts and
  updates of both tables keep, and those of such rows in the first one alone.
-/

namespace CallingAgent.Framework

variable {ρ κ : Type} {key : ρ → κ}

/-- `UPDATE … SET set WHERE guard`. -/
structure Update (key : ρ → κ) where
  guard : ρ → Bool
  set : ρ → ρ
  keeps : ∀ r, key (set r) = key r := by intro _; rfl

namespace Update

/-- What the statement makes of one row. -/
def row (u : Update key) (r : ρ) : ρ := if u.guard r then u.set r else r

/-- The rows of the `RETURNING` clause. -/
def returning (u : Update key) (rows : List ρ) : List ρ := (rows.filter u.guard).map u.set

theorem row_of_guard {u : Update key} {r : ρ} (h : u.guard r = true) : u.row r = u.set r := by
  simp only [row, h, if_true]

theorem row_of_not_guard {u : Update key} {r : ρ} (h : u.guard r = false) : u.row r = r := by
  simp only [row, h, Bool.false_eq_true, if_false]

/-- A row is left alone, or the guard holds of it and it is set. -/
theorem row_cases (u : Update key) (r : ρ) : u.row r = r ∨ u.guard r = true ∧ u.row r = u.set r := by
  cases h : u.guard r
  · exact .inl (row_of_not_guard h)
  · exact .inr ⟨rfl, row_of_guard h⟩

theorem row_key (u : Update key) (r : ρ) : key (u.row r) = key r := by
  rcases u.row_cases r with h | ⟨-, h⟩ <;> rw [h]
  exact u.keeps r

theorem returning_eq_nil {u : Update key} {rows : List ρ} :
    u.returning rows = [] ↔ ∀ r ∈ rows, u.guard r = false := by
  simp [returning, List.filter_eq_nil_iff]

end Update

/-- A table with primary key `key`. -/
structure Table (key : ρ → κ) where
  rows : List ρ
  keyed : (rows.map key).Nodup

namespace Table

/-- A table without rows. -/
def empty : Table key := ⟨[], List.nodup_nil⟩

/-- The table after an `UPDATE`. -/
def update (t : Table key) (u : Update key) : Table key where
  rows := t.rows.map u.row
  keyed := by
    have e : (t.rows.map u.row).map key = t.rows.map key := by
      rw [List.map_map]; exact List.map_congr_left fun r _ => u.row_key r
    rw [e]; exact t.keyed

/-- An `UPDATE` that returns no row leaves the table alone. -/
theorem update_of_returning_eq_nil {t : Table key} {u : Update key} (h : u.returning t.rows = []) :
    t.update u = t := by
  obtain ⟨rows, hn⟩ := t
  have e : rows.map u.row = rows := by
    rw [List.map_congr_left fun r hr => Update.row_of_not_guard (Update.returning_eq_nil.mp h r hr)]
    exact List.map_id' rows
  simp only [update, e]

/-- A measure that goes down wherever an update changes a row. -/
theorem update_eq_or_sum_lt {t : Table key} {u : Update key} {f : ρ → Nat}
    (h : ∀ r ∈ t.rows, u.row r = r ∨ f (u.row r) < f r) :
    t.update u = t ∨ ((t.update u).rows.map f).sum < (t.rows.map f).sum := by
  have hrows : ∀ rows : List ρ, (∀ r ∈ rows, u.row r = r ∨ f (u.row r) < f r) →
      rows.map u.row = rows ∨ ((rows.map u.row).map f).sum < (rows.map f).sum := by
    intro rows
    induction rows with
    | nil => exact fun _ => .inl rfl
    | cons r rows ih =>
      intro h
      obtain ⟨hr, hrest⟩ := List.forall_mem_cons.mp h
      simp only [List.map_cons, List.sum_cons, List.cons.injEq]
      rcases hr with hr | hr <;> rcases ih hrest with e | e
      · exact .inl ⟨hr, e⟩
      · rw [hr]; omega
      · rw [e]; omega
      · omega
  obtain ⟨rows, hn⟩ := t
  rcases hrows rows h with e | e
  · exact .inl (by simp only [update, e])
  · exact .inr e

/-- Two updates in the one order and in the other. -/
theorem update_update {u v v' : Update key} (h : ∀ r, v'.row (u.row r) = u.row (v.row r)) (t : Table key) :
    (t.update u).update v' = (t.update v).update u := by
  have hrows : (t.rows.map u.row).map v'.row = (t.rows.map v.row).map u.row := by
    rw [List.map_map, List.map_map]
    exact List.map_congr_left fun r _ => h r
  simp only [update, hrows]

theorem nodup_rows (t : Table key) : t.rows.Nodup := t.keyed.of_map key

/-- Two tables with the same rows of a kind, in whatever order. -/
theorem filter_rows_perm {t t' : Table key} {q : ρ → Bool}
    (h : ∀ r, q r = true → (r ∈ t.rows ↔ r ∈ t'.rows)) : (t.rows.filter q).Perm (t'.rows.filter q) := by
  refine (List.perm_ext_iff_of_nodup (t.nodup_rows.filter q) (t'.nodup_rows.filter q)).mpr fun r => ?_
  simp only [List.mem_filter]
  exact and_congr_left (h r)

variable [DecidableEq κ]

/-- The row with primary key `k`. -/
def lookup (t : Table key) (k : κ) : Option ρ := t.rows.find? fun r => key r == k

theorem lookup_key {t : Table key} {k : κ} {r : ρ} (h : t.lookup k = some r) : key r = k := by
  simpa using List.find?_some h

theorem lookup_mem {t : Table key} {k : κ} {r : ρ} (h : t.lookup k = some r) : r ∈ t.rows :=
  List.mem_of_find?_eq_some h

theorem lookup_eq_none {t : Table key} {k : κ} : t.lookup k = none ↔ ∀ r ∈ t.rows, key r ≠ k := by
  simp [lookup, List.find?_eq_none]

/-- Every row is the one its key finds. -/
theorem lookup_of_mem {t : Table key} {r : ρ} (hr : r ∈ t.rows) : t.lookup (key r) = some r := by
  obtain ⟨rows, hn⟩ := t
  show rows.find? (fun x => key x == key r) = some r
  induction rows with
  | nil => cases hr
  | cons x rows ih =>
    simp only [List.map_cons, List.nodup_cons] at hn
    rcases List.mem_cons.mp hr with rfl | hr
    · simp
    · have hne : key x ≠ key r := fun e => hn.1 (e ▸ List.mem_map_of_mem hr)
      simpa [hne] using ih hn.2 hr

theorem lookup_eq_some {t : Table key} {k : κ} {r : ρ} : t.lookup k = some r ↔ r ∈ t.rows ∧ key r = k := by
  constructor
  · intro h
    exact ⟨lookup_mem h, lookup_key h⟩
  · rintro ⟨hr, rfl⟩
    exact lookup_of_mem hr

theorem eq_of_key_eq {t : Table key} {r r' : ρ} (hr : r ∈ t.rows) (hr' : r' ∈ t.rows) (e : key r = key r') :
    r = r' := by
  have h := lookup_of_mem hr
  rw [e, lookup_of_mem hr'] at h
  exact (Option.some.inj h).symm

/-- The row of a key among the rows with `q`. -/
theorem find?_filter_rows (t : Table key) (q : ρ → Bool) (k : κ) :
    (t.rows.filter q).find? (fun r => key r == k) = (t.lookup k).filter q := by
  cases h : (t.rows.filter q).find? (fun r => key r == k) with
  | some x =>
    obtain ⟨hx, hq⟩ := List.mem_filter.mp (List.mem_of_find?_eq_some h)
    obtain rfl : key x = k := by simpa using List.find?_some h
    rw [lookup_of_mem hx, Option.filter_some_pos hq]
  | none =>
    cases hl : t.lookup k with
    | none => rfl
    | some r =>
      have hq : ¬ q r = true := fun hq => by
        have hne := List.find?_eq_none.mp h r (List.mem_filter.mpr ⟨lookup_mem hl, hq⟩)
        simp [lookup_key hl] at hne
      rw [Option.filter_some_neg (Bool.eq_false_iff.mpr hq)]

/-- Two tables with the same rows of a kind find the same of them. -/
theorem find?_filter_rows_congr {t t' : Table key} {q : ρ → Bool}
    (h : ∀ r, q r = true → (r ∈ t.rows ↔ r ∈ t'.rows)) (k : κ) :
    (t.rows.filter q).find? (fun r => key r == k) = (t'.rows.filter q).find? (fun r => key r == k) := by
  ext r
  simp only [find?_filter_rows, Option.filter_eq_some_iff]
  rw [lookup_eq_some, lookup_eq_some]
  exact and_congr_left fun hq => and_congr_left fun _ => h r hq

theorem lookup_update (t : Table key) (u : Update key) (k : κ) :
    (t.update u).lookup k = (t.lookup k).map u.row := by
  simp only [lookup, update, List.find?_map]
  congr 2
  funext r
  simp only [Function.comp_apply, Update.row_key]

/-- An update of the row of one key. -/
theorem lookup_update_key {t : Table key} {u : Update key} {k : κ} (hguard : ∀ r, u.guard r = true ↔ key r = k) (k' : κ) :
    (t.update u).lookup k' = if k' = k then (t.lookup k').map u.set else t.lookup k' := by
  rw [lookup_update]
  cases h : t.lookup k' with
  | none => simp
  | some r =>
    have hk : key r = k' := lookup_key h
    by_cases hkey : k' = k
    · rw [if_pos hkey, Option.map_some, Update.row_of_guard ((hguard r).mpr (hk.trans hkey))]
      rfl
    · have hnot : u.guard r = false := Bool.eq_false_iff.mpr fun hg => hkey (hk.symm.trans ((hguard r).mp hg))
      rw [if_neg hkey, Option.map_some, Update.row_of_not_guard hnot]

/-- `INSERT`, or `none` if the primary key is taken. -/
def insert (t : Table key) (r : ρ) : Option (Table key) :=
  if h : t.lookup (key r) = none then
    some
      { rows := t.rows ++ [r]
        keyed := by
          rw [List.map_append, List.map_singleton]
          refine List.nodup_append.mpr ⟨t.keyed, List.nodup_singleton _, fun k hk l hl => ?_⟩
          obtain ⟨x, hx, rfl⟩ := List.mem_map.mp hk
          rw [List.mem_singleton.mp hl]
          exact lookup_eq_none.mp h x hx }
  else none

theorem insert_eq_some {t t' : Table key} {r : ρ} (h : t.insert r = some t') :
    t.lookup (key r) = none ∧ t'.rows = t.rows ++ [r] := by
  unfold insert at h
  split at h
  · rename_i hn
    exact ⟨hn, by rw [← Option.some.inj h]⟩
  · cases h

theorem mem_insert {t t' : Table key} {r x : ρ} (h : t.insert r = some t') :
    x ∈ t'.rows ↔ x ∈ t.rows ∨ x = r := by
  rw [(insert_eq_some h).2, List.mem_append, List.mem_singleton]

theorem exists_insert {t : Table key} {r : ρ} (h : t.lookup (key r) = none) : ∃ t', t.insert r = some t' :=
  ⟨_, dif_pos h⟩

theorem lookup_insert {t t' : Table key} {r : ρ} (h : t.insert r = some t') (k : κ) :
    t'.lookup k = if key r = k then some r else t.lookup k := by
  obtain ⟨hn, hr⟩ := insert_eq_some h
  simp only [lookup] at hn ⊢
  rw [hr, List.find?_append]
  by_cases hk : key r = k
  · subst hk
    simp [hn]
  · simp [hk]

/-- An update after the insert of a row is one before it, with the row updated. -/
theorem insert_update (t : Table key) (u : Update key) (r : ρ) :
    (t.update u).insert (u.row r) = (t.insert r).map (·.update u) := by
  have hnone : (t.update u).lookup (key (u.row r)) = none ↔ t.lookup (key r) = none := by
    rw [lookup_update, Option.map_eq_none_iff, u.row_key r]
  unfold insert
  by_cases h : t.lookup (key r) = none
  · rw [dif_pos h, dif_pos (hnone.mpr h), Option.map_some, Option.some.injEq]
    simp only [update, List.map_append, List.map_singleton]
  · rw [dif_neg h, dif_neg (fun h' => h (hnone.mp h'))]
    rfl

/-- `t'` has the rows of `t` with `own`, and no primary keys but those of `t`. -/
structure Within (own : ρ → Prop) (t t' : Table key) : Prop where
  agree : ∀ r, own r → (r ∈ t.rows ↔ r ∈ t'.rows)
  keys : ∀ r ∈ t'.rows, t.lookup (key r) ≠ none

namespace Within

variable {own : ρ → Prop} {t t' : Table key}

theorem refl (own : ρ → Prop) (t : Table key) : Within own t t where
  agree _ _ := Iff.rfl
  keys r hr := by
    rw [lookup_of_mem hr]
    exact Option.some_ne_none r

/-- A primary key that is free in the first table is free in the second. -/
theorem lookup_eq_none (h : Within own t t') {k : κ} (hk : t.lookup k = none) : t'.lookup k = none := by
  refine Table.lookup_eq_none.mpr fun r hr e => ?_
  exact h.keys r hr (by rw [e, hk])

theorem insert (h : Within own t t') {r : ρ} {t₁ t₁' : Table key} (ht : t.insert r = some t₁)
    (ht' : t'.insert r = some t₁') : Within own t₁ t₁' where
  agree x hx := by rw [mem_insert ht, mem_insert ht', h.agree x hx]
  keys x hx := by
    rw [lookup_insert ht]
    split
    · exact Option.some_ne_none r
    · rename_i hne
      rcases (mem_insert ht').mp hx with hx | rfl
      · exact h.keys x hx
      · exact absurd rfl hne

/-- The row inserted into the first table alone is not one with `own`. -/
theorem insert_left (h : Within own t t') {r : ρ} (hr : ¬ own r) {t₁ : Table key} (ht : t.insert r = some t₁) :
    Within own t₁ t' where
  agree x hx := by
    have hne : x ≠ r := fun e => hr (e ▸ hx)
    rw [mem_insert ht, or_iff_left hne, h.agree x hx]
  keys x hx := by
    rw [lookup_insert ht]
    split
    · exact Option.some_ne_none r
    · exact h.keys x hx

theorem update (h : Within own t t') (u : Update key) (hu : ∀ r, own (u.row r) → own r) :
    Within own (t.update u) (t'.update u) where
  agree x hx := by
    simp only [Table.update, List.mem_map]
    constructor
    · rintro ⟨r, hr, rfl⟩
      exact ⟨r, (h.agree r (hu r hx)).mp hr, rfl⟩
    · rintro ⟨r, hr, rfl⟩
      exact ⟨r, (h.agree r (hu r hx)).mpr hr, rfl⟩
  keys x hx := by
    obtain ⟨r, hr, rfl⟩ := List.mem_map.mp hx
    rw [lookup_update, u.row_key, ne_eq, Option.map_eq_none_iff]
    exact h.keys r hr

/-- An update of the first table alone leaves the rows with `own` as they are, and
gives no new ones. -/
theorem update_left (h : Within own t t') {u : Update key}
    (hu : ∀ r ∈ t.rows, own r ∨ own (u.row r) → u.row r = r) : Within own (t.update u) t' where
  agree x hx := by
    rw [← h.agree x hx]
    simp only [Table.update, List.mem_map]
    constructor
    · rintro ⟨r, hr, rfl⟩
      rwa [hu r hr (.inr hx)]
    · intro hr
      exact ⟨x, hr, hu x hr (.inl hx)⟩
  keys x hx := by
    rw [lookup_update, ne_eq, Option.map_eq_none_iff]
    exact h.keys x hx

end Within

end Table

end CallingAgent.Framework
