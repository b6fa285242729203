import CallingAgent.Framework.Table

/-!
# Unique indexes

An `Indexed key index` is a table with a unique index besides its primary key; rows
without a value of the index are not compared. A commit checks it (`Indexed.check`), so
a table that breaks it cannot be committed.

* `eq_of_index`, `find?_index`: a value has one row;
* `unique_insert`: a row can be added exactly if its value is not taken;
* `unique_update_iff`: an update that leaves the index alone keeps it unique;
* `Indexed.check_update`: so it can be done before the check or after it.
-/

namespace CallingAgent.Framework

variable {ρ κ υ : Type} {key : ρ → κ} {index : ρ → Option υ}

/-- No value of the index is that of two rows. -/
def Unique (key : ρ → κ) (index : ρ → Option υ) (rows : List ρ) : Prop :=
  ∀ r ∈ rows, ∀ r' ∈ rows, index r = index r' → index r ≠ none → key r = key r'

instance Unique.instDecidable [DecidableEq κ] [DecidableEq υ] (rows : List ρ) : Decidable (Unique key index rows) :=
  inferInstanceAs (Decidable (∀ r ∈ rows, ∀ r' ∈ rows, index r = index r' → index r ≠ none → key r = key r'))

/-- A table with a unique index. -/
structure Indexed (key : ρ → κ) (index : ρ → Option υ) extends Table key where
  unique : Unique key index rows

namespace Indexed

section Check

variable [DecidableEq κ] [DecidableEq υ]

/-- The table at a commit, or `none` if the index is violated. -/
def check (t : Table key) : Option (Indexed key index) :=
  if h : Unique key index t.rows then some { toTable := t, unique := h } else none

theorem check_eq_some {t : Table key} {t' : Indexed key index} : check t = some t' ↔ t'.toTable = t := by
  unfold check
  constructor
  · intro h
    split at h
    · rw [← Option.some.inj h]
    · cases h
  · intro h
    subst h
    exact dif_pos t'.unique

theorem check_eq_none {t : Table key} : (check t : Option (Indexed key index)) = none ↔ ¬Unique key index t.rows := by
  unfold check
  split
  · rename_i h
    exact iff_of_false (Option.some_ne_none _) (not_not_intro h)
  · rename_i h
    exact iff_of_true rfl h

end Check

variable [DecidableEq κ]

theorem eq_of_index {t : Indexed key index} {r r' : ρ} {v : υ} (hr : r ∈ t.rows) (hr' : r' ∈ t.rows)
    (h : index r = some v) (h' : index r' = some v) : r = r' := by
  have hkey : key r = key r' := t.unique r hr r' hr' (h.trans h'.symm) (by rw [h]; exact Option.some_ne_none v)
  exact Table.eq_of_key_eq hr hr' hkey

/-- The row of a value is the one that is found by it. -/
theorem find?_index {t : Indexed key index} {p : ρ → Bool} {r : ρ} {v : υ} (hr : r ∈ t.rows) (h : index r = some v)
    (hp : ∀ x, p x = true ↔ index x = some v) : t.rows.find? p = some r := by
  have hsome : (t.rows.find? p).isSome := List.find?_isSome.mpr ⟨r, hr, (hp r).mpr h⟩
  obtain ⟨x, hx⟩ := Option.isSome_iff_exists.mp hsome
  have hpx : index x = some v := (hp x).mp (List.find?_some hx)
  rw [hx, eq_of_index (List.mem_of_find?_eq_some hx) hr hpx h]

end Indexed

/-- An update that leaves the index alone keeps it unique, or not. -/
theorem unique_update_iff {t : Table key} {u : Update key} (hu : ∀ r, index (u.set r) = index r) :
    Unique key index (t.update u).rows ↔ Unique key index t.rows := by
  have hrow : ∀ r, index (u.row r) = index r := by
    intro r
    unfold Update.row
    split
    · exact hu r
    · rfl
  simp only [Unique, Table.update, List.forall_mem_map, hrow, u.row_key]

theorem unique_update {t : Table key} {u : Update key} (ht : Unique key index t.rows)
    (hu : ∀ r, index (u.set r) = index r) : Unique key index (t.update u).rows :=
  (unique_update_iff hu).mpr ht

/-- A table with its index after such an update. -/
def Indexed.overwrite (t : Indexed key index) (u : Update key) (hu : ∀ r, index (u.set r) = index r) : Indexed key index where
  toTable := t.toTable.update u
  unique := unique_update t.unique hu

section Check

variable [DecidableEq κ] [DecidableEq υ]

theorem Indexed.check_update (t : Table key) {u : Update key} (hu : ∀ r, index (u.set r) = index r) :
    (check (t.update u) : Option (Indexed key index)) = (check t).map fun t => t.overwrite u hu := by
  by_cases h : Unique key index t.rows
  · unfold check
    rw [dif_pos h, dif_pos ((unique_update_iff hu).mpr h)]
    rfl
  · unfold check
    rw [dif_neg h, dif_neg fun h' => h ((unique_update_iff hu).mp h')]
    rfl

end Check

variable [DecidableEq κ]

/-- A row can be added exactly if its value is not taken. -/
theorem unique_insert {t t' : Table key} {r : ρ} (ht : Unique key index t.rows) (h : t.insert r = some t') :
    Unique key index t'.rows ↔ ∀ x ∈ t.rows, index x = index r → index r = none := by
  obtain ⟨hfree, -⟩ := Table.insert_eq_some h
  constructor
  · intro hu x hx e
    by_contra hne
    have hkey : key x = key r :=
      hu x ((Table.mem_insert h).mpr (.inl hx)) r ((Table.mem_insert h).mpr (.inr rfl)) e (by rw [e]; exact hne)
    exact Table.lookup_eq_none.mp hfree x hx hkey
  · intro hnew x hx y hy e hne
    rcases (Table.mem_insert h).mp hx with hx | rfl <;> rcases (Table.mem_insert h).mp hy with hy | rfl
    · exact ht x hx y hy e hne
    · exact absurd (e.trans (hnew x hx e)) hne
    · exact absurd (hnew y hy e.symm) hne
    · rfl

end CallingAgent.Framework
