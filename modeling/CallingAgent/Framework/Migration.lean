import Mathlib.Data.List.Basic
import Mathlib.Logic.Function.Basic

/-!
# Schema migrations

Statements of a data definition language (`Statement`) on a database with a schema
and rows, in which a table can have columns that may be null or refer to another
table, checks that a column is one of some values, and a policy of row-level security. A statement fails if the
schema does not allow it, or the rows do not: a column that is to be `NOT NULL` has a
null, a row violates a check.

* `LiveDatabase.Valid` is what a database enforces of its rows; a statement keeps it
  (`run_valid`), and so does a write that the table takes (`write_valid`);
* `schema_step`: a statement creates, drops or alters its table, and leaves the others
  alone.
-/

namespace CallingAgent.Framework.Migration

variable {V : Type}

/-! ## Schemas and databases -/

structure Column where
  name : String
  nullable : Bool
  references : Option String := none
  deriving DecidableEq

/-- `CHECK (column IN (allowed))`. -/
structure Check (V : Type) where
  name : String
  column : String
  allowed : List V
  deriving DecidableEq

structure Relation (V : Type) where
  columns : List Column
  checks : List (Check V) := []
  /-- Row-level security is on, with a policy on this column. -/
  policy : Option String := none
  deriving DecidableEq

abbrev Schema (V : Type) := List (String × Relation V)

/-- A row, with `NULL` as `none`. -/
abbrev Row (V : Type) := String → Option V

structure LiveDatabase (V : Type) where
  schema : Schema V
  rows : String → List (Row V)

def Relation.has (r : Relation V) (column : String) : Bool := r.columns.any (·.name == column)

def Schema.has (S : Schema V) (table : String) : Bool := (S.lookup table).isSome

/-- Some column of another table refers to this one. -/
def Schema.referenced (S : Schema V) (table : String) : Bool :=
  S.any fun (name, r) => name != table && r.columns.any (·.references == some table)

def Schema.alter (table : String) (f : Relation V → Option (Relation V)) : Schema V → Option (Schema V)
  | [] => none
  | (name, r) :: S =>
    if table = name then (f r).map fun r' => (name, r') :: S
    else (Schema.alter table f S).map ((name, r) :: ·)

variable [DecidableEq V]

/-- A null passes. -/
def Check.holds (k : Check V) : Option V → Bool
  | none => true
  | some v => k.allowed.contains v

/-- What a table enforces of a row. -/
structure Relation.Fits (r : Relation V) (row : Row V) : Prop where
  notNull : ∀ column ∈ r.columns, column.nullable = false → row column.name ≠ none
  checked : ∀ k ∈ r.checks, k.holds (row k.column) = true
  absent : ∀ c, r.has c = false → row c = none

/-- What the database enforces. -/
structure LiveDatabase.Valid (db : LiveDatabase V) : Prop where
  fits : ∀ {t r}, db.schema.lookup t = some r → ∀ row ∈ db.rows t, r.Fits row
  gone : ∀ {t}, db.schema.lookup t = none → db.rows t = []

/-! ## Statements -/

inductive Statement (V : Type)
  | createTable (table : String) (relation : Relation V)
  | dropTable (table : String)
  | addColumn (table : String) (column : Column)
  | dropColumn (table column : String)
  | setNotNull (table column : String)
  /-- `UPDATE table SET column = value WHERE column` is one of `old`. -/
  | update (table column : String) (value : V) (old : List (Option V))
  | addCheck (table : String) (check : Check V)
  | dropCheck (table name : String)
  | createPolicy (table column : String)
  /-- `DROP POLICY IF EXISTS`. -/
  | dropPolicy (table : String)

namespace Statement

def table : Statement V → String
  | createTable t _ => t
  | dropTable t => t
  | addColumn t _ => t
  | dropColumn t _ => t
  | setNotNull t _ => t
  | update t _ _ _ => t
  | addCheck t _ => t
  | dropCheck t _ => t
  | createPolicy t _ => t
  | dropPolicy t => t

/-- The statement creates or drops its table. -/
def isWhole : Statement V → Bool
  | createTable _ _ => true
  | dropTable _ => true
  | _ => false

/-- What the statement makes of its table. -/
def relation : Statement V → Relation V → Option (Relation V)
  | addColumn _ column, r =>
    if r.has column.name then none else some { r with columns := r.columns ++ [column] }
  | dropColumn _ c, r =>
    if r.has c && r.policy != some c then
      some { r with columns := r.columns.filter (·.name != c), checks := r.checks.filter (·.column != c) }
    else none
  | setNotNull _ c, r =>
    if r.has c then
      some { r with columns := r.columns.map fun k => if k.name == c then { k with nullable := false } else k }
    else none
  | update _ c _ _, r => if r.has c then some r else none
  | addCheck _ k, r =>
    if r.has k.column && !r.checks.any (·.name == k.name) then some { r with checks := r.checks ++ [k] }
    else none
  | dropCheck _ name, r =>
    if r.checks.any (·.name == name) then some { r with checks := r.checks.filter (·.name != name) } else none
  | createPolicy _ c, r => if r.has c && r.policy.isNone then some { r with policy := some c } else none
  | dropPolicy _, r => some { r with policy := none }
  | createTable _ _, _ => none
  | dropTable _, _ => none

/-- What the statement makes of the schema. -/
def schema (s : Statement V) (S : Schema V) : Option (Schema V) :=
  match s with
  | createTable t r =>
    if !S.has t && r.columns.all (fun k => k.references.all S.has) && r.checks.all (fun k => r.has k.column) then
      some (S ++ [(t, r)])
    else none
  | dropTable t => if S.has t && !S.referenced t then some (S.filter (·.1 != t)) else none
  | addColumn t column => if column.references.all S.has then S.alter t (relation (addColumn t column)) else none
  | s => S.alter s.table s.relation

/-- The rows of the table allow the statement. -/
def admits (s : Statement V) (r : Relation V) (rows : List (Row V)) : Bool :=
  match s with
  | addColumn _ column => column.nullable || rows.isEmpty
  | setNotNull _ c => rows.all fun row => (row c).isSome
  | addCheck _ k => rows.all fun row => k.holds (row k.column)
  | update _ c v old =>
    (rows.all fun row => !old.contains (row c)) || r.checks.all fun k => k.column != c || k.allowed.contains v
  | _ => true

/-- What the statement makes of a cell in the column `c` of its table. -/
def cell (s : Statement V) (c : String) (v : Option V) : Option V :=
  match s with
  | addColumn _ column => if c = column.name then none else v
  | dropColumn _ d => if c = d then none else v
  | update _ d w old => if c = d && old.contains v then some w else v
  | _ => v

def rows (s : Statement V) (rows : List (Row V)) : List (Row V) :=
  if s.isWhole then [] else rows.map fun row c => s.cell c (row c)

/-- The table, as the schema has it. -/
def target (s : Statement V) (S : Schema V) : Relation V := (S.lookup s.table).getD { columns := [] }

def run (s : Statement V) (db : LiveDatabase V) : Option (LiveDatabase V) :=
  match s.schema db.schema with
  | none => none
  | some S =>
    if s.admits (s.target db.schema) (db.rows s.table) then
      some ⟨S, Function.update db.rows s.table (s.rows (db.rows s.table))⟩
    else none

end Statement

/-- A migration, which fails with its first statement that does. -/
def runAll : List (Statement V) → LiveDatabase V → Option (LiveDatabase V)
  | [], db => some db
  | s :: ss, db => (s.run db).bind (runAll ss)

/-! ## Facts about statements -/

omit [DecidableEq V] in
theorem lookup_alter {table : String} {f : Relation V → Option (Relation V)} {S S' : Schema V}
    (h : S.alter table f = some S') :
    ∃ r r', S.lookup table = some r ∧ f r = some r' ∧ S'.lookup table = some r' ∧
      ∀ t, t ≠ table → S'.lookup t = S.lookup t := by
  induction S generalizing S' with
  | nil => cases h
  | cons entry S ih =>
    obtain ⟨name, r⟩ := entry
    unfold Schema.alter at h
    split at h
    · rename_i e
      subst e
      obtain ⟨r', hr', rfl⟩ := Option.map_eq_some_iff.mp h
      refine ⟨r, r', by rw [List.lookup_cons_self], hr', by rw [List.lookup_cons_self], fun t ht => ?_⟩
      rw [List.lookup_cons, List.lookup_cons, beq_false_of_ne ht]
    · rename_i e
      obtain ⟨S₁, hS₁, rfl⟩ := Option.map_eq_some_iff.mp h
      obtain ⟨r₀, r', h₀, hf, h', ho⟩ := ih hS₁
      refine ⟨r₀, r', ?_, hf, ?_, fun t ht => ?_⟩
      · rw [List.lookup_cons, beq_false_of_ne e]; exact h₀
      · rw [List.lookup_cons, beq_false_of_ne e]; exact h'
      · rw [List.lookup_cons, List.lookup_cons, ho t ht]

omit [DecidableEq V] in
theorem lookup_filter (S : Schema V) (table t : String) :
    (S.filter (·.1 != table)).lookup t = if t = table then none else S.lookup t := by
  induction S with
  | nil => simp
  | cons entry S ih =>
    obtain ⟨name, r⟩ := entry
    by_cases hn : name = table
    · subst hn
      rw [List.filter_cons_of_neg (by simp), ih, List.lookup_cons]
      split
      · rfl
      · rename_i ht
        rw [beq_false_of_ne ht]
    · rw [List.filter_cons_of_pos (by simpa using hn), List.lookup_cons, List.lookup_cons, ih]
      by_cases ht : t = name
      · subst ht
        simp [hn]
      · rw [beq_false_of_ne ht]

omit [DecidableEq V] in
theorem has_false {r : Relation V} {c : String} : r.has c = false ↔ ∀ k ∈ r.columns, k.name ≠ c := by
  simp [Relation.has]

/-- What a statement can do to a schema: it creates its table, drops it, or alters it. -/
inductive SchemaStep (s : Statement V) (S S' : Schema V) : Prop
  | created (r : Relation V) (hs : s = .createTable s.table r) (hn : S.lookup s.table = none)
      (h : S'.lookup s.table = some r)
  | dropped (hs : s = .dropTable s.table) (h : S'.lookup s.table = none)
  | altered {r r' : Relation V} (hs : s.isWhole = false) (hr : S.lookup s.table = some r)
      (hr' : s.relation r = some r') (h : S'.lookup s.table = some r')

omit [DecidableEq V] in
theorem schema_step {s : Statement V} {S S' : Schema V} (h : s.schema S = some S') :
    SchemaStep s S S' ∧ ∀ t, t ≠ s.table → S'.lookup t = S.lookup t := by
  have halter : ∀ {s : Statement V}, s.isWhole = false → S.alter s.table s.relation = some S' →
      SchemaStep s S S' ∧ ∀ t, t ≠ s.table → S'.lookup t = S.lookup t := fun hs h => by
    obtain ⟨r, r', hr, hr', hl, ho⟩ := lookup_alter h
    exact ⟨.altered hs hr hr' hl, ho⟩
  cases s with
  | createTable table r =>
    simp only [Statement.schema] at h
    split at h
    · rename_i hc
      obtain rfl := Option.some.inj h
      simp only [Bool.and_eq_true, Schema.has, Bool.not_eq_true', Option.isSome_eq_false_iff,
        Option.isNone_iff_eq_none] at hc
      have hn := hc.1.1
      refine ⟨.created r rfl hn ?_, fun t ht => ?_⟩
      · show List.lookup table _ = _
        rw [List.lookup_append, hn]
        simp
      · have hne : (t == table) = false := beq_false_of_ne ht
        rw [List.lookup_append, List.lookup_cons, hne, List.lookup_nil, Option.or_none]
    · cases h
  | dropTable table =>
    simp only [Statement.schema] at h
    split at h
    · obtain rfl := Option.some.inj h
      refine ⟨.dropped rfl ?_, fun t ht => ?_⟩
      · exact (lookup_filter S table table).trans (if_pos rfl)
      · exact (lookup_filter S table t).trans (if_neg ht)
    · cases h
  | addColumn table column =>
    simp only [Statement.schema] at h
    split at h
    · exact halter (s := .addColumn table column) rfl h
    · cases h
  | dropColumn table c => exact halter (s := .dropColumn table c) rfl h
  | setNotNull table c => exact halter (s := .setNotNull table c) rfl h
  | update table c v old => exact halter (s := .update table c v old) rfl h
  | addCheck table k => exact halter (s := .addCheck table k) rfl h
  | dropCheck table name => exact halter (s := .dropCheck table name) rfl h
  | createPolicy table c => exact halter (s := .createPolicy table c) rfl h
  | dropPolicy table => exact halter (s := .dropPolicy table) rfl h

section

variable {r : Relation V} {row : Row V} {table : String}

theorem fits_addColumn {column : Column} (hf : r.Fits row) (hno : r.has column.name = false)
    (hnull : column.nullable = true) :
    Relation.Fits { r with columns := r.columns ++ [column] }
      fun c => (Statement.addColumn table column).cell c (row c) := by
  refine ⟨fun k hk hkn => ?_, fun k hk => ?_, fun c hc => ?_⟩
  · rcases List.mem_append.mp hk with hk | hk
    · simp only [Statement.cell, if_neg (has_false.mp hno k hk)]
      exact hf.notNull k hk hkn
    · rw [List.mem_singleton.mp hk, hnull] at hkn
      cases hkn
  · simp only [Statement.cell]
    split
    · rfl
    · exact hf.checked k hk
  · simp only [Statement.cell]
    split
    · rfl
    · refine hf.absent c (has_false.mpr fun k hk => ?_)
      exact has_false.mp hc k (List.mem_append_left _ hk)

theorem fits_dropColumn {d : String} (hf : r.Fits row) :
    Relation.Fits
      { r with columns := r.columns.filter (·.name != d), checks := r.checks.filter (·.column != d) }
      fun c => (Statement.dropColumn table d).cell c (row c) := by
  refine ⟨fun k hk hkn => ?_, fun k hk => ?_, fun c hc => ?_⟩
  · obtain ⟨hk, hne⟩ := List.mem_filter.mp hk
    simp only [Statement.cell, if_neg (show k.name ≠ d by simpa using hne)]
    exact hf.notNull k hk hkn
  · obtain ⟨hk, hne⟩ := List.mem_filter.mp hk
    simp only [Statement.cell, if_neg (show k.column ≠ d by simpa using hne)]
    exact hf.checked k hk
  · simp only [Statement.cell]
    split
    · rfl
    · rename_i hne
      refine hf.absent c (has_false.mpr fun k hk e => ?_)
      exact has_false.mp hc k (List.mem_filter.mpr ⟨hk, by simpa [e] using hne⟩) e

theorem fits_setNotNull {d : String} (hf : r.Fits row) (hset : row d ≠ none) :
    Relation.Fits
      { r with columns := r.columns.map fun k => if k.name == d then { k with nullable := false } else k } row := by
  refine ⟨fun k hk hkn => ?_, hf.checked, fun c hc => hf.absent c (has_false.mpr fun k hk e => ?_)⟩
  · obtain ⟨k₀, hk₀, rfl⟩ := List.mem_map.mp hk
    by_cases hd : k₀.name = d
    · simp only [hd, beq_self_eq_true, if_true]
      exact hset
    · have hb : (k₀.name == d) = false := beq_false_of_ne hd
      simp only [hb, Bool.false_eq_true, if_false] at hkn ⊢
      exact hf.notNull k₀ hk₀ hkn
  · refine has_false.mp hc _ (List.mem_map.mpr ⟨k, hk, rfl⟩) ?_
    split <;> exact e

theorem fits_update {d : String} {w : V} {old : List (Option V)} (hf : r.Fits row) (hhas : r.has d = true)
    (hset : row d ∈ old → ∀ k ∈ r.checks, k.column = d → w ∈ k.allowed) :
    r.Fits fun c => (Statement.update table d w old).cell c (row c) := by
  refine ⟨fun k hk hkn => ?_, fun k hk => ?_, fun c hc => ?_⟩
  · simp only [Statement.cell]
    split
    · exact Option.some_ne_none w
    · exact hf.notNull k hk hkn
  · simp only [Statement.cell]
    split
    · rename_i hold
      obtain ⟨hd, hmem⟩ : k.column = d ∧ row k.column ∈ old := by simpa using hold
      simpa [Check.holds] using hset (hd ▸ hmem) k hk hd
    · exact hf.checked k hk
  · have hne : c ≠ d := by
      rintro rfl
      rw [hhas] at hc
      cases hc
    simp only [Statement.cell, hne, decide_false, Bool.false_and, Bool.false_eq_true, if_false]
    exact hf.absent c hc

/-- A row that fits the table fits what an admitted statement makes of both. -/
theorem fits_cell {s : Statement V} {r' : Relation V} {rows : List (Row V)} (hs : s.relation r = some r')
    (ha : s.admits r rows = true) (hrow : row ∈ rows) (hf : r.Fits row) : r'.Fits fun c => s.cell c (row c) := by
  cases s with
  | createTable => cases hs
  | dropTable => cases hs
  | addColumn table column =>
    simp only [Statement.relation] at hs
    split at hs
    · cases hs
    · rename_i hno
      obtain rfl := Option.some.inj hs
      have hne : rows.isEmpty = false := List.isEmpty_eq_false_iff_exists_mem.mpr ⟨row, hrow⟩
      exact fits_addColumn hf (Bool.eq_false_iff.mpr hno) (by simpa [Statement.admits, hne] using ha)
  | dropColumn table d =>
    simp only [Statement.relation] at hs
    split at hs
    · obtain rfl := Option.some.inj hs
      exact fits_dropColumn hf
    · cases hs
  | setNotNull table d =>
    simp only [Statement.relation] at hs
    split at hs
    · obtain rfl := Option.some.inj hs
      exact fits_setNotNull hf (Option.isSome_iff_ne_none.mp (List.all_eq_true.mp ha row hrow))
    · cases hs
  | update table d w old =>
    simp only [Statement.relation] at hs
    split at hs
    · rename_i hhas
      obtain rfl := Option.some.inj hs
      refine fits_update hf hhas fun hmem k hk hd => ?_
      rcases Bool.or_eq_true_iff.mp ha with hno | hok
      · have hnot := List.all_eq_true.mp hno row hrow
        simp [hmem] at hnot
      · simpa [hd] using List.all_eq_true.mp hok k hk
    · cases hs
  | addCheck table k =>
    simp only [Statement.relation] at hs
    split at hs
    · obtain rfl := Option.some.inj hs
      refine ⟨hf.notNull, fun k' hk => ?_, hf.absent⟩
      rcases List.mem_append.mp hk with hk | hk
      · exact hf.checked k' hk
      · rw [List.mem_singleton.mp hk]
        exact List.all_eq_true.mp ha row hrow
    · cases hs
  | dropCheck table name =>
    simp only [Statement.relation] at hs
    split at hs
    · obtain rfl := Option.some.inj hs
      exact ⟨hf.notNull, fun k hk => hf.checked k (List.mem_filter.mp hk).1, hf.absent⟩
    · cases hs
  | createPolicy table c =>
    simp only [Statement.relation] at hs
    split at hs
    · obtain rfl := Option.some.inj hs
      exact ⟨hf.notNull, hf.checked, hf.absent⟩
    · cases hs
  | dropPolicy table =>
    obtain rfl := Option.some.inj hs
    exact ⟨hf.notNull, hf.checked, hf.absent⟩

end

theorem run_eq_some {s : Statement V} {db db' : LiveDatabase V} :
    s.run db = some db' ↔ ∃ S, s.schema db.schema = some S ∧
      s.admits (s.target db.schema) (db.rows s.table) = true ∧
      db' = ⟨S, Function.update db.rows s.table (s.rows (db.rows s.table))⟩ := by
  unfold Statement.run
  split
  · rename_i hn
    simp [hn]
  · rename_i S hS
    split
    · rename_i ha
      simp [hS, ha, eq_comm]
    · rename_i ha
      simp [ha]

/-- A statement leaves a valid database. -/
theorem run_valid {s : Statement V} {db db' : LiveDatabase V} (hv : db.Valid) (h : s.run db = some db') :
    db'.Valid := by
  obtain ⟨S, hS, ha, rfl⟩ := run_eq_some.mp h
  obtain ⟨hstep, hother⟩ := schema_step hS
  have hrows : ∀ t, t ≠ s.table → Function.update db.rows s.table (s.rows (db.rows s.table)) t = db.rows t :=
    fun t ht => Function.update_of_ne ht _ _
  constructor
  · intro t r hr row hrow
    dsimp only at hr hrow
    by_cases ht : t = s.table
    · subst ht
      rw [Function.update_self] at hrow
      unfold Statement.rows at hrow
      cases hstep with
      | created _ hs => rw [hs] at hrow; cases hrow
      | dropped hs => rw [hs] at hrow; cases hrow
      | @altered r₀ r₁ hs hr₀ hr₁ h₁ =>
        obtain rfl := Option.some.inj (hr.symm.trans h₁)
        rw [hs, if_neg Bool.false_ne_true] at hrow
        obtain ⟨row₀, hrow₀, rfl⟩ := List.mem_map.mp hrow
        rw [show s.target db.schema = r₀ by rw [Statement.target, hr₀, Option.getD_some]] at ha
        exact fits_cell hr₁ ha hrow₀ (hv.fits hr₀ row₀ hrow₀)
    · rw [hrows t ht] at hrow
      exact hv.fits ((hother t ht).symm.trans hr) row hrow
  · intro t hn
    dsimp only at hn ⊢
    by_cases ht : t = s.table
    · subst ht
      rw [Function.update_self]
      unfold Statement.rows
      cases hstep with
      | created _ _ _ h => rw [hn] at h; cases h
      | dropped hs => rw [hs]; rfl
      | altered _ _ _ h => rw [hn] at h; cases h
    · rw [hrows t ht]
      exact hv.gone ((hother t ht).symm.trans hn)

/-! ## Writes -/

/-- The table takes the row. -/
def Relation.takes (r : Relation V) (row : Row V) : Bool :=
  (r.columns.all fun column => column.nullable || (row column.name).isSome) &&
    r.checks.all fun k => k.holds (row k.column)

/-- The row, as far as the table has its columns. -/
def Relation.mask (r : Relation V) (row : Row V) : Row V := fun c => if r.has c then row c else none

/-- Other rows for a table. -/
def LiveDatabase.write (db : LiveDatabase V) (table : String) (rows : List (Row V)) : Option (LiveDatabase V) :=
  match db.schema.lookup table with
  | none => none
  | some r =>
    if (rows.map r.mask).all r.takes then some { db with rows := Function.update db.rows table (rows.map r.mask) }
    else none

theorem fits_mask {r : Relation V} {row : Row V} (h : r.takes (r.mask row) = true) : r.Fits (r.mask row) := by
  obtain ⟨hcolumns, hchecks⟩ := Bool.and_eq_true_iff.mp h
  refine ⟨fun k hk hn => ?_, fun k hk => List.all_eq_true.mp hchecks k hk, fun c hc => ?_⟩
  · have hk := List.all_eq_true.mp hcolumns k hk
    rw [hn, Bool.false_or] at hk
    exact Option.isSome_iff_ne_none.mp hk
  · unfold Relation.mask
    rw [hc, if_neg Bool.false_ne_true]

theorem write_valid {db db' : LiveDatabase V} (hv : db.Valid) {table : String} {rows : List (Row V)}
    (h : db.write table rows = some db') : db'.Valid ∧ db'.schema = db.schema := by
  unfold LiveDatabase.write at h
  split at h
  · cases h
  · rename_i r hr
    split at h
    · rename_i htakes
      obtain rfl := Option.some.inj h
      refine ⟨⟨fun {t r'} hr' row hrow => ?_, fun {t} hn => ?_⟩, rfl⟩
      · dsimp only at hr' hrow
        by_cases ht : t = table
        · subst ht
          obtain rfl := Option.some.inj (hr.symm.trans hr')
          rw [Function.update_self] at hrow
          have hrowtakes := List.all_eq_true.mp htakes row hrow
          obtain ⟨row, -, rfl⟩ := List.mem_map.mp hrow
          exact fits_mask hrowtakes
        · rw [Function.update_of_ne ht] at hrow
          exact hv.fits hr' row hrow
      · dsimp only at hn ⊢
        have ht : t ≠ table := by
          rintro rfl
          rw [hn] at hr
          cases hr
        rw [Function.update_of_ne ht]
        exact hv.gone hn
    · cases h

end CallingAgent.Framework.Migration
