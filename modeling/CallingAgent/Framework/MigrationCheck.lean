import CallingAgent.Framework.Migration

/-!
# Migrations that cannot fail

`verify` runs a migration on a schema alone, with what is known of the values of each
column (`Facts`). A migration that passes it on what the checks say (`Leads`) succeeds on
every valid database with that schema, and leaves a valid database with the schema that
was computed (`verify_sound`, `Leads.run`).

A migration that neither creates nor drops a table acts on each of its cells by itself
(`cells_of_run`). So whether one migration takes back another (`Inverse`) can be told
from the schema as well (`Inverse.run`).
-/

namespace CallingAgent.Framework.Migration

variable {V : Type} [DecidableEq V]

/-! ## What is known of the values -/

/-- The values that a column of a table can have, if that is known. -/
abbrev Facts (V : Type) := String → String → Option (List (Option V))

/-- What is known from the checks. -/
def Relation.known (r : Relation V) (c : String) : Option (List (Option V)) :=
  (r.checks.find? (·.column == c)).map fun k => none :: k.allowed.map some

def known (S : Schema V) : Facts V := fun t c => (S.lookup t).bind (·.known c)

/-- The value of a column that has a check. -/
theorem mem_known {r : Relation V} {row : Row V} (hf : r.Fits row) {c : String} {vs : List (Option V)}
    (h : r.known c = some vs) : row c ∈ vs := by
  obtain ⟨k, hk, rfl⟩ := Option.map_eq_some_iff.mp h
  have hc : k.column = c := by simpa using List.find?_some hk
  have hholds := hf.checked k (List.mem_of_find?_eq_some hk)
  rw [hc] at hholds
  cases hval : row c with
  | none => exact List.mem_cons_self
  | some v =>
    rw [hval] at hholds
    exact List.mem_cons_of_mem _ (List.mem_map_of_mem (by simpa [Check.holds] using hholds))

namespace Statement

/-- All rows that are as known admit the statement. -/
def safe (s : Statement V) (r : Relation V) (facts : String → Option (List (Option V))) : Bool :=
  match s with
  | addColumn _ column => column.nullable
  | setNotNull _ c => (facts c).any (·.all Option.isSome)
  | addCheck _ k => (facts k.column).any (·.all k.holds)
  | update _ c v _ => r.checks.all fun k => k.column != c || k.allowed.contains v
  | _ => true

/-- What is known after the statement. -/
def learned (s : Statement V) (facts : String → Option (List (Option V))) (c : String) :
    Option (List (Option V)) :=
  if s.isWhole then some []
  else
    match s with
    | addColumn _ column => if c = column.name then some [none] else facts c
    | _ => (facts c).map (·.map (s.cell c))

end Statement

/-- The schema that a migration leaves, if it cannot fail. -/
def verify : List (Statement V) → Schema V → Facts V → Option (Schema V)
  | [], S, _ => some S
  | s :: ss, S, facts =>
    if s.safe (s.target S) (facts s.table) then
      (s.schema S).bind fun S' => verify ss S' (Function.update facts s.table (s.learned (facts s.table)))
    else none

/-- The rows are as known. -/
def Describes (facts : Facts V) (db : LiveDatabase V) : Prop :=
  ∀ t c vs, facts t c = some vs → ∀ row ∈ db.rows t, row c ∈ vs

theorem describes_known {db : LiveDatabase V} (hv : db.Valid) : Describes (known db.schema) db := by
  intro t c vs hf row hrow
  obtain ⟨r, hr, hk⟩ := Option.bind_eq_some_iff.mp hf
  exact mem_known (hv.fits hr row hrow) hk

theorem admits_of_safe {s : Statement V} {r : Relation V} {facts : String → Option (List (Option V))}
    {rows : List (Row V)} (hs : s.safe r facts = true)
    (hd : ∀ c vs, facts c = some vs → ∀ row ∈ rows, row c ∈ vs) : s.admits r rows = true := by
  cases s with
  | addColumn table column => exact Bool.or_eq_true_iff.mpr (.inl hs)
  | setNotNull table c =>
    obtain ⟨vs, hvs, hall⟩ := (Option.any_eq_true _ _).mp hs
    exact List.all_eq_true.mpr fun row hrow => List.all_eq_true.mp hall _ (hd c vs hvs row hrow)
  | addCheck table k =>
    obtain ⟨vs, hvs, hall⟩ := (Option.any_eq_true _ _).mp hs
    exact List.all_eq_true.mpr fun row hrow => List.all_eq_true.mp hall _ (hd _ vs hvs row hrow)
  | update table c v old => exact Bool.or_eq_true_iff.mpr (.inr hs)
  | _ => rfl

theorem describes_learned {s : Statement V} {facts : Facts V} {db : LiveDatabase V} (hd : Describes facts db)
    (S : Schema V) :
    Describes (Function.update facts s.table (s.learned (facts s.table)))
      ⟨S, Function.update db.rows s.table (s.rows (db.rows s.table))⟩ := by
  intro t c vs hf row hrow
  dsimp only at hrow
  by_cases ht : t = s.table
  · subst ht
    rw [Function.update_self] at hf hrow
    unfold Statement.rows at hrow
    unfold Statement.learned at hf
    split at hf
    · rename_i hs
      rw [if_pos hs] at hrow
      cases hrow
    · rename_i hs
      rw [if_neg hs] at hrow
      obtain ⟨row, hmem, rfl⟩ := List.mem_map.mp hrow
      have hmap : ∀ vs', facts s.table c = some vs' → row c ∈ vs' := fun vs' e => hd _ c vs' e row hmem
      split at hf
      · simp only [Statement.cell]
        split at hf
        · rename_i e
          rw [if_pos e, ← Option.some.inj hf]
          exact List.mem_cons_self
        · rename_i e
          rw [if_neg e]
          exact hmap vs hf
      · obtain ⟨vs', hvs', rfl⟩ := Option.map_eq_some_iff.mp hf
        exact List.mem_map_of_mem (hmap vs' hvs')
  · rw [Function.update_of_ne ht] at hf hrow
    exact hd t c vs hf row hrow

/-- A migration that passes succeeds on every valid database as known, and leaves a
valid one with the schema that was computed. -/
theorem verify_sound {ss : List (Statement V)} {facts : Facts V} {db : LiveDatabase V} {S : Schema V}
    (hv : db.Valid) (hd : Describes facts db) (h : verify ss db.schema facts = some S) :
    ∃ db', runAll ss db = some db' ∧ db'.schema = S ∧ db'.Valid := by
  induction ss generalizing db facts with
  | nil => exact ⟨db, rfl, Option.some.inj h, hv⟩
  | cons s ss ih =>
    unfold verify at h
    split at h
    · rename_i hs
      obtain ⟨S', hS', h⟩ := Option.bind_eq_some_iff.mp h
      have hrun := run_eq_some.mpr ⟨S', hS', admits_of_safe hs fun c vs => hd s.table c vs, rfl⟩
      obtain ⟨db', hdb', hschema, hvalid⟩ := ih (run_valid hv hrun) (describes_learned hd S') h
      exact ⟨db', by rw [runAll, hrun]; exact hdb', hschema, hvalid⟩
    · cases h

/-- A migration that passes on what the checks say. -/
def Leads (ss : List (Statement V)) (S S' : Schema V) : Prop := verify ss S (known S) = some S'

theorem Leads.run {ss : List (Statement V)} {db : LiveDatabase V} {S' : Schema V} (h : Leads ss db.schema S')
    (hv : db.Valid) : ∃ db', runAll ss db = some db' ∧ db'.schema = S' ∧ db'.Valid :=
  verify_sound hv (describes_known hv) h

/-! ## What a migration does to the rows -/

/-- What a migration makes of a cell. -/
def cells (ss : List (Statement V)) (t c : String) (v : Option V) : Option V :=
  ss.foldl (fun v s => if s.table = t then s.cell c v else v) v

theorem cells_of_run {ss : List (Statement V)} {t : String}
    (hw : ∀ s ∈ ss, s.table = t → s.isWhole = false) {db db' : LiveDatabase V} (h : runAll ss db = some db') :
    db'.rows t = (db.rows t).map fun row c => cells ss t c (row c) := by
  induction ss generalizing db with
  | nil =>
    obtain rfl := Option.some.inj h
    exact (List.map_id' _).symm
  | cons s ss ih =>
    obtain ⟨db₁, h₁, h⟩ := Option.bind_eq_some_iff.mp h
    obtain ⟨S, -, -, rfl⟩ := run_eq_some.mp h₁
    rw [ih (fun s hs => hw s (List.mem_cons_of_mem _ hs)) h]
    by_cases ht : s.table = t
    · subst ht
      have hs := hw s List.mem_cons_self rfl
      simp only [Function.update_self, Statement.rows, hs, Bool.false_eq_true, if_false, List.map_map,
        Function.comp_def, cells, List.foldl_cons, if_true]
    · simp only [Function.update_of_ne (Ne.symm ht), cells, List.foldl_cons, if_neg ht]

theorem runAll_append (ss ss' : List (Statement V)) (db : LiveDatabase V) :
    runAll (ss ++ ss') db = (runAll ss db).bind (runAll ss') := by
  induction ss generalizing db with
  | nil => rfl
  | cons s ss ih =>
    simp only [List.cons_append, runAll]
    cases s.run db with
    | none => rfl
    | some db' => exact ih db'

/-- The column that a statement acts on. -/
def Statement.column : Statement V → Option String
  | .addColumn _ column => some column.name
  | .dropColumn _ c => some c
  | .update _ c _ _ => some c
  | _ => none

/-- The columns of a table that a migration acts on. -/
def columns (ss : List (Statement V)) (t : String) : List String :=
  (ss.filter (·.table == t)).filterMap Statement.column

theorem cell_of_column {s : Statement V} {c : String} (h : s.column ≠ some c) (v : Option V) : s.cell c v = v := by
  cases s with
  | addColumn t column => exact if_neg fun e => h (congrArg some e.symm)
  | dropColumn t d => exact if_neg fun e => h (congrArg some e.symm)
  | update t d w old =>
    have hne : c ≠ d := fun e => h (congrArg some e.symm)
    simp [Statement.cell, hne]
  | _ => rfl

/-- A column that no statement acts on. -/
theorem cells_of_columns {ss : List (Statement V)} {t c : String} (h : c ∉ columns ss t) (v : Option V) :
    cells ss t c v = v := by
  have hkeep : ∀ s ∈ ss, s.table = t → s.cell c v = v := fun s hs ht =>
    cell_of_column (fun e => h (List.mem_filterMap.mpr ⟨s, List.mem_filter.mpr ⟨hs, by simp [ht]⟩, e⟩)) v
  clear h
  induction ss with
  | nil => rfl
  | cons s ss ih =>
    have hs : (if s.table = t then s.cell c v else v) = v := by
      split
      · exact hkeep s List.mem_cons_self ‹_›
      · rfl
    rw [cells, List.foldl_cons, hs]
    exact ih fun s hs => hkeep s (List.mem_cons_of_mem _ hs)

/-- A migration leaves the rows of a table as they are, if they fit it. -/
def keepsTable (ss : List (Statement V)) (t : String) (r : Relation V) : Bool :=
  (ss.all fun s => s.table != t || !s.isWhole) &&
    (columns ss t).all fun c =>
      if r.has c then (r.known c).any (·.all fun v => decide (cells ss t c v = v))
      else decide (cells ss t c none = none)

theorem cells_of_keepsTable {ss : List (Statement V)} {t : String} {r : Relation V}
    (h : keepsTable ss t r = true) {row : Row V} (hf : r.Fits row) : (fun c => cells ss t c (row c)) = row := by
  funext c
  by_cases hc : c ∈ columns ss t
  · have hcell := List.all_eq_true.mp (Bool.and_eq_true_iff.mp h).2 c hc
    split at hcell
    · obtain ⟨vs, hvs, hall⟩ := (Option.any_eq_true _ _).mp hcell
      exact of_decide_eq_true (List.all_eq_true.mp hall (row c) (mem_known hf hvs))
    · rename_i hno
      rw [hf.absent c (by simpa using hno)]
      exact of_decide_eq_true hcell
  · exact cells_of_columns hc (row c)

omit [DecidableEq V] in
theorem mem_of_lookup {S : Schema V} {t : String} {r : Relation V} (h : S.lookup t = some r) : (t, r) ∈ S := by
  obtain ⟨l₁, l₂, rfl, -⟩ := List.lookup_eq_some_iff.mp h
  exact List.mem_append_right _ List.mem_cons_self

/-- `down` takes back what `up` does to any valid database with the schema `S`, of which
`up` makes `S'`. -/
structure Inverse (up down : List (Statement V)) (S S' : Schema V) : Prop where
  makes : Leads up S S'
  back : Leads down S' S
  keeps : (S.all fun (t, r) => keepsTable (up ++ down) t r) = true

theorem Inverse.run {up down : List (Statement V)} {S' : Schema V} {db : LiveDatabase V}
    (h : Inverse up down db.schema S') (hv : db.Valid) :
    ∃ db', runAll up db = some db' ∧ db'.schema = S' ∧ db'.Valid ∧ runAll down db' = some db := by
  obtain ⟨db', hup, rfl, hv'⟩ := h.makes.run hv
  obtain ⟨db'', hdown, hS, hv''⟩ := h.back.run hv'
  refine ⟨db', hup, rfl, hv', ?_⟩
  have hrows : db''.rows = db.rows := by
    funext t
    cases hr : db.schema.lookup t with
    | none => rw [hv.gone hr, hv''.gone (by rw [hS]; exact hr)]
    | some r =>
      have hk : keepsTable (up ++ down) t r = true := List.all_eq_true.mp h.keeps (t, r) (mem_of_lookup hr)
      have hboth : runAll (up ++ down) db = some db'' := by rw [runAll_append, hup]; exact hdown
      have hwhole : ∀ s ∈ up ++ down, s.table = t → s.isWhole = false := fun s hs ht => by
        have hs := List.all_eq_true.mp (Bool.and_eq_true_iff.mp hk).1 s hs
        simpa [ht] using hs
      rw [cells_of_run hwhole hboth]
      exact (List.map_congr_left fun row hrow => cells_of_keepsTable hk (hv.fits hr row hrow)).trans (List.map_id' _)
  rw [hdown]
  obtain ⟨S'', rows''⟩ := db''
  obtain ⟨S, rows⟩ := db
  cases hS
  cases hrows
  rfl

end CallingAgent.Framework.Migration
