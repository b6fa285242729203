import CallingAgent.Framework.Run
import CallingAgent.Impl.Migrations
import Mathlib.Data.Multiset.MapFold

/-!
# Migrations of a live database

Whatever has been written to the tables between them, a revision can be applied and
reverted at any time, and reverting one right after it leaves the database as it was
(`migrations_reversible`); from the second on, the tables of tenants have a policy
(`tables_secured`). Reverting one later keeps every row of the older tables, in
every older column, except that a call with one of the newer statuses becomes a failed
one (`downgrade_keeps`).

Both are read off the schemas: `inverse_at` is a run of the checks of
`Framework.MigrationCheck` on each revision.
-/

namespace CallingAgent.Proof.Migrations

open CallingAgent.Framework CallingAgent.Framework.Migration CallingAgent.Impl CallingAgent.Impl.Migrations

/-! ## The schema of each revision -/

/-- The schema after `k` revisions. -/
def schemaAt : Nat → Schema Value
  | 0 => []
  | k + 1 => (versions[k]?.bind fun r => verify r.upgrade (schemaAt k) (known (schemaAt k))).getD []

theorem versions_cases {k : Nat} {r : Revision} (h : versions[k]? = some r) :
    (k = 0 ∧ r = baseline) ∨ (k = 1 ∧ r = rowLevelSecurity) ∨ (k = 2 ∧ r = callJobs) ∨
      (k = 3 ∧ r = clientI18n) ∨ (k = 4 ∧ r = callStateMachine) := by
  obtain ⟨hk, rfl⟩ := List.getElem?_eq_some_iff.mp h
  have hk : k < 5 := hk
  have hcases : k = 0 ∨ k = 1 ∨ k = 2 ∨ k = 3 ∨ k = 4 := by omega
  rcases hcases with rfl | rfl | rfl | rfl | rfl <;> simp [versions]

/-- Each revision goes on from the one before it. -/
theorem versions_chained {k : Nat} {r : Revision} (h : versions[k]? = some r) :
    r.downRevision = if k = 0 then none else versions[k - 1]?.map (·.revision) := by
  rcases versions_cases h with ⟨rfl, rfl⟩ | ⟨rfl, rfl⟩ | ⟨rfl, rfl⟩ | ⟨rfl, rfl⟩ | ⟨rfl, rfl⟩ <;> rfl

theorem inverse_at {k : Nat} {r : Revision} (h : versions[k]? = some r) :
    Inverse r.upgrade r.downgrade (schemaAt k) (schemaAt (k + 1)) := by
  rcases versions_cases h with ⟨rfl, rfl⟩ | ⟨rfl, rfl⟩ | ⟨rfl, rfl⟩ | ⟨rfl, rfl⟩ | ⟨rfl, rfl⟩ <;>
    exact ⟨by unfold Leads; decide +kernel, by unfold Leads; decide +kernel, by decide +kernel⟩

/-! ## Every run -/

/-- The database is valid, with the schema of its revision. -/
structure Migrated (w : World) : Prop where
  valid : w.db.Valid
  schema : w.db.schema = schemaAt w.current
  known : w.current ≤ versions.length

theorem migrated_init : Migrated .init where
  valid := ⟨fun h => (by cases h), fun _ => rfl⟩
  schema := rfl
  known := Nat.zero_le _

variable {w : World}

/-- `upgrade` raises. -/
def Raises (w : World) (env : Environment) : Prop :=
  w.current = 1 ∧ (env.appDbPassword = "" ∨ env.roleStatements = false)

theorem raises_iff {r : Revision} (hr : w.next = some r) {env : Environment} :
    (r.createsRole && !env.ready) = true ↔ Raises w env := by
  have hready : env.ready = false ↔ env.appDbPassword = "" ∨ env.roleStatements = false := by
    simp only [Environment.ready, Bool.and_eq_false_iff, bne_eq_false_iff_eq]
  unfold Raises
  rw [Bool.and_eq_true, Bool.not_eq_true', hready]
  rcases versions_cases hr with ⟨e, rfl⟩ | ⟨e, rfl⟩ | ⟨e, rfl⟩ | ⟨e, rfl⟩ | ⟨e, rfl⟩ <;>
    simp [e, baseline, rowLevelSecurity, callJobs, clientI18n, callStateMachine]

theorem step_raises {env : Environment} (hp : Raises w env) : step w (.upgrade env) = w := by
  have hr : w.next = some rowLevelSecurity := by rw [World.next, hp.1]; rfl
  have hfails := (raises_iff hr).mpr hp
  simp only [step, hr, Option.bind_some, hfails, if_true]

theorem step_upgrade (hw : Migrated w) {r : Revision} (hr : w.next = some r) {env : Environment} (hp : ¬Raises w env) :
    ∃ db, step w (.upgrade env) = ⟨w.current + 1, db⟩ ∧ db.Valid ∧ db.schema = schemaAt (w.current + 1) ∧
      runAll r.downgrade db = some w.db := by
  obtain ⟨db, hup, hschema, hvalid, hdown⟩ := Inverse.run (hw.schema ▸ inverse_at hr) hw.valid
  have hasked : (r.createsRole && !env.ready) = false := Bool.eq_false_iff.mpr fun e => hp ((raises_iff hr).mp e)
  refine ⟨db, ?_, hvalid, hschema, hdown⟩
  simp only [step, hr, Option.bind_some, hasked, Bool.false_eq_true, if_false, hup]

theorem step_downgrade (hw : Migrated w) {k : Nat} (hk : w.current = k + 1) :
    ∃ r db, versions[k]? = some r ∧ runAll r.downgrade w.db = some db ∧ step w .downgrade = ⟨k, db⟩ ∧
      db.Valid ∧ db.schema = schemaAt k := by
  have hlt : k < versions.length := by have := hw.known; omega
  have hr : versions[k]? = some versions[k] := List.getElem?_eq_getElem hlt
  obtain ⟨db, hdown, hschema, hvalid⟩ := Leads.run (hw.schema ▸ hk ▸ (inverse_at hr).back) hw.valid
  have hlast : w.last = some versions[k] := by
    unfold World.last
    rw [hk, if_neg (Nat.succ_ne_zero k), Nat.add_sub_cancel, hr]
  exact ⟨_, db, hr, hdown, by simp only [step, hlast, Option.bind_some, hdown, hk, Nat.add_sub_cancel], hvalid,
    hschema⟩

theorem next_of_lt (h : w.current < versions.length) : w.next = some versions[w.current] :=
  List.getElem?_eq_getElem h

theorem migrated_step (hw : Migrated w) (a : Action) : Migrated (step w a) := by
  cases a with
  | upgrade env =>
    by_cases hp : Raises w env
    · rw [step_raises hp]
      exact hw
    by_cases hlt : w.current < versions.length
    · obtain ⟨db, e, hvalid, hschema, -⟩ := step_upgrade hw (next_of_lt hlt) hp
      rw [e]
      exact ⟨hvalid, hschema, hlt⟩
    · have hn : w.next = none := List.getElem?_eq_none (Nat.le_of_not_lt hlt)
      simp only [step, hn, Option.bind_none]
      exact hw
  | downgrade =>
    cases hk : w.current with
    | zero =>
      have hn : w.last = none := if_pos hk
      simp only [step, hn, Option.bind_none]
      exact hw
    | succ k =>
      obtain ⟨-, db, -, -, e, hvalid, hschema⟩ := step_downgrade hw hk
      have hle : k + 1 ≤ versions.length := hk ▸ hw.known
      rw [e]
      exact ⟨hvalid, hschema, Nat.le_of_succ_le hle⟩
  | write table rows =>
    simp only [step]
    cases hwrite : w.db.write table rows with
    | none => exact hw
    | some db =>
      obtain ⟨hvalid, hschema⟩ := write_valid hw.valid hwrite
      exact ⟨hvalid, hschema.trans hw.schema, hw.known⟩

theorem migrated_run (as : List Action) : Migrated (run step .init as) :=
  run_inv migrated_init (fun _ a h => migrated_step h a) as

/-- Migrations do not fail on what is in the database, and can be taken back. However a
new database has been upgraded, downgraded and written to, it is valid and has the schema
of its revision; if it is not at the last revision, the next one applies, and reverting
that gives exactly the database before, unless `rowLevelSecurity` is to be applied without
a password or the database refuses its statements on the role, which changes nothing; if
it is not at the first, its revision can be reverted. -/
theorem migrations_reversible (as : List Action) :
    let w := run step .init as
    (w.db.Valid ∧ w.db.schema = schemaAt w.current ∧ w.current ≤ versions.length) ∧
    (∀ env, Raises w env → step w (.upgrade env) = w) ∧
    (∀ env, ¬Raises w env → w.current < versions.length →
      (step w (.upgrade env)).current = w.current + 1 ∧ step (step w (.upgrade env)) .downgrade = w) ∧
    (w.current ≠ 0 → (step w .downgrade).current + 1 = w.current) := by
  intro w
  have hw : Migrated w := migrated_run as
  refine ⟨⟨hw.valid, hw.schema, hw.known⟩, fun env hp => step_raises hp, fun env hp hlt => ?_, fun hne => ?_⟩
  · obtain ⟨db, e, -, -, hdown⟩ := step_upgrade hw (next_of_lt hlt) hp
    have hlast : (step w (.upgrade env)).last = some versions[w.current] := by
      rw [e]
      exact (if_neg (Nat.succ_ne_zero _)).trans (List.getElem?_eq_getElem hlt)
    refine ⟨by rw [e], ?_⟩
    rw [e] at hlast ⊢
    simp only [step, hlast, Option.bind_some, hdown, Nat.add_sub_cancel]
  · obtain ⟨k, hk⟩ := Nat.exists_eq_succ_of_ne_zero hne
    obtain ⟨-, db, -, -, e, -, -⟩ := step_downgrade hw hk
    rw [e, hk]

/-! ## Row-level security -/

/-- What the policies of a schema are to be. -/
def secured (S : Schema Value) : Bool :=
  S.all fun (t, r) =>
    if t ∈ unscopedAppTables then r.policy.isNone
    else (r.policy == some "client_id" || r.policy == some "tenant_id") && r.policy.any r.has

theorem secured_at {k : Nat} (h2 : 2 ≤ k) (h5 : k ≤ versions.length) : secured (schemaAt k) = true := by
  have h5 : k ≤ 5 := h5
  have hcases : k = 2 ∨ k = 3 ∨ k = 4 ∨ k = 5 := by omega
  rcases hcases with rfl | rfl | rfl | rfl <;> decide +kernel

/-- No table of tenants is left open. From `rowLevelSecurity` on, in every state of every
run, a table has a policy on its column of the tenant, unless it is one of those that are
not scoped, which have none. -/
theorem tables_secured (as : List Action) (h : 2 ≤ (run step .init as).current) {t : String} {r : Relation Value}
    (hr : (run step .init as).db.schema.lookup t = some r) :
    if t ∈ unscopedAppTables then r.policy = none
    else ∃ c, (c = "client_id" ∨ c = "tenant_id") ∧ r.policy = some c ∧ r.has c = true := by
  have hw := migrated_run as
  rw [hw.schema] at hr
  have ht := List.all_eq_true.mp (secured_at h hw.known) (t, r) (mem_of_lookup hr)
  dsimp only at ht
  by_cases hmem : t ∈ unscopedAppTables
  · rw [if_pos hmem] at ht ⊢
    exact Option.isNone_iff_eq_none.mp ht
  · rw [if_neg hmem] at ht ⊢
    obtain ⟨hname, hhas⟩ := Bool.and_eq_true_iff.mp ht
    obtain ⟨c, hc, hhas⟩ := (Option.any_eq_true _ _).mp hhas
    rw [hc] at hname ⊢
    exact ⟨c, by simpa using hname, rfl, hhas⟩

/-- `alembic upgrade head`, on a new database. -/
def upgradeHead : List Action := List.replicate 5 (.upgrade ⟨"secret", true⟩)

theorem tables_secured_customers :
    ∃ r c, (run step .init upgradeHead).db.schema.lookup "customers" = some r ∧ r.policy = some c ∧ r.has c = true := by
  obtain ⟨r, hr⟩ : ∃ r, (run step .init upgradeHead).db.schema.lookup "customers" = some r :=
    Option.isSome_iff_exists.mp (by decide +kernel)
  have h := tables_secured upgradeHead (by decide +kernel) hr
  rw [if_neg (by decide)] at h
  obtain ⟨c, -, hc, hhas⟩ := h
  exact ⟨r, c, hr, hc, hhas⟩

/-! ## What a downgrade keeps -/

/-- The statuses that a call can have since `callStateMachine`. -/
def newStatuses : List (Option Value) := texts ["no_answer", "voicemail", "cancelled"]

/-- What a downgrade makes of a value. -/
def narrow (t c : String) (v : Option Value) : Option Value :=
  if t = "calls" ∧ c = "status" ∧ v ∈ newStatuses then some (.text "failed") else v

/-- A row of a table, in the columns of an older revision. -/
def narrowRow (t : String) (r : Relation Value) (row : Row Value) : Row Value := fun c =>
  if r.has c then narrow t c (row c) else none

/-- `narrow` is what the statements do to the values that a column can have. -/
def narrows (down : List (Statement Value)) (S S' : Schema Value) : Bool :=
  S.all fun (t, r) =>
    (down.all fun s => s.table != t || !s.isWhole) && (S'.lookup t).isSome &&
      r.columns.all fun column =>
        !(columns down t).contains column.name && !(t == "calls" && column.name == "status") ||
          ((S'.lookup t).bind (·.known column.name)).any
            (·.all fun v => cells down t column.name v == narrow t column.name v)

theorem narrows_at {k : Nat} {r : Revision} (h : versions[k]? = some r) :
    narrows r.downgrade (schemaAt k) (schemaAt (k + 1)) = true := by
  rcases versions_cases h with ⟨rfl, rfl⟩ | ⟨rfl, rfl⟩ | ⟨rfl, rfl⟩ | ⟨rfl, rfl⟩ | ⟨rfl, rfl⟩ <;> decide +kernel

theorem cells_eq_narrow {down : List (Statement Value)} {S S' : Schema Value} (h : narrows down S S' = true)
    {t : String} {r r' : Relation Value} (hr : S.lookup t = some r) (hr' : S'.lookup t = some r') {row : Row Value}
    (hf : r'.Fits row) {c : String} (hc : r.has c = true) : cells down t c (row c) = narrow t c (row c) := by
  obtain ⟨column, hcolumn, rfl⟩ : ∃ column ∈ r.columns, column.name = c := by simpa [Relation.has] using hc
  have ht := List.all_eq_true.mp h (t, r) (mem_of_lookup hr)
  have hcol := List.all_eq_true.mp (Bool.and_eq_true_iff.mp ht).2 column hcolumn
  rcases Bool.or_eq_true_iff.mp hcol with hno | hval
  · simp only [Bool.and_eq_true, Bool.not_eq_true', List.contains_eq_mem, decide_eq_false_iff_not,
      Bool.and_eq_false_imp, beq_iff_eq, beq_eq_false_iff_ne] at hno
    rw [cells_of_columns hno.1]
    exact (if_neg fun h => hno.2 h.1 h.2.1).symm
  · obtain ⟨vs, hvs, hall⟩ := (Option.any_eq_true _ _).mp hval
    rw [hr', Option.bind_some] at hvs
    exact eq_of_beq (List.all_eq_true.mp hall _ (mem_known hf hvs))

theorem rows_downgrade (hw : Migrated w) (hne : w.current ≠ 0) (t : String) :
    (step w .downgrade).db.rows t =
      match (schemaAt (w.current - 1)).lookup t with
      | some r => (w.db.rows t).map (narrowRow t r)
      | none => [] := by
  obtain ⟨k, hk⟩ := Nat.exists_eq_succ_of_ne_zero hne
  obtain ⟨rev, db, hrev, hdown, e, hvalid, hschema⟩ := step_downgrade hw hk
  rw [e, hk, Nat.succ_sub_one]
  cases hr : (schemaAt k).lookup t with
  | none => exact hvalid.gone (by rw [hschema]; exact hr)
  | some r =>
    have hn := narrows_at hrev
    have ht := Bool.and_eq_true_iff.mp (List.all_eq_true.mp hn (t, r) (mem_of_lookup hr))
    have hwhole : ∀ s ∈ rev.downgrade, s.table = t → s.isWhole = false := fun s hs e => by
      have hs := List.all_eq_true.mp (Bool.and_eq_true_iff.mp ht.1).1 s hs
      simpa [e] using hs
    obtain ⟨r', hr'⟩ := Option.isSome_iff_exists.mp (Bool.and_eq_true_iff.mp ht.1).2
    have hrows := cells_of_run hwhole hdown
    show db.rows t = _
    rw [hrows]
    refine List.map_congr_left fun row hrow => ?_
    have hfit := hw.valid.fits (by rw [hw.schema, hk]; exact hr') row hrow
    funext c
    unfold narrowRow
    split
    · rename_i hc
      exact cells_eq_narrow hn hr hr' hfit hc
    · rename_i hc
      -- A column that the older schema lacks is null in a row that fits it.
      have hmem : (fun c => cells rev.downgrade t c (row c)) ∈ db.rows t := by
        rw [hrows]
        exact List.mem_map_of_mem hrow
      exact (hvalid.fits (by rw [hschema]; exact hr) _ hmem).absent c (by simpa using hc)

/-- What a downgrade keeps. At every moment of every run in which a revision can be
reverted, reverting it leaves of each table of the older schema all rows, as often as they
were there, with the older columns and their values, but for the statuses of calls that
the older schema lacks, which become `failed`; and no other rows. -/
theorem downgrade_keeps (as : List Action) (hne : (run step .init as).current ≠ 0) (t : String) :
    ((step (run step .init as) .downgrade).db.rows t : Multiset (Row Value)) =
      match (schemaAt ((run step .init as).current - 1)).lookup t with
      | some r => ((run step .init as).db.rows t : Multiset (Row Value)).map (narrowRow t r)
      | none => 0 := by
  rw [rows_downgrade (migrated_run as) hne t]
  split
  · rfl
  · rfl

/-- A call that went to voicemail. -/
def voicemail : List Action :=
  upgradeHead ++
    [.write "calls" [fun c =>
      if c ∈ ["call_id", "tenant_id", "agent_id"] then some (.text "c1")
      else if c = "status" then some (.text "voicemail")
      else if c = "started_at" then some (.timestamp 0)
      else if c = "is_simulation" then some (.boolean false)
      else if c = "connection_status" then some (.text "attempted")
      else none]]

theorem downgrade_keeps_voicemail :
    ((step (run step .init voicemail) .downgrade).db.rows "calls" : Multiset (Row Value)).map (· "status") =
      {some (.text "failed")} := by
  rw [downgrade_keeps voicemail (by decide +kernel) "calls"]
  decide +kernel

end CallingAgent.Proof.Migrations
