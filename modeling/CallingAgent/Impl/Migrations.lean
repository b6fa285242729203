import CallingAgent.Framework.MigrationCheck
import CallingAgent.Impl.Models

/-!
# `services/api/alembic/versions`

The revisions, as far as they change tables, columns, `CHECK` constraints and policies,
and a database that they are applied to: `upgrade` and `downgrade` go one revision up or
down, as `alembic upgrade +1` and `alembic downgrade -1` do, each in a transaction. Between
them the rows of any table are replaced by any others that it takes (`write`).

A policy comes and goes with the `ENABLE` and `FORCE` of its table; the migrations are run
by the superuser, to whom it does not apply. Of a foreign key there is the table that it
refers to. Types and lengths of columns, server defaults, keys and indexes (the unique ones
are those of new tables), the role of the application and its grants are left out, but for
whether the database carries out the statements of `df467b3bdd3f` on them. Into these the
password and the name of the database are interpolated: `$$` in the one or a hyphen in the
other is a syntax error. The role, once it is there, and the name of the database stay.
-/

namespace CallingAgent.Impl.Migrations

open CallingAgent.Framework.Migration CallingAgent.Impl

inductive Value
  | text (s : String)
  | boolean (b : Bool)
  | integer (n : Int)
  | timestamp (t : Time)
  | json (document : Json)
  deriving DecidableEq

/-- `nullable=False` -/
def required (name : String) : Column := ⟨name, false, none⟩

/-- `nullable=True` -/
def optional (name : String) : Column := ⟨name, true, none⟩

/-- A foreign key to the primary key of `table`. -/
def reference (column : Column) (table : String) : Column := { column with references := some table }

/-- `column IN (values)` -/
def oneOf (name column : String) (values : List String) : Check Value := ⟨name, column, values.map .text⟩

def texts (values : List String) : List (Option Value) := values.map fun s => some (.text s)

structure Revision where
  revision : String
  downRevision : Option String
  /-- `upgrade` raises a `RuntimeError` if `APP_DB_PASSWORD` is unset or empty, and creates
  the role of the application, or sets its password. -/
  createsRole : Bool := false
  upgrade : List (Statement Value)
  downgrade : List (Statement Value)

/-- `228478a4578e_baseline_schema.py`. -/
def baseline : Revision where
  revision := "228478a4578e"
  downRevision := none
  upgrade :=
    [.createTable "calls"
      { columns :=
          [required "call_id", required "tenant_id", required "agent_id", optional "provider_call_id",
           optional "status", required "started_at", optional "ended_at", optional "end_reason",
           optional "created_at"]
        checks :=
          [oneOf "ck_calls_status" "status" ["active", "completed", "failed"]] },
      .createTable "clients"
      { columns :=
          [required "id", required "name", optional "slug", optional "plan", optional "status",
           optional "contact_email", optional "contact_phone", optional "api_limit",
           optional "max_concurrent_calls", optional "created_at", optional "updated_at"]
        checks :=
          [oneOf "ck_clients_plan" "plan" ["starter", "pro", "enterprise"],
           oneOf "ck_clients_status" "status" ["active", "suspended", "inactive"]] },
      .createTable "phone_number_routes"
      { columns :=
          [required "number", required "tenant_id", required "agent_id", optional "provider",
           optional "created_at"] },
      .createTable "admin_users"
      { columns :=
          [required "id", required "email", required "full_name", optional "password_hash", optional "role",
           reference (optional "tenant_id") "clients", optional "status", optional "created_at"]
        checks :=
          [oneOf "ck_admin_users_role" "role" ["super_admin", "tenant_admin", "agent"],
           oneOf "ck_admin_users_status" "status" ["active", "suspended"]] },
      .createTable "call_events"
      { columns :=
          [required "event_id", reference (required "call_id") "calls", required "tenant_id", required "event_type",
           optional "payload", optional "occurred_at"] },
      .createTable "call_turns"
      { columns :=
          [required "turn_id", reference (required "call_id") "calls", required "tenant_id", required "speaker",
           optional "language_code", required "text", required "started_at"]
        checks :=
          [oneOf "ck_call_turns_speaker" "speaker" ["caller", "agent"]] },
      .createTable "audit_logs"
      { columns :=
          [required "audit_id", optional "tenant_id", reference (optional "user_id") "admin_users",
           required "action", optional "before_value", optional "after_value", optional "occurred_at"] },
      .createTable "call_requests"
      { columns :=
          [required "id", optional "customer_name", optional "phone_number", optional "hotel_name",
           optional "check_in_date", optional "check_out_date", reference (optional "client_id") "clients",
           optional "created_at"] }]
  downgrade :=
    [.dropTable "call_requests",
      .dropTable "audit_logs",
      .dropTable "call_turns",
      .dropTable "call_events",
      .dropTable "admin_users",
      .dropTable "phone_number_routes",
      .dropTable "clients",
      .dropTable "calls"]

/-- With the column that a policy compares with `app.current_tenant`. -/
def tenantScopedTables : List (String × String) :=
  [("call_requests", "client_id"), ("admin_users", "tenant_id"), ("calls", "tenant_id"), ("call_turns", "tenant_id"),
   ("call_events", "tenant_id"), ("audit_logs", "tenant_id")]

def unscopedAppTables : List String := ["clients", "phone_number_routes"]

/-- `df467b3bdd3f_nk07_tenant_row_level_security.py`. -/
def rowLevelSecurity : Revision where
  revision := "df467b3bdd3f"
  downRevision := "228478a4578e"
  createsRole := true
  upgrade := tenantScopedTables.map fun (table, column) => .createPolicy table column
  downgrade := tenantScopedTables.reverse.map fun (table, _) => .dropPolicy table

/-- `7b1c9e2a4f3d_phase6_call_jobs.py`. -/
def callJobs : Revision where
  revision := "7b1c9e2a4f3d"
  downRevision := "df467b3bdd3f"
  upgrade :=
    [.createTable "call_jobs"
      { columns :=
          [required "job_id", optional "tenant_id", reference (optional "call_id") "calls",
           optional "provider_call_id", required "event_type", optional "payload", required "status",
           required "attempts", required "max_attempts", optional "last_error", required "created_at",
           required "updated_at", required "available_at", optional "processed_at"]
        checks :=
          [oneOf "ck_call_jobs_status" "status" ["queued", "processing", "completed", "failed", "retrying"]] },
      .createPolicy "call_jobs" "tenant_id"]
  downgrade :=
    [.dropPolicy "call_jobs",
      .dropTable "call_jobs"]

/-- `a1b2c3d4e5f6_client_i18n_fields.py`. -/
def clientI18n : Revision where
  revision := "a1b2c3d4e5f6"
  downRevision := "7b1c9e2a4f3d"
  upgrade :=
    [.addColumn "clients" (optional "country"),
      .addColumn "clients" (optional "timezone"),
      .addColumn "clients" (optional "currency"),
      .addColumn "clients" (optional "default_language"),
      .addColumn "clients" (optional "phone_country_code")]
  downgrade :=
    [.dropColumn "clients" "phone_country_code",
      .dropColumn "clients" "default_language",
      .dropColumn "clients" "currency",
      .dropColumn "clients" "timezone",
      .dropColumn "clients" "country"]

/-- `c3d4e5f6a7b8_phase1_call_state_machine.py`. -/
def callStateMachine : Revision where
  revision := "c3d4e5f6a7b8"
  downRevision := "a1b2c3d4e5f6"
  upgrade :=
    [.createTable "customers"
      { columns :=
          [required "id", reference (required "client_id") "clients", optional "name", required "phone",
           optional "email", optional "language_code", optional "timezone", optional "country_code",
           optional "notes", optional "external_id", optional "metadata_json", required "created_at",
           required "updated_at"] },
      .createPolicy "customers" "client_id",
      .addColumn "call_requests" (optional "status"),
      .update "call_requests" "status" (.text "pending") [none],
      .setNotNull "call_requests" "status",
      .addCheck "call_requests"
        (oneOf "ck_call_requests_status" "status"
          ["pending", "queued", "dialing", "ringing", "connected", "in_progress", "completed", "failed",
           "cancelled", "no_answer", "voicemail"]),
      .addColumn "call_requests" (optional "call_type"),
      .update "call_requests" "call_type" (.text "outbound") [none],
      .setNotNull "call_requests" "call_type",
      .addCheck "call_requests" (oneOf "ck_call_requests_call_type" "call_type" ["inbound", "outbound"]),
      .addColumn "call_requests" (optional "is_simulation"),
      .update "call_requests" "is_simulation" (.boolean false) [none],
      .setNotNull "call_requests" "is_simulation",
      .addColumn "call_requests" (reference (optional "customer_id") "customers"),
      .addColumn "call_requests" (optional "telephony_call_id"),
      .addColumn "call_requests" (optional "connection_status"),
      .update "call_requests" "connection_status" (.text "not_attempted") [none],
      .setNotNull "call_requests" "connection_status",
      .addCheck "call_requests"
        (oneOf "ck_call_requests_connection_status" "connection_status"
          ["not_attempted", "attempted", "connected", "failed_pre_connect"]),
      .addColumn "call_requests" (optional "failure_reason"),
      .addColumn "call_requests" (optional "duration_seconds"),
      .addColumn "call_requests" (optional "recording_url"),
      .addColumn "call_requests" (optional "notes"),
      .addColumn "call_requests" (optional "outcome"),
      .addColumn "calls" (optional "is_simulation"),
      .update "calls" "is_simulation" (.boolean false) [none],
      .setNotNull "calls" "is_simulation",
      .addColumn "calls" (optional "connection_status"),
      .update "calls" "connection_status" (.text "connected") [none],
      .setNotNull "calls" "connection_status",
      .addCheck "calls"
        (oneOf "ck_calls_connection_status" "connection_status"
          ["not_attempted", "attempted", "connected", "failed_pre_connect"]),
      .addColumn "calls" (reference (optional "call_request_id") "call_requests"),
      .dropCheck "calls" "ck_calls_status",
      .addCheck "calls"
        (oneOf "ck_calls_status" "status"
          ["active", "completed", "failed", "no_answer", "voicemail", "cancelled"])]
  downgrade :=
    [.update "calls" "status" (.text "failed") (texts ["no_answer", "voicemail", "cancelled"]),
      .dropCheck "calls" "ck_calls_status",
      .addCheck "calls" (oneOf "ck_calls_status" "status" ["active", "completed", "failed"]),
      .dropColumn "calls" "call_request_id",
      .dropCheck "calls" "ck_calls_connection_status",
      .dropColumn "calls" "connection_status",
      .dropColumn "calls" "is_simulation",
      .dropColumn "call_requests" "outcome",
      .dropColumn "call_requests" "notes",
      .dropColumn "call_requests" "recording_url",
      .dropColumn "call_requests" "duration_seconds",
      .dropColumn "call_requests" "failure_reason",
      .dropCheck "call_requests" "ck_call_requests_connection_status",
      .dropColumn "call_requests" "connection_status",
      .dropColumn "call_requests" "telephony_call_id",
      .dropColumn "call_requests" "customer_id",
      .dropColumn "call_requests" "is_simulation",
      .dropCheck "call_requests" "ck_call_requests_call_type",
      .dropColumn "call_requests" "call_type",
      .dropCheck "call_requests" "ck_call_requests_status",
      .dropColumn "call_requests" "status",
      .dropPolicy "customers",
      .dropTable "customers"]

/-- In the order of their `down_revision` (`versions_chained`). -/
def versions : List Revision := [baseline, rowLevelSecurity, callJobs, clientI18n, callStateMachine]

/-! ## A database under migration -/

/-- What an `upgrade` finds outside the tables. -/
structure Environment where
  /-- What `APP_DB_PASSWORD` is set to, or the empty string. -/
  appDbPassword : String
  /-- The database carries out the statements of `df467b3bdd3f` on the role and its grants. -/
  roleStatements : Bool

/-- What `df467b3bdd3f` needs. -/
def Environment.ready (env : Environment) : Bool := env.appDbPassword != "" && env.roleStatements

/-- `current` revisions have been applied. -/
structure World where
  current : Nat
  db : LiveDatabase Value

/-- A new database. -/
def World.init : World := ⟨0, [], fun _ => []⟩

inductive Action
  | upgrade (env : Environment)
  | downgrade
  | write (table : String) (rows : List (Row Value))

/-- The revision that `upgrade` applies. -/
def World.next (w : World) : Option Revision := versions[w.current]?

/-- The revision that `downgrade` reverts. -/
def World.last (w : World) : Option Revision := if w.current = 0 then none else versions[w.current - 1]?

/-- A migration that fails is rolled back. -/
def step (w : World) : Action → World
  | .upgrade env =>
    match w.next.bind fun r => if r.createsRole && !env.ready then none else runAll r.upgrade w.db with
    | some db => ⟨w.current + 1, db⟩
    | none => w
  | .downgrade =>
    match w.last.bind fun r => runAll r.downgrade w.db with
    | some db => ⟨w.current - 1, db⟩
    | none => w
  | .write table rows => { w with db := (w.db.write table rows).getD w.db }

end CallingAgent.Impl.Migrations
