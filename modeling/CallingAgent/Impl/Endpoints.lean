import CallingAgent.Impl.Jobs
import CallingAgent.Impl.Tenant

/-!
# The endpoints of the job API

The handlers of `services/api/src/routers/jobs.py`, statement by statement, on a
pooled connection that has `session` as its tenant setting. The transaction after
the first is on the same connection if `pool` is `none`, and otherwise on one that
the pool hands out with that setting. Other requests can commit between two
statements of a handler, so each statement is given the table as it finds it:
`jobs` the first, `later` the one after the transaction has ended, and `current`
one in between. A handler gives the table after its write, and its answer.
-/

namespace CallingAgent.Impl.Jobs

open CallingAgent.Framework CallingAgent.Impl.Tenant

structure EventCreateResponse where
  duplicate : Bool
  event : CallJob
  deriving DecidableEq

/-- The text of a status. -/
def statusText : JobStatus → String
  | .queued => "queued"
  | .processing => "processing"
  | .completed => "completed"
  | .failed => "failed"
  | .retrying => "retrying"

/-- The rows of `call_jobs` that a statement sees. -/
def visible (db : Conn Setting) (jobs : CallJobs) : List CallJob :=
  jobs.rows.filter fun r => tenantIsolation db.begun.setting r.tenantId

/-- `db.get(CallJob, job_id, populate_existing=True)`, and `db.refresh`. -/
def getJob (db : Conn Setting) (jobs : CallJobs) (jobId : JobId) : Option CallJob :=
  (visible db jobs).find? fun r => r.jobId == jobId

/-- An `UPDATE` under the policy acts on the rows it sees. None changes a row's
tenant, so the policy's `WITH CHECK` holds of the row it writes. -/
def underPolicy (db : Conn Setting) (stmt : Update CallJob.jobId) : Update CallJob.jobId :=
  { stmt with guard := fun r => stmt.guard r && tenantIsolation db.begun.setting r.tenantId }

/-- The answer with a row that `db.refresh` has read again. -/
def refreshed : Option CallJob → Answer CallJob
  | some job => .ok job
  | none => .raised

def createEvent (session : Setting) (pool : Option Setting) (calls : List CallId) (jobs later : CallJobs)
    (body : EventCreateRequest) (jobId : JobId) (now : Time) : CallJobs × Answer EventCreateResponse :=
  let db := getInternalServiceDb .postgresql (.pooled session)
  let job := newJob body jobId now
  if tenantIsolation db.begun.setting job.tenantId = false then
    -- The policy's `WITH CHECK` is not an `IntegrityError`.
    (jobs, .raised)
  else
    match insertJob calls jobs job with
    | some jobs' =>
      let db := ((db.op (.flush true)).op .commit).next pool
      match getJob db later jobId with
      | some job => (jobs', .ok { duplicate := false, event := job })
      | none => (jobs', .raised)
    | none =>
      let db := ((db.op (.flush false)).op .rollback).next pool
      match body.providerCallId with
      | none => (jobs, .raised)
      | some p =>
        match (visible db later).find? (hasPair p body.eventType) with
        | some existing => (jobs, .ok { duplicate := true, event := existing })
        | none => (jobs, .raised)

/-- The statuses that `list_eligible_events` asks for by default. -/
def defaultStatuses : List String := ["queued", "retrying"]

/-- The `WHERE` of `list_eligible_events`. -/
def isEligible (statuses : List String) (now : Time) (r : CallJob) : Bool :=
  statuses.contains (statusText r.status) && decide (r.availableAt ≤ now)

/-- The rows that `list_eligible_events` selects, before its limit. -/
def eligible (session : Setting) (jobs : CallJobs) (statuses : List String) (now : Time) : List CallJob :=
  let db := getInternalServiceDb .postgresql (.pooled session)
  (visible db jobs).filter (isEligible statuses now)

/-- Rows with the same `available_at` come in any order; here, in that of the
table. -/
def listEligibleEvents (session : Setting) (jobs : CallJobs) (statuses : List String) (limit : Nat)
    (now : Time) : List CallJob :=
  ((eligible session jobs statuses now).mergeSort fun r r' => decide (r.availableAt ≤ r'.availableAt)).take
    limit

def claimEvent (session : Setting) (pool : Option Setting) (jobs later : CallJobs) (jobId : JobId) (now : Time) :
    CallJobs × Answer CallJob :=
  let db := getInternalServiceDb .postgresql (.pooled session)
  let stmt := underPolicy db (claimStmt jobId now)
  match stmt.returning jobs.rows with
  | [] =>
    let db := ((db.op (.execute true)).op .rollback).next pool
    match getJob db later jobId with
    | none => (jobs, .httpException 404 "job not found")
    | some existing =>
      (jobs, .httpException 409 ("job not claimable in status='" ++ statusText existing.status ++ "'"))
  | _ :: _ =>
    let db := ((db.op (.execute true)).op .commit).next pool
    (jobs.update stmt, refreshed (getJob db later jobId))

def completeEvent (session : Setting) (pool : Option Setting) (jobs current later : CallJobs) (jobId : JobId) (now : Time) :
    CallJobs × Answer CallJob :=
  let db := getInternalServiceDb .postgresql (.pooled session)
  match getJob db jobs jobId with
  | none => (current, .httpException 404 "job not found")
  | some existing =>
    if existing.status = .completed then (current, .ok existing)
    else if existing.status ≠ .processing then
      (current, .httpException 409 ("cannot complete job in status='" ++ statusText existing.status ++ "'"))
    else
      let db := db.op (.execute true)
      let stmt := underPolicy db (completeStmt jobId now)
      match stmt.returning current.rows with
      | [] =>
        let db := ((db.op (.execute true)).op .rollback).next pool
        match getJob db later jobId with
        | some job =>
          if job.status = .completed then (current, .ok job)
          else (current, .httpException 409 "job state changed concurrently")
        | none => (current, .httpException 409 "job state changed concurrently")
      | _ :: _ =>
        let db := ((db.op (.execute true)).op .commit).next pool
        (current.update stmt, refreshed (getJob db later jobId))

/-- `readAt` is the application's clock, for the backoff. -/
def failEvent (session : Setting) (pool : Option Setting) (jobs current later : CallJobs) (jobId : JobId)
    (body : EventFailRequest) (readAt now : Time) : CallJobs × Answer CallJob :=
  let db := getInternalServiceDb .postgresql (.pooled session)
  match getJob db jobs jobId with
  | none => (current, .httpException 404 "job not found")
  | some existing =>
    if isTerminal existing.status then (current, .ok existing)
    else if existing.status ≠ .processing then
      (current, .httpException 409 ("cannot fail job in status='" ++ statusText existing.status ++ "'"))
    else
      let db := db.op (.execute true)
      let stmt := underPolicy db (failStmt jobId existing body readAt now)
      match stmt.returning current.rows with
      | [] => (current, .httpException 409 "job state changed concurrently")
      | _ :: _ =>
        let db := ((db.op (.execute true)).op .commit).next pool
        (current.update stmt, refreshed (getJob db later jobId))

/-- The ids of the jobs that the sweep has moved. -/
def reapStaleJobs (session : Setting) (jobs : CallJobs) (now : Time) : CallJobs × List JobId :=
  let db := getInternalServiceDb .postgresql (.pooled session)
  let stmt := underPolicy db (reapStmt now)
  (jobs.update stmt, (stmt.returning jobs.rows).map (·.jobId))

end CallingAgent.Impl.Jobs
