import Mathlib.Algebra.Group.Nat.Defs
import CallingAgent.Framework.Run
import CallingAgent.Framework.Table
import CallingAgent.Impl.Models

/-!
# The job API

`services/api/src/routers/jobs.py`. The statements of the endpoints
(`insertJob`, `claimStmt`, `completeStmt`, `failStmt`, `reapStmt`) are functions
of the rows they see, and `step` is the database serving them one at a time, for
any number of clients; there they see every row. `claim_event`, `reap_stale_jobs` and the insert of
`create_event` are one statement each; `complete_event` and `fail_event` first
read the row (`completeRead`, `failRead`) and decide on what they read, and
their guarded `UPDATE` comes later (`update`), with other requests in between.
A request that answers on its read alone leaves nothing pending.
-/

namespace CallingAgent.Impl.Jobs

open CallingAgent.Framework

/-! ## Constants and schemas -/

/-- `_MAX_ERROR_CHARS`. -/
def maxErrorChars : Nat := 2000

/-- `_STALE_PROCESSING_SECONDS`. -/
def staleProcessingSeconds : Nat := 120

/-- `_BASE_BACKOFF_SECONDS`. -/
def baseBackoffSeconds : Nat := 5

/-- `_MAX_BACKOFF_SECONDS`. -/
def maxBackoffSeconds : Nat := 300

/-- `_backoff_seconds`. The subtraction of naturals is `max(attempts - 1, 0)`. -/
def backoffSeconds (attempts : Nat) : Nat :=
  min (baseBackoffSeconds * 2 ^ (attempts - 1)) maxBackoffSeconds

/-- `_truncate_error`. -/
def truncateError (error : String) : String :=
  if error.length ≤ maxErrorChars then error
  else String.ofList (error.toList.take maxErrorChars) ++ "...(truncated)"

/-- `_TERMINAL_STATUSES`. -/
def isTerminal : JobStatus → Bool
  | .completed => true
  | .failed => true
  | _ => false

/-- `_CLAIMABLE_STATUSES`. -/
def isClaimable : JobStatus → Bool
  | .queued => true
  | .retrying => true
  | _ => false

/-- A validated body of `POST /internal/v1/events`. -/
structure EventCreateRequest where
  eventType : String
  providerCallId : Option String := none
  tenantId : Option String := none
  callId : Option CallId := none
  payload : Option Json := none
  maxAttempts : Option Nat := none
  eventType_length : 1 ≤ eventType.length ∧ eventType.length ≤ 50 := by decide
  maxAttempts_range : ∀ n ∈ maxAttempts, 1 ≤ n ∧ n ≤ 20 := by decide

/-- A body may leave `max_attempts` to the server. -/
theorem maxAttempts_range_none : ∀ n ∈ (none : Option Nat), 1 ≤ n ∧ n ≤ 20 := by simp

/-- A validated body of `POST /internal/v1/events/{job_id}/fail`. -/
structure EventFailRequest where
  error : String
  retry : Bool := true
  error_length : 1 ≤ error.length := by decide

/-! ## Statements -/

/-- The row that `create_event` adds; the columns it does not name have their
server defaults. -/
def newJob (body : EventCreateRequest) (jobId : JobId) (now : Time) : CallJob where
  jobId := jobId
  tenantId := body.tenantId
  callId := body.callId
  providerCallId := body.providerCallId
  eventType := body.eventType
  payload := body.payload
  status := .queued
  attempts := 0
  maxAttempts := body.maxAttempts.getD 5
  lastError := none
  createdAt := now
  updatedAt := now
  availableAt := now
  processedAt := none

/-- `uq_call_jobs_provider_event`: the row has this `(provider_call_id,
event_type)`. Rows without a `provider_call_id` are not in the index. -/
def hasPair (providerCallId eventType : String) (r : CallJob) : Bool :=
  r.providerCallId == some providerCallId && r.eventType == eventType

/-- The table `call_jobs`. -/
abbrev CallJobs := Table CallJob.jobId

/-- The `INSERT` of `create_event`, or `none` for an `IntegrityError`: of the
partial unique index, of the foreign key to `calls`, or of the primary key. The values fit
into their columns (a `provider_call_id` has at most 255 characters): others raise. -/
def insertJob (calls : List CallId) (jobs : CallJobs) (job : CallJob) : Option CallJobs :=
  if job.providerCallId.any fun p => jobs.rows.any (hasPair p job.eventType) then none
  else if job.callId.any fun c => !calls.contains c then none
  else jobs.insert job

/-- The `UPDATE` of `claim_event`. -/
def claimStmt (jobId : JobId) (now : Time) : Update CallJob.jobId where
  guard r := r.jobId == jobId && isClaimable r.status && decide (r.availableAt ≤ now)
  set r := { r with status := .processing, attempts := r.attempts + 1, updatedAt := now }

/-- The `UPDATE` of `complete_event`. -/
def completeStmt (jobId : JobId) (now : Time) : Update CallJob.jobId where
  guard r := r.jobId == jobId && r.status == .processing
  set r := { r with status := .completed, processedAt := some now, updatedAt := now }

/-- `can_retry` of `fail_event`, from the row it has read. -/
def canRetry (existing : CallJob) (body : EventFailRequest) : Bool :=
  body.retry && decide (existing.attempts < existing.maxAttempts)

/-- The `UPDATE` of `fail_event`: `existing` is the row it has read, `readAt`
the application's clock then, and `now` the database's. -/
def failStmt (jobId : JobId) (existing : CallJob) (body : EventFailRequest) (readAt now : Time) :
    Update CallJob.jobId where
  guard r := r.jobId == jobId && r.status == .processing
  set r :=
    if canRetry existing body then
      { r with
        status := .retrying
        lastError := some (truncateError body.error)
        availableAt := readAt + seconds (backoffSeconds existing.attempts)
        updatedAt := now }
    else
      { r with
        status := .failed
        lastError := some (truncateError body.error)
        processedAt := some now
        updatedAt := now }
  keeps r := by split <;> rfl

/-- The bulk `UPDATE` of `reap_stale_jobs`. -/
def reapStmt (now : Time) : Update CallJob.jobId where
  guard r := r.status == .processing && decide (r.updatedAt < now - seconds staleProcessingSeconds)
  set r :=
    { r with
      status := if r.attempts < r.maxAttempts then .retrying else .failed
      availableAt := now
      processedAt := if r.attempts < r.maxAttempts then none else some now
      lastError := some (r.lastError.getD "reaped: worker did not report completion in time")
      updatedAt := now }

/-! ## The database serving requests -/

/-- A `complete_event` or `fail_event` request that has read its row as
`processing` and not yet issued its `UPDATE`. `now()` is the start of the
request's transaction. -/
inductive Pending
  | complete (jobId : JobId) (begun : Time)
  | fail (jobId : JobId) (begun : Time) (existing : CallJob) (body : EventFailRequest)

/-- The `UPDATE` of a pending request. -/
def Pending.stmt : Pending → Update CallJob.jobId
  | .complete jobId begun => completeStmt jobId begun
  | .fail jobId begun existing body => failStmt jobId existing body begun begun

/-- The clock, the table, the ids of `calls`, and the requests between their
read and their `UPDATE`, by request. -/
structure State where
  now : Time
  jobs : CallJobs
  calls : List CallId
  pending : Nat → Option Pending

/-- No job yet, at any time. -/
def State.init (now : Time) : State where
  now := now
  jobs := .empty
  calls := []
  pending _ := none

/-- The row of a job. -/
def State.job (s : State) (jobId : JobId) : Option CallJob := s.jobs.lookup jobId

inductive Action
  | tick (d : Nat)
  | addCall (callId : CallId)
  | create (jobId : JobId) (body : EventCreateRequest)
  | claim (jobId : JobId)
  | completeRead (req : Nat) (jobId : JobId)
  | failRead (req : Nat) (jobId : JobId) (body : EventFailRequest)
  | update (req : Nat)
  | reap

/-- Whether a job is being attempted. -/
def State.isProcessing (s : State) (jobId : JobId) : Bool :=
  (s.job jobId).any fun r => r.status == .processing

/-- The request `req` has read the row of `jobId`: it goes on to its `UPDATE`
only if the row is `processing`, and answers at once otherwise. -/
def State.read (s : State) (req : Nat) (jobId : JobId) (next : CallJob → Pending) : State :=
  match s.job jobId with
  | some r =>
    if r.status = .processing then { s with pending := Function.update s.pending req (some (next r)) }
    else s
  | none => s

def step (s : State) : Action → State
  | .tick d => { s with now := s.now + d }
  | .addCall callId => { s with calls := callId :: s.calls }
  | .create jobId body =>
    match insertJob s.calls s.jobs (newJob body jobId s.now) with
    | some jobs => { s with jobs := jobs }
    | none => s
  | .claim jobId => { s with jobs := s.jobs.update (claimStmt jobId s.now) }
  | .completeRead req jobId => s.read req jobId fun _ => .complete jobId s.now
  | .failRead req jobId body => s.read req jobId fun r => .fail jobId s.now r body
  | .update req =>
    match s.pending req with
    | some p => { s with jobs := s.jobs.update p.stmt, pending := Function.update s.pending req none }
    | none => s
  | .reap => { s with jobs := s.jobs.update (reapStmt s.now) }

end CallingAgent.Impl.Jobs
