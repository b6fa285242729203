import CallingAgent.Impl.Jobs

/-!
# The workers

`services/worker/src/main.py` and its clients `jobs_client.py` and
`integration_client.py`. A run of `process_one` claims a job, calls
`integration.process` and reports the outcome; a worker is a sequence of such
runs, so any number of workers is any number of runs, numbered here. Each HTTP
request is a step of its own at the job API, and a request or its answer can be
lost at any time (`lost`, or an unanswered `claim`), after which the run makes
no further request: `process_one` has returned or raised, and its worker goes
on with another run. A report is read by the API (`read`) and later applied
(`update`).

`World.log` records what the runs did, latest first: who claimed which job,
which jobs a reap moved, and where `integration.process` returned success.
-/

namespace CallingAgent.Impl.Worker

open CallingAgent.Framework CallingAgent.Impl

/-- What a run has to report. -/
inductive Report
  | complete
  | fail (body : Jobs.EventFailRequest)

/-- Where a run of `process_one` stands. `job` is the row its claim returned. -/
inductive Phase
  | idle
  | claimed (job : CallJob)
  | sending (job : CallJob) (report : Report)
  | reporting (job : CallJob) (report : Report)
  | done

inductive Event
  | claimed (jobId : JobId) (run : Nat)
  | reaped (jobId : JobId)
  | succeeded (jobId : JobId) (run : Nat)
  deriving DecidableEq

/-- The outcome of `integration.process`: a `ProcessResult`, an
`IntegrationError` with its text, or an exception that ends the worker. -/
inductive Outcome
  | success
  | integrationError (body : Jobs.EventFailRequest) (retry : body.retry = true)
  | raised

structure World where
  api : Jobs.State
  phase : Nat → Phase
  log : List Event

def World.init (now : Time) : World where
  api := .init now
  phase _ := .idle
  log := []

inductive Action
  /-- The clock, a new call or job, from outside. -/
  | tick (d : Nat)
  | addCall (callId : CallId)
  | create (jobId : JobId) (body : Jobs.EventCreateRequest)
  /-- `jobs.reap()`, by any worker. -/
  | reap
  /-- `jobs.claim(job_id)` reaches the API; its answer may be lost. -/
  | claim (run : Nat) (jobId : JobId) (answered : Bool)
  /-- `integration.process` ends. -/
  | process (run : Nat) (outcome : Outcome)
  /-- The report reaches the API, which reads the row. -/
  | read (run : Nat)
  /-- The API runs the `UPDATE` of the report. -/
  | update (run : Nat)
  /-- The run makes no further request. -/
  | lost (run : Nat)

def World.setPhase (w : World) (run : Nat) (phase : Phase) : World :=
  { w with phase := Function.update w.phase run phase }

/-- The row a claim returns, if it is successful. -/
def claimAnswer (api : Jobs.State) (jobId : JobId) : Option CallJob :=
  ((Jobs.claimStmt jobId api.now).returning api.jobs.rows).head?

/-- `jobs.claim`: 404 and 409 are `None`, and `process_one` returns. -/
def World.claim (w : World) (run : Nat) (jobId : JobId) (answered : Bool) : World :=
  match claimAnswer w.api jobId with
  | none => w.setPhase run .done
  | some job =>
    { api := Jobs.step w.api (.claim jobId)
      phase := Function.update w.phase run (if answered then .claimed job else .done)
      log := .claimed jobId run :: w.log }

/-- The request of the report: `jobs.complete(job_id)`, or `jobs.fail(job_id,
error=str(exc), retry=True)`. -/
def readAction (run : Nat) (job : CallJob) : Report → Jobs.Action
  | .complete => .completeRead run job.jobId
  | .fail body => .failRead run job.jobId body

def step (w : World) : Action → World
  | .tick d => { w with api := Jobs.step w.api (.tick d) }
  | .addCall callId => { w with api := Jobs.step w.api (.addCall callId) }
  | .create jobId body => { w with api := Jobs.step w.api (.create jobId body) }
  | .reap =>
    { w with
      api := Jobs.step w.api .reap
      log := ((Jobs.reapStmt w.api.now).returning w.api.jobs.rows).map (fun r => .reaped r.jobId) ++ w.log }
  | .claim run jobId answered =>
    match w.phase run with
    | .idle => w.claim run jobId answered
    | _ => w
  | .process run outcome =>
    match w.phase run, outcome with
    | .claimed job, .success =>
      { w.setPhase run (.sending job .complete) with log := .succeeded job.jobId run :: w.log }
    | .claimed job, .integrationError body _ => w.setPhase run (.sending job (.fail body))
    | .claimed _, .raised => w.setPhase run .done
    | _, _ => w
  | .read run =>
    match w.phase run with
    | .sending job report =>
      { w.setPhase run (if w.api.isProcessing job.jobId then .reporting job report else .done) with
        api := Jobs.step w.api (readAction run job report) }
    | _ => w
  | .update run =>
    match w.phase run with
    | .reporting _ _ => { w.setPhase run .done with api := Jobs.step w.api (.update run) }
    | _ => w
  | .lost run => w.setPhase run .done

end CallingAgent.Impl.Worker
