import CallingAgent.Impl.RunLoop

/-!
# Workers and the job API

The system around `_run_loop`: any number of workers, the job API serving their
requests, and other clients of the API. A call is numbered when it is made
(`call`). The API serves a request at most once, at any time after, even when
its worker has given up on it, or never: `claim_event` commits its `UPDATE`
(`serve`) and then reads the row for its answer (`refresh`); `complete_event`
and `fail_event` read the row (`serve`) and then update it (`update`).

A worker can get any reply at any time (`reply`), with one exception: only the
API grants a claim (`receive`), once it has. So requests and answers can be
lost, and job ids come from Redis and from the listing in any order, with
repeats, whether or not the API knows them.

`World.log` records, latest first, the claims that `claim_event` has made, the
calls of `integration.process`, each with the request its worker made before it,
and those that returned a `ProcessResult`.
-/

namespace CallingAgent.Impl.Workers

open CallingAgent.Framework CallingAgent.Impl CallingAgent.Impl.RunLoop

/-- A row as the client reads it from an answer of the API. -/
def jobOf (r : CallJob) : Job where
  jobId := r.jobId
  tenantId := r.tenantId
  callId := r.callId
  providerCallId := r.providerCallId
  eventType := r.eventType
  payload := r.payload
  status := Jobs.statusText r.status
  attempts := r.attempts
  maxAttempts := r.maxAttempts
  lastError := r.lastError

/-- The job that a reply grants to `jobs.claim`. -/
def granted : (q : Query) → Reply q → Option Job
  | .claim _, some response =>
    if 200 ≤ response.statusCode ∧ response.statusCode ≤ 299 then response.body else none
  | _, _ => none

/-- The job for which a reply makes `integration.process` return. -/
def processed : (q : Query) → Reply q → Option JobId
  | .process body, some response =>
    if response.statusCode < 400 ∧ response.body.isSome then some body.jobId else none
  | _, _ => none

/-- What the API has made of a request. -/
inductive Stage
  | sent
  | served
  | claimed
  | answered (row : CallJob)
  deriving DecidableEq

structure Exchange where
  query : Query
  stage : Stage
  deriving DecidableEq

inductive Event
  | claimed (jobId : JobId) (request : Nat)
  | called (jobId : JobId) (after : Option Nat)
  | succeeded (jobId : JobId)
  deriving DecidableEq

/-- A worker process: the rest of its program, and the number of its latest
call, which it may still wait for. -/
structure Process where
  prog : Worker (Option Time)
  request : Option Nat
  waiting : Bool

structure World where
  api : Jobs.State
  workers : Nat → Process
  exchanges : List Exchange
  log : List Event

def World.init (cfg : Config) (now : Time) : World where
  api := .init now
  workers _ := { prog := iteration cfg 0, request := none, waiting := false }
  exchanges := []
  log := []

inductive Action
  /-- The clock, a new call or job. -/
  | tick (d : Nat)
  | addCall (callId : CallId)
  | create (jobId : JobId) (body : Jobs.EventCreateRequest)
  /-- A request of another client. -/
  | request (q : Query)
  /-- A worker makes the call that its program has come to. -/
  | call (i : Nat)
  /-- Its program goes on with a reply. -/
  | reply (i : Nat) (answer : (q : Query) → Reply q)
  | receive (i : Nat) (text : String)
  /-- The API serves a request. -/
  | serve (k : Nat)
  | update (k : Nat)
  | refresh (k : Nat)

def World.setStage (w : World) (k : Nat) (q : Query) (stage : Stage) : World :=
  { w with exchanges := w.exchanges.set k { query := q, stage := stage } }

/-- The API starts on a request. -/
def World.serve (w : World) (k : Nat) : World :=
  match w.exchanges[k]? with
  | some { query := .claim jobId, stage := .sent } =>
    if ((Jobs.claimStmt jobId w.api.now).returning w.api.jobs.rows).isEmpty then
      w.setStage k (.claim jobId) .served
    else
      { w.setStage k (.claim jobId) .claimed with
        api := Jobs.step w.api (.claim jobId)
        log := .claimed jobId k :: w.log }
  | some { query := .complete jobId, stage := .sent } =>
    { w.setStage k (.complete jobId) .served with api := Jobs.step w.api (.completeRead k jobId) }
  | some { query := .fail jobId error retry, stage := .sent } =>
    if h : 1 ≤ error.length then
      { w.setStage k (.fail jobId error retry) .served with
        api := Jobs.step w.api (.failRead k jobId { error := error, retry := retry, error_length := h }) }
    else
      -- The body is not valid: 422.
      w.setStage k (.fail jobId error retry) .served
  | some { query := .reap, stage := .sent } =>
    { w.setStage k .reap .served with api := Jobs.step w.api .reap }
  | _ => w

/-- A worker goes on with a reply, up to its next call. -/
def World.resume (cfg : Config) (w : World) (i : Nat) (q : Query) (r : Reply q)
    (k : Reply q → Worker (Option Time)) : World :=
  { w with
    workers :=
      Function.update w.workers i
        { prog := loop cfg (k r), request := (w.workers i).request, waiting := false }
    log := (processed q r).toList.map .succeeded ++ w.log }

/-- The call of `integration.process` that is made by a query. -/
def calledBy (after : Option Nat) : Query → List Event
  | .process body => [.called body.jobId after]
  | _ => []

def step (cfg : Config) (w : World) : Action → World
  | .tick d => { w with api := Jobs.step w.api (.tick d) }
  | .addCall callId => { w with api := Jobs.step w.api (.addCall callId) }
  | .create jobId body => { w with api := Jobs.step w.api (.create jobId body) }
  | .request q =>
    match q with
    | .complete _ => w
    | q => { w with exchanges := w.exchanges ++ [{ query := q, stage := .sent }] }
  | .call i =>
    match w.workers i with
    | { prog := .call q k, request := after, waiting := false } =>
      { w with
        workers :=
          Function.update w.workers i { prog := .call q k, request := some w.exchanges.length, waiting := true }
        exchanges := w.exchanges ++ [{ query := q, stage := .sent }]
        log := calledBy after q ++ w.log }
    | _ => w
  | .reply i answer =>
    match w.workers i with
    | { prog := .call q k, request := _, waiting := true } =>
      if (granted q (answer q)).isSome then w else w.resume cfg i q (answer q) k
    | _ => w
  | .receive i text =>
    match w.workers i with
    | { prog := .call (.claim jobId) k, request := some n, waiting := true } =>
      match w.exchanges[n]? with
      | some { query := _, stage := .answered row } =>
        w.resume cfg i (.claim jobId) (some { statusCode := 200, text := text, body := some (jobOf row) }) k
      | _ => w
    | _ => w
  | .serve k => w.serve k
  | .update k => { w with api := Jobs.step w.api (.update k) }
  | .refresh k =>
    match w.exchanges[k]? with
    | some { query := .claim jobId, stage := .claimed } =>
      match w.api.job jobId with
      | some row => w.setStage k (.claim jobId) (.answered row)
      | none => w
    | _ => w

end CallingAgent.Impl.Workers
