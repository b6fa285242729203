import CallingAgent.Impl.IntegrationService
import CallingAgent.Impl.Workers

/-!
# One worker at a backlog

A worker, the API and the integration service, as `docker-compose.yml` starts them,
with no other client of the API. The endpoints of the API answer the requests of the
worker one after another (`answer`). What does not depend on them is drawn from the
`Fate` of each call: the time it takes, whether its request or its answer is lost, what
Redis gives, and the tenant setting that the API's connection was left with. As its
requests come one after another, the API never needs a second connection: all
transactions of a request are on that one.

A worker process can be killed between any two calls, and is then started anew
(`restart: unless-stopped`).
-/

namespace CallingAgent.Impl.Deployment

open CallingAgent.Framework CallingAgent.Impl CallingAgent.Impl.RunLoop CallingAgent.Impl.Jobs CallingAgent.Impl.Tenant

/-- What a call meets with. -/
structure Fate where
  elapsed : Nat := 0
  shutdown : Bool := false
  popped : Except Unit (Option JobId) := .ok none
  requestLost : Bool := false
  answerLost : Bool := false
  session : Setting := none

/-- The clock, the table, and the fates of the calls to come. -/
structure Server where
  now : Time
  jobs : CallJobs
  fates : Nat → Fate

structure Env where
  cfg : Config
  integration : IntegrationService.Env
  /-- When the machine was started. -/
  boot : Time

/-- A response of the API. Of the texts the worker reads none. -/
def response {α β : Type} (f : α → β) : Answer α → Response β
  | .ok a => { statusCode := 200, text := "", body := some (f a) }
  | .httpException statusCode _ => { statusCode := statusCode, text := "", body := none }
  | .raised => { statusCode := 500, text := "", body := none }

/-- A request that is served with what it makes of the table, unless it is lost. -/
def Server.http {α : Type} (s : Server) (fate : Fate) (served : CallJobs × Response α) : Server × Http α :=
  if fate.requestLost then (s, none)
  else ({ s with jobs := served.1 }, if fate.answerLost then none else some served.2)

/-- `claim_event`, which reads the row again after its `UPDATE`. -/
def serveClaim (fate : Fate) (jobs : CallJobs) (jobId : JobId) (now : Time) : CallJobs × Response Job :=
  let later := (claimEvent fate.session none jobs jobs jobId now).1
  (later, response Workers.jobOf (claimEvent fate.session none jobs later jobId now).2)

def serveComplete (fate : Fate) (jobs : CallJobs) (jobId : JobId) (now : Time) : CallJobs × Response Unit :=
  let later := (completeEvent fate.session none jobs jobs jobs jobId now).1
  (later, response (fun _ => ()) (completeEvent fate.session none jobs jobs later jobId now).2)

def serveFail (fate : Fate) (jobs : CallJobs) (jobId : JobId) (error : String) (retry : Bool) (now : Time) :
    CallJobs × Response Job :=
  if h : 1 ≤ error.length then
    let body := { error := error, retry := retry, error_length := h }
    let later := (failEvent fate.session none jobs jobs jobs jobId body now now).1
    (later, response Workers.jobOf (failEvent fate.session none jobs jobs later jobId body now now).2)
  else (jobs, { statusCode := 422, text := "", body := none })

def serveReap (fate : Fate) (jobs : CallJobs) (now : Time) : CallJobs × Response (List JobId) :=
  let (jobs, reaped) := reapStaleJobs fate.session jobs now
  (jobs, { statusCode := 200, text := "", body := some reaped })

def serveList (fate : Fate) (jobs : CallJobs) (statuses : List String) (limit : Nat) (now : Time) :
    CallJobs × Response (List Job) :=
  (jobs, { statusCode := 200, text := ""
           body := some ((listEligibleEvents fate.session jobs statuses limit now).map Workers.jobOf) })

/-- The next call has had its time. -/
def Server.next (s : Server) : Server where
  now := s.now + (s.fates 0).elapsed
  jobs := s.jobs
  fates k := s.fates (k + 1)

/-- The answer to a call of the worker. -/
def answer (env : Env) (s : Server) : (q : Query) → Server × Reply q
  | .shutdown => (s.next, (s.fates 0).shutdown)
  | .monotonic => (s.next, s.next.now - env.boot)
  | .sleep => (s.next, ())
  | .blpop => (s.next, (s.fates 0).popped)
  | .list statuses limit => s.next.http (s.fates 0) (serveList (s.fates 0) s.jobs statuses limit s.next.now)
  | .claim jobId => s.next.http (s.fates 0) (serveClaim (s.fates 0) s.jobs jobId s.next.now)
  | .complete jobId => s.next.http (s.fates 0) (serveComplete (s.fates 0) s.jobs jobId s.next.now)
  | .fail jobId error retry => s.next.http (s.fates 0) (serveFail (s.fates 0) s.jobs jobId error retry s.next.now)
  | .reap => s.next.http (s.fates 0) (serveReap (s.fates 0) s.jobs s.next.now)
  | .process body =>
    s.next.http (s.fates 0) (s.jobs, IntegrationService.respond env.integration body)

/-- The clock, the table, and the worker's `last_reap`. -/
structure World where
  now : Time
  jobs : CallJobs
  lastReap : Time

/-- One pass of the worker's loop, which is killed after so many calls, if at all. -/
structure Pass where
  fates : Nat → Fate
  killed : Option Nat

/-- A pass. Where the loop does not go on, because it was killed, has raised or was
told to stop, a new worker begins with `last_reap = 0.0`. -/
def step (env : Env) (w : World) (p : Pass) : World :=
  let (s, ended) :=
    match p.killed with
    | some n => (iteration env.cfg w.lastReap).serveFor (answer env) n ⟨w.now, w.jobs, p.fates⟩
    | none => ((iteration env.cfg w.lastReap).serve (answer env) ⟨w.now, w.jobs, p.fates⟩).map id some
  { now := s.now
    jobs := s.jobs
    lastReap :=
      match ended with
      | some (.ok (some lastReap)) => lastReap
      | _ => 0 }

end CallingAgent.Impl.Deployment
