import CallingAgent.Framework.Program
import CallingAgent.Impl.Endpoints

/-!
# The worker's loop

`_run_loop` and `process_one` of `services/worker/src/main.py`, with their
clients `jobs_client.py` and `integration_client.py`, as programs that call out
for all they do not decide themselves: the shutdown flag, the clock, Redis and
the HTTP requests. `iteration` is one pass of the `while` loop.

Job ids stand for themselves in the paths of requests, as the uuid4 texts of
`create_event` do. What is only logged is left out.
-/

namespace CallingAgent.Impl.RunLoop

open CallingAgent.Framework CallingAgent.Impl

/-! ## The clients -/

/-- `Job` of `jobs_client.py`. -/
structure Job where
  jobId : JobId
  tenantId : Option String
  callId : Option CallId
  providerCallId : Option String
  eventType : String
  payload : Option Json
  status : String
  attempts : Int
  maxAttempts : Int
  lastError : Option String
  deriving DecidableEq

structure ProcessResult where
  status : String
  detail : Option String
  deriving DecidableEq

/-- The body of `POST /internal/v1/process`. -/
structure ProcessEventRequest where
  jobId : JobId
  tenantId : Option String
  callId : Option CallId
  eventType : String
  payload : Option Json
  deriving DecidableEq

/-- A response, with what the client reads from the JSON of its body, or `none`
if that raises. -/
structure Response (α : Type) where
  statusCode : Nat
  text : String
  body : Option α

/-- What comes of an HTTP request: `none` is an `httpx.HTTPError`. -/
abbrev Http (α : Type) := Option (Response α)

/-- The exceptions that the worker tells apart. -/
inductive Exc
  | jobsApiError (message : String)
  | integrationError (message : String)
  | other
  deriving DecidableEq

/-- What the worker calls out for. -/
inductive Query
  | shutdown
  | monotonic
  | sleep
  | blpop
  | list (statuses : List String) (limit : Nat)
  | claim (jobId : JobId)
  | complete (jobId : JobId)
  | fail (jobId : JobId) (error : String) (retry : Bool)
  | reap
  | process (body : ProcessEventRequest)
  deriving DecidableEq

/-- `BLPOP` gives an id, nothing in time, or a `RedisError`. -/
abbrev Reply : Query → Type
  | .shutdown => Bool
  | .monotonic => Time
  | .sleep => Unit
  | .blpop => Except Unit (Option JobId)
  | .list _ _ => Http (List Job)
  | .claim _ => Http Job
  | .complete _ => Http Unit
  | .fail _ _ _ => Http Job
  | .reap => Http (List JobId)
  | .process _ => Http ProcessResult

/-- A program of the worker. -/
abbrev Worker := Prog Query Reply Exc

/-- `_request`, of what has come of the request. -/
def request {α : Type} (method path : String) : Http α → Worker (Response α)
  | none => throw (.jobsApiError ("jobs API request failed: " ++ method ++ " " ++ path))
  | some response => pure response

/-- The path of an endpoint of one job. -/
def eventPath (jobId : JobId) (endpoint : String) : String :=
  "/internal/v1/events/" ++ jobId ++ "/" ++ endpoint

/-- `raise_for_status`, as a `JobsApiError`. -/
def Response.raiseForStatus {α : Type} (response : Response α) (message : String) : Worker Unit :=
  if 200 ≤ response.statusCode ∧ response.statusCode ≤ 299 then pure ()
  else throw (.jobsApiError message)

/-- `response.json()` and `model_validate`. -/
def Response.validate {α : Type} (response : Response α) : Worker α :=
  match response.body with
  | some a => pure a
  | none => throw .other

def listEligible (statuses : List String) (limit : Nat) : Worker (List Job) := do
  let response ← request "GET" "/internal/v1/events" (← Prog.ask (.list statuses limit))
  response.raiseForStatus "list_eligible failed"
  response.validate

def claim (jobId : JobId) : Worker (Option Job) := do
  let response ← request "POST" (eventPath jobId "claim") (← Prog.ask (.claim jobId))
  if response.statusCode = 404 ∨ response.statusCode = 409 then return none
  response.raiseForStatus "claim failed"
  return some (← response.validate)

def complete (jobId : JobId) : Worker Unit := do
  let response ← request "POST" (eventPath jobId "complete") (← Prog.ask (.complete jobId))
  response.raiseForStatus "complete failed"

def fail (jobId : JobId) (error : String) (retry : Bool) : Worker Job := do
  let response ← request "POST" (eventPath jobId "fail") (← Prog.ask (.fail jobId error retry))
  response.raiseForStatus "fail failed"
  response.validate

def reap : Worker (List JobId) := do
  let response ← request "POST" "/internal/v1/events/reap" (← Prog.ask .reap)
  response.raiseForStatus "reap failed"
  response.validate

/-- `IntegrationClient.process`. -/
def process (body : ProcessEventRequest) : Worker ProcessResult := do
  let sent : Http ProcessResult ← Prog.ask (Query.process body)
  match sent with
  | none => throw (.integrationError "integration-service request failed")
  | some response =>
    if response.statusCode ≥ 500 then
      throw (.integrationError
        ("integration-service returned " ++ toString response.statusCode ++ ": transient failure"))
    else if response.statusCode ≥ 400 then
      throw (.integrationError
        ("integration-service rejected the event (" ++ toString response.statusCode ++ "): " ++
          String.ofList (response.text.toList.take 500)))
    else response.validate

/-! ## The loop -/

/-- `except JobsApiError`. -/
def exceptJobsApiError (p handler : Worker Unit) : Worker Unit :=
  p.tryCatch fun
    | .jobsApiError _ => handler
    | e => throw e

/-- `except IntegrationError as exc`, giving `str(exc)`. -/
def integrationError? (p : Worker ProcessResult) : Worker (Option String) :=
  Prog.tryCatch
    (fun
      | .integrationError exc => pure (some exc)
      | e => throw e)
    (do let _ ← p; return none)

def processOne (jobId : JobId) : Worker Unit := do
  match ← claim jobId with
  | none => return
  | some job =>
    match ← integrationError? (process ⟨job.jobId, job.tenantId, job.callId, job.eventType, job.payload⟩) with
    | some exc => exceptJobsApiError (do let _ ← fail job.jobId exc true) (pure ())
    | none => exceptJobsApiError (complete job.jobId) (pure ())

/-- The `for` loop over the eligible jobs. -/
def processEligible : List Job → Worker Unit
  | [] => return
  | eligible :: rest => do
    if ← Prog.ask .shutdown then return
    processOne eligible.jobId
    processEligible rest

structure Config where
  /-- `REAP_INTERVAL_SECONDS`. -/
  reapInterval : Time

/-- The reap of a pass, giving the new `last_reap`. -/
def reapIfDue (cfg : Config) (lastReap now : Time) : Worker Time :=
  if now - lastReap ≥ cfg.reapInterval then do
    exceptJobsApiError (do let _ ← reap) (pure ())
    return now
  else return lastReap

/-- The poll of what is eligible. -/
def poll : Worker Unit :=
  exceptJobsApiError (do processEligible (← listEligible ["queued", "retrying"] 10)) (Prog.ask Query.sleep)

/-- What a pass makes of its `BLPOP`. -/
def work : Except Unit (Option JobId) → Worker Unit
  | .ok (some jobId) => exceptJobsApiError (processOne jobId) (pure ())
  | .ok none => poll
  | .error _ => do
    Prog.ask Query.sleep
    poll

/-- One pass of `while not _shutdown`, from `last_reap` to the next, or `none`
when the loop ends. -/
def iteration (cfg : Config) (lastReap : Time) : Worker (Option Time) := do
  if ← Prog.ask .shutdown then return none
  let now ← Prog.ask .monotonic
  let lastReap ← reapIfDue cfg lastReap now
  work (← Prog.ask .blpop)
  return some lastReap

/-- The loop goes on with its next pass. -/
def loop (cfg : Config) : Worker (Option Time) → Worker (Option Time)
  | .pure (some lastReap) => iteration cfg lastReap
  | p => p

end CallingAgent.Impl.RunLoop
