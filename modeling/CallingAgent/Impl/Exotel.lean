import CallingAgent.Impl.Endpoints
import CallingAgent.Impl.Finalize

/-!
# The Exotel callback

`services/voice-gateway/exotel_routes.py` with its clients
(`internal_calls.py`) and its session manager and call store
(`src/main.py`), from the validated payload of an authenticated request on.

A callback is served by a handler, numbered here, in some gateway process
(`inst`). The code of a handler between two awaits is one step of its process:
`resume`, with the answer to the request it waits for. The request travels to
the API and is served there (`serve`), and the answer travels back (`receive`).
The client can fail at any time instead (`fail`: a lost request, a lost
answer, a timeout), and the request, if it was not lost, is still served later.
A process can be restarted (`restart`), which loses its memory and its handlers.
`serve` is a request that no other interrupts; in `overlapStep` those to finalize
calls may overlap.

`_DictCallStore` and `_RedisCallStore` differ in where the entries are: in the
process, or in one Redis that all processes share (`Place`); the session
manager keeps sessions in the process and in Redis, if there is one. Redis is
taken to answer. It is given each key with a time to live (`ex=`), and the key is
gone when that is over (`World.tick`).

`World.sent` records the requests of `calls.create` and `calls.finalize`, by
handler and event, latest first.
-/

namespace CallingAgent.Impl.Exotel

open CallingAgent.Framework CallingAgent.Impl CallingAgent.Impl.Calls CallingAgent.Impl.Jobs

/-! ## Configuration and payload -/

/-- `str(uuid4())`. -/
abbrev Uuid := { s : String // s ≠ "" }

/-- What the handlers are given: `str.lower`, the JSON of the recorded payload,
the routing dependency with the table of phone numbers behind it, whether there
is a Redis, and the ids that `uuid4` gives out, which are all different. -/
structure Env where
  lower : String → String
  dumps : Option String → Option String → Json
  routing : Option (String → Option (String × String))
  redis : Bool
  uuid4 : Nat → Uuid
  uuid4_injective : Function.Injective uuid4

/-- A validated callback: `CallSid`, `EventType`, the dialed number and
`Status`. -/
structure ExotelCallback where
  providerCallId : String
  event : String
  dialedNumber : Option String := none
  callStatus : Option String := none
  providerCallId_length : providerCallId ≠ "" := by decide
  event_length : event ≠ "" := by decide
  deriving DecidableEq

/-- The events that open a call, in lower case. -/
def startEvents : List String := ["connected", "start", "answered", "started"]

/-- The events that end a call, in lower case. -/
def endEvents : List String := ["completed", "failed", "disconnected", "terminal"]

def Env.eventType (env : Env) (payload : ExotelCallback) : String := env.lower payload.event

/-- `end_reason`. -/
def Env.endReason (env : Env) (payload : ExotelCallback) : String :=
  if env.eventType payload = "failed" ∨
      env.lower (payload.callStatus.getD "") ∈ ["failed", "busy", "no-answer"] then
    "provider_failure"
  else "caller_hangup"

/-- `if not payload.dialed_number`. -/
def ExotelCallback.number (payload : ExotelCallback) : Option String :=
  payload.dialedNumber.filter (· ≠ "")

/-- The body of `EventsClient.record`; the API answers one that it does not
accept with a 422. -/
def Env.recordBody (env : Env) (payload : ExotelCallback) : Option EventCreateRequest :=
  if h : 1 ≤ (env.eventType payload).length ∧ (env.eventType payload).length ≤ 50 then
    some
      { eventType := env.eventType payload
        providerCallId := some payload.providerCallId
        payload := some (env.dumps payload.dialedNumber payload.callStatus)
        eventType_length := h
        maxAttempts_range := Jobs.maxAttempts_range_none }
  else none

/-! ## The gateway's own state -/

inductive SessionStatus
  | active
  | ended
  deriving DecidableEq

structure Session where
  callId : CallId
  tenantId : String
  agentId : String
  startedAt : Time
  status : SessionStatus
  deriving DecidableEq

/-- The memory of a process, or the Redis. -/
inductive Place
  | process (inst : Nat)
  | redis
  deriving DecidableEq

/-- Where a process keeps its call store. -/
def Env.place (env : Env) (inst : Nat) : Place := if env.redis then .redis else .process inst

inductive ReplyStatus
  | sessionStarted
  | sessionCleaned
  | duplicate
  | ignored
  deriving DecidableEq

/-- The reply to a callback. -/
inductive Reply
  | ok (status : ReplyStatus) (callId : CallId)
  | httpException (statusCode : Nat) (detail : String)
  deriving DecidableEq

/-- What a handler waits for. -/
inductive Phase
  | recording
  | resolving (number : String)
  | creating (call : CallCreateRequest)
  | finalizing (callId : CallId) (finalization : FinalizeRequest)
  | returned (reply : Reply)
  | lost

/-- A request to the API. -/
inductive ApiRequest
  | record (body : Option EventCreateRequest)
  | resolve (number : String)
  | create (call : CallCreateRequest)
  | finalize (callId : CallId) (finalization : FinalizeRequest)

/-- What a client's method gives: its result, or `InternalApiError`. -/
inductive ApiAnswer
  | recorded (duplicate : Bool)
  | resolved (tenantId agentId : String)
  | created
  | finalized
  | internalApiError
  deriving DecidableEq

/-- A handler, with its request on the way to the API or the answer on the way
back. -/
structure Handler where
  inst : Nat
  payload : ExotelCallback
  phase : Phase
  request : Option ApiRequest
  answer : Option ApiAnswer

/-- What is stored, and until when Redis keeps the keys that it has. -/
structure World where
  now : Time
  jobs : CallJobs
  calls : CallTable
  store : Place → String → Option CallId
  storeUntil : String → Time
  sessions : Place → CallId → Option Session
  sessionsUntil : CallId → Time
  handlers : Nat → Option Handler
  issued : Nat
  sent : List (Nat × String × String)

/-- Nothing recorded and nothing under way. -/
def World.init (now : Time) : World where
  now := now
  jobs := .empty
  calls := .empty
  store _ _ := none
  storeUntil _ := now
  sessions _ _ := none
  sessionsUntil _ := now
  handlers _ := none
  issued := 0
  sent := []

def World.setHandler (w : World) (h : Nat) (x : Handler) : World :=
  { w with handlers := Function.update w.handlers h (some x) }

/-! ## Call store and session manager -/

/-- `_PROVIDER_CALL_TTL`. -/
def providerCallTtl : Time := seconds 86400

/-- `ex=3600`. -/
def sessionTtl : Time := seconds 3600

/-- `_store.get`; an empty value is falsy. -/
def World.storeGet (w : World) (env : Env) (inst : Nat) (providerCallId : String) : Option CallId :=
  (w.store (env.place inst) providerCallId).filter (· ≠ "")

/-- The store with one entry written, or deleted. -/
def World.storePut (w : World) (place : Place) (providerCallId : String) (entry : Option CallId) : World :=
  { w with
    store := Function.update w.store place (Function.update (w.store place) providerCallId entry)
    storeUntil :=
      if place = .redis then Function.update w.storeUntil providerCallId (w.now + providerCallTtl)
      else w.storeUntil }

def World.sessionPut (w : World) (place : Place) (callId : CallId) (session : Option Session) : World :=
  { w with
    sessions := Function.update w.sessions place (Function.update (w.sessions place) callId session)
    sessionsUntil :=
      if place = .redis then Function.update w.sessionsUntil callId (w.now + sessionTtl)
      else w.sessionsUntil }

/-- `session_manager.create`. -/
def World.sessionCreate (w : World) (env : Env) (inst : Nat) (session : Session) : World :=
  let w := w.sessionPut (.process inst) session.callId (some session)
  if env.redis then w.sessionPut .redis session.callId (some session) else w

/-- `session_manager.get`: a session that is only in Redis is kept in the process
from then on. -/
def World.sessionGet (w : World) (env : Env) (inst : Nat) (callId : CallId) : World × Option Session :=
  match w.sessions (.process inst) callId with
  | some session => (w, some session)
  | none =>
    match (if env.redis then w.sessions .redis callId else none) with
    | some session => (w.sessionPut (.process inst) callId (some session), some session)
    | none => (w, none)

/-- The session at a place is marked as ended, if there is one. -/
def World.sessionEndAt (w : World) (place : Place) (callId : CallId) : World :=
  match w.sessions place callId with
  | some session => w.sessionPut place callId (some { session with status := .ended })
  | none => w

/-- `session_manager.end`. -/
def World.sessionEnd (w : World) (env : Env) (inst : Nat) (callId : CallId) : World :=
  let w := w.sessionEndAt (.process inst) callId
  if env.redis then w.sessionEndAt .redis callId else w

/-- `session_manager.remove`. -/
def World.sessionRemove (w : World) (env : Env) (inst : Nat) (callId : CallId) : World :=
  let w := w.sessionPut (.process inst) callId none
  if env.redis then w.sessionPut .redis callId none else w

/-- What the end of a call does to its session. -/
def World.sessionClean (w : World) (env : Env) (inst : Nat) (callId : CallId) : World :=
  let (w, session) := w.sessionGet env inst callId
  match session with
  | some _ => (w.sessionEnd env inst callId).sessionRemove env inst callId
  | none => w

/-! ## The API -/

/-- What `record` makes of the API's answer. -/
def recorded : Answer EventCreateResponse → ApiAnswer
  | .ok body => .recorded body.duplicate
  | _ => .internalApiError

/-- What a method without a result makes of it. -/
def succeeded (result : ApiAnswer) : Answer Call → ApiAnswer
  | .ok _ => result
  | _ => .internalApiError

/-- The API serves a request, all its transactions on a connection left with `session` (a
row that is not found again on another one is a lost answer). The job id of a recorded
event is a `uuid4` of its own. -/
def serveRequest (env : Env) (session : Tenant.Setting) (w : World) : ApiRequest → World × ApiAnswer
  | .record none => (w, .internalApiError)
  | .record (some body) =>
    let jobId : JobId := (env.uuid4 w.issued).1
    let callIds := w.calls.rows.map (·.callId)
    let later := (insertJob callIds w.jobs (newJob body jobId w.now)).getD w.jobs
    let (jobs, answer) := createEvent session none callIds w.jobs later body jobId w.now
    ({ w with jobs := jobs, issued := w.issued + 1 }, recorded answer)
  | .resolve number =>
    match env.routing.bind fun routes => routes number with
    | some (tenantId, agentId) => (w, .resolved tenantId agentId)
    | none => (w, .internalApiError)
  | .create call =>
    let (calls, answer) := createCall w.calls call
    ({ w with calls := calls }, succeeded .created answer)
  | .finalize callId finalization =>
    let (calls, answer) := finalizeCall w.calls callId finalization
    ({ w with calls := calls }, succeeded .finalized answer)

/-! ## The handler -/

/-- The handler returns. -/
def World.reply (w : World) (h : Nat) (x : Handler) (reply : Reply) : World :=
  w.setHandler h { x with phase := .returned reply }

/-- The handler awaits an API request. -/
def World.await (w : World) (h : Nat) (x : Handler) (phase : Phase) (request : ApiRequest) : World :=
  w.setHandler h { x with phase := phase, request := some request, answer := none }

/-- The code after `record` has returned a new event. -/
def newEvent (env : Env) (w : World) (h : Nat) (x : Handler) : World :=
  if env.eventType x.payload ∈ startEvents then
    match env.routing, x.payload.number with
    | none, _ => w.reply h x (.httpException 503 "phone-number routing API dependency is unavailable")
    | some _, none => w.reply h x (.httpException 422 "Exotel callback is missing dialed number")
    | some _, some number => w.await h x (.resolving number) (.resolve number)
  else if env.eventType x.payload ∈ endEvents then
    match w.storeGet env x.inst x.payload.providerCallId with
    | none => w.reply h x (.ok .ignored "")
    | some callId =>
      let finalization := { endedAt := w.now, endReason := env.endReason x.payload }
      { w.await h x (.finalizing callId finalization) (.finalize callId finalization) with
        sent := (h, x.payload.providerCallId, env.eventType x.payload) :: w.sent }
  else w.reply h x (.ok .ignored "")

/-- The code of a handler from one await to the next. -/
def resume (env : Env) (w : World) (h : Nat) (x : Handler) (answer : ApiAnswer) : World :=
  match x.phase with
  | .recording =>
    match answer with
    | .recorded true =>
      w.reply h x (.ok .duplicate ((w.storeGet env x.inst x.payload.providerCallId).getD ""))
    | .recorded false => newEvent env w h x
    | _ => w.reply h x (.httpException 503 "durable event recording unavailable")
  | .resolving _ =>
    match answer with
    | .resolved tenantId agentId =>
      let call : CallCreateRequest :=
        { callId := (env.uuid4 w.issued).1
          tenantId := tenantId
          agentId := agentId
          startedAt := w.now
          providerCallId := some x.payload.providerCallId }
      { w.await h x (.creating call) (.create call) with
        issued := w.issued + 1
        sent := (h, x.payload.providerCallId, env.eventType x.payload) :: w.sent }
    | _ => w.reply h x (.httpException 404 "phone-number route not found")
  | .creating call =>
    match answer with
    | .created =>
      let session : Session := ⟨call.callId, call.tenantId, call.agentId, w.now, .active⟩
      let w := w.sessionCreate env x.inst session
      let w := w.storePut (env.place x.inst) x.payload.providerCallId (some call.callId)
      w.reply h x (.ok .sessionStarted call.callId)
    | _ => w.reply h x (.httpException 503 "internal call creation unavailable")
  | .finalizing callId _ =>
    match answer with
    | .finalized =>
      let w := w.sessionClean env x.inst callId
      let w := w.storePut (env.place x.inst) x.payload.providerCallId none
      w.reply h x (.ok .sessionCleaned callId)
    | _ => w.reply h x (.httpException 503 "internal call finalization unavailable")
  | .returned _ => w
  | .lost => w

/-! ## The system -/

inductive Action
  | tick (d : Nat)
  /-- A callback arrives at a process, and its handler starts. -/
  | deliver (h : Nat) (inst : Nat) (payload : ExotelCallback)
  /-- The API serves the handler's request, on a connection left with `session`. -/
  | serve (h : Nat) (session : Tenant.Setting)
  /-- The answer of the API reaches the handler. -/
  | receive (h : Nat)
  /-- The client of the handler's request raises `InternalApiError`. -/
  | fail (h : Nat)
  /-- A process is restarted. -/
  | restart (inst : Nat)

/-- A restart ends the handlers of the process. -/
def Handler.restart (inst : Nat) (x : Handler) : Handler :=
  match x.phase with
  | .returned _ => x
  | _ => if x.inst = inst then { x with phase := .lost } else x

/-- The clock goes on, and Redis drops the keys whose time is over. -/
def World.tick (w : World) (d : Nat) : World :=
  { w with
    now := w.now + d
    store := fun place providerCallId =>
      if place = .redis ∧ w.storeUntil providerCallId < w.now + d then none
      else w.store place providerCallId
    sessions := fun place callId =>
      if place = .redis ∧ w.sessionsUntil callId < w.now + d then none
      else w.sessions place callId }

def step (env : Env) (w : World) : Action → World
  | .tick d => w.tick d
  | .deliver h inst payload =>
    match w.handlers h with
    | some _ => w
    | none => w.setHandler h ⟨inst, payload, .recording, some (.record (env.recordBody payload)), none⟩
  | .serve h session =>
    match w.handlers h with
    | none => w
    | some x =>
      match x.request with
      | none => w
      | some request =>
        let (w, answer) := serveRequest env session w request
        w.setHandler h { x with request := none, answer := some answer }
  | .receive h =>
    match w.handlers h with
    | none => w
    | some x =>
      match x.answer with
      | none => w
      | some answer => resume env w h { x with answer := none } answer
  | .fail h =>
    match w.handlers h with
    | none => w
    | some x => resume env w h x .internalApiError
  | .restart inst =>
    { w with
      store := Function.update w.store (.process inst) fun _ => none
      sessions := Function.update w.sessions (.process inst) fun _ => none
      handlers := fun h => (w.handlers h).map (Handler.restart inst) }

/-! ## Finalizations that overlap -/

/-- The system with the rows that `finalize_call` has loaded for the requests of
handlers, to change them. -/
structure Overlap where
  world : World
  loaded : Nat → Option Call

def Overlap.init (now : Time) : Overlap where
  world := .init now
  loaded _ := none

inductive OverlapAction
  /-- A step of the system, in which a request is served alone. -/
  | alone (a : Action)
  /-- `finalize_call` loads the row for the handler's request, and it has not ended. -/
  | load (h : Nat)
  /-- `finalize_call` commits its changes to that row, reads it again and answers. -/
  | commit (h : Nat)

def overlapStep (env : Env) (s : Overlap) : OverlapAction → Overlap
  | .alone (.serve h session) =>
    match s.loaded h with
    | none => { s with world := step env s.world (.serve h session) }
    | some _ => s
  | .alone a => { s with world := step env s.world a }
  | .load h =>
    match s.loaded h, (s.world.handlers h).bind (·.request) with
    | none, some (.finalize callId _) =>
      match s.world.calls.lookup callId with
      | some call =>
        if call.endedAt.isSome then s else { s with loaded := Function.update s.loaded h (some call) }
      | none => s
    | _, _ => s
  | .commit h =>
    match s.loaded h, s.world.handlers h with
    | some call, some x =>
      match x.request with
      | some (.finalize _ finalization) =>
        let calls := s.world.calls.update (Finalize.flushStmt call finalization)
        { world := World.setHandler { s.world with calls := calls } h
            { x with request := none, answer := some .finalized }
          loaded := Function.update s.loaded h none }
      | _ => s
    | _, _ => s

end CallingAgent.Impl.Exotel
