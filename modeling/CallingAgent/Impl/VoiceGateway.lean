import CallingAgent.Impl.Exotel
import CallingAgent.Impl.SessionManager
import CallingAgent.Impl.VoicePipeline

/-!
# The handlers of the voice gateway

`voice_websocket` and `_run_call` of `services/voice-gateway/voice_pipeline.py`,
`callback` of `exotel_routes.py` and the turns of `AIProcessor` of
`conversation.py`, as programs, in any number of gateway processes that share one
Redis (`src/main.py`).

A handler is a coroutine of its process. It runs without interruption from one
await to the next, so that a process has at most one handler that runs (`current`);
but its Redis commands are carried out one by one, among those of other
processes, and each of them can fail. What a handler awaits, and what the API,
the call store and `uuid4` give it, can be anything (`go`). Redis can drop a key
whose time is up (`expire`), and a process can be restarted (`restart`).

The shutdown phase of `_lifespan` is that of `Impl.VoicePipeline`.
-/

namespace CallingAgent.Impl.VoiceGateway

open CallingAgent.Framework CallingAgent.Impl CallingAgent.Impl.Calls CallingAgent.Impl.Exotel
open CallingAgent.Impl.VoicePipeline (Lifespan drainPollIntervalSeconds)

structure Config where
  sessions : SessionManager.Config
  allowUnresolvedSessions : Bool
  /-- `_DRAIN_TIMEOUT_SECONDS`. -/
  drainTimeoutSeconds : Int
  /-- `settings.webhook_token`. -/
  webhookToken : String
  /-- `routing is not None`. -/
  routing : Bool
  /-- `str.lower`. -/
  lower : String → String

/-- The exceptions that the handlers tell apart. -/
inductive Exc
  | valueError
  | aiError
  | internalApiError
  | httpException (statusCode : Nat) (detail : String)
  | other
  deriving DecidableEq

/-- What a handler calls out for. `transport` is the construction of the transport,
the processors and the worker. -/
inductive Query
  | session (q : SessionManager.Query)
  | isDraining
  | onCallStarted
  | onCallEnded
  | transport
  | uuid4
  | storeGet (providerCallId : String)
  | storeSet (providerCallId : String) (callId : CallId)
  | storeDelete (providerCallId : String)
  | close (code : Nat) (reason : String)
  | accept
  | parseTelephonyWebsocket
  | addWorkers
  | run
  | cleanup
  | generateResponse
  | pushFrame (text : String)
  | record (payload : ExotelCallback)
  | resolve (dialedNumber : String)
  | create (call : CallCreateRequest)
  | finalize (callId : CallId) (finalization : FinalizeRequest)
  deriving DecidableEq

abbrev Reply : Query → Type
  | .session q => SessionManager.Reply q
  | .isDraining => Bool
  | .onCallStarted => Unit
  | .onCallEnded => Unit
  | .transport => Except Exc Unit
  | .uuid4 => CallId
  | .storeGet _ => Option CallId
  | .storeSet _ _ => Unit
  | .storeDelete _ => Unit
  | .close _ _ => Except Exc Unit
  | .accept => Except Exc Unit
  | .parseTelephonyWebsocket => Except Exc Unit
  | .addWorkers => Except Exc Unit
  | .run => Except Exc Unit
  | .cleanup => Except Exc Unit
  | .generateResponse => Except Exc String
  | .pushFrame _ => Except Exc Unit
  | .record _ => Except Exc Bool
  | .resolve _ => Except Exc (String × String)
  | .create _ => Except Exc Unit
  | .finalize _ _ => Except Exc Unit

/-- The calls at which other coroutines of the process run. -/
def Query.isAwait : Query → Bool
  | .session _ | .isDraining | .onCallStarted | .onCallEnded | .transport | .uuid4 => false
  | .storeGet _ | .storeSet _ _ | .storeDelete _ => false
  | _ => true

abbrev Handler := Prog Query Reply Exc

/-- The session manager's calls are the handler's. -/
def session {α : Type} (p : SessionManager.Method Exc α) : Handler α :=
  p.translate fun q => Prog.ask (Query.session q)

/-- A call that returns or raises. -/
def orRaise {α : Type} : Except Exc α → Handler α
  | .ok a => pure a
  | .error e => throw e

/-- `except` with one class: the exception becomes `none`. -/
def except? {α : Type} (exc : Exc) : Except Exc α → Handler (Option α)
  | .ok a => pure (some a)
  | .error e => if e = exc then pure none else throw e

/-! ## The websocket -/

/-- The session is ended and removed, if there is one. -/
def cleanSession (cfg : Config) (callId : CallId) : Handler Unit := do
  if (← session (SessionManager.get cfg.sessions callId)).isSome then
    session (SessionManager.endSession cfg.sessions callId)
    session (SessionManager.remove cfg.sessions callId)

/-- `_run_call`. -/
def runCall (cfg : Config) (callId : CallId) : Handler Unit := do
  match ← except? .valueError (← Prog.ask Query.parseTelephonyWebsocket) with
  | none => cleanSession cfg callId
  | some _ =>
    orRaise (← Prog.ask Query.transport)
    orRaise (← Prog.ask Query.addWorkers)
    Prog.tryFinally
      (do orRaise (← Prog.ask Query.run))
      (do
        cleanSession cfg callId
        orRaise (← Prog.ask Query.cleanup))

/-- `voice_websocket`, from `accept()` on. -/
def acceptCall (cfg : Config) (callId : CallId) : Handler Unit := do
  orRaise (← Prog.ask Query.accept)
  Prog.ask Query.onCallStarted
  Prog.tryFinally (runCall cfg callId) (Prog.ask Query.onCallEnded)

def voiceWebsocket (cfg : Config) (callId : CallId) : Handler Unit := do
  if ← Prog.ask Query.isDraining then
    orRaise (← Prog.ask (Query.close 1013 "server draining for deploy"))
  else
    match ← session (SessionManager.get cfg.sessions callId) with
    | some _ => acceptCall cfg callId
    | none =>
      if !cfg.allowUnresolvedSessions then
        orRaise (← Prog.ask (Query.close 4404 "unknown call_id"))
      else
        session (SessionManager.create cfg.sessions callId "unknown" "unknown")
        acceptCall cfg callId

/-- `_respond` of `AIProcessor`. -/
def respond (cfg : Config) (callId : CallId) : Handler Unit := do
  let answer ← except? .aiError (← Prog.ask Query.generateResponse)
  let response := answer.getD "I'm sorry, something went wrong on my end. Could you repeat that?"
  session (SessionManager.addTurn cfg.sessions callId .assistant response)
  orRaise (← Prog.ask (Query.pushFrame response))

/-- A turn of `AIProcessor`: the greeting, or the answer to what the caller has said. -/
def converse (cfg : Config) (callId : CallId) : Option String → Handler Unit
  | none => respond cfg callId
  | some text => do
    session (SessionManager.addTurn cfg.sessions callId .user text)
    let _ ← session (SessionManager.get cfg.sessions callId)
    respond cfg callId

/-! ## The callback -/

/-- A request to `/telephony/exotel/callback`: the token in its header and in its
query, and the payload, if it is valid. -/
structure CallbackRequest where
  headerToken : Option String
  queryToken : Option String
  payload : Option ExotelCallback

/-- `x_exotel_webhook_token or request.query_params.get("token")`. -/
def CallbackRequest.token (request : CallbackRequest) : Option String :=
  match request.headerToken.filter (· ≠ "") with
  | some token => some token
  | none => request.queryToken

/-- `hmac.compare_digest`: a `TypeError` for what is not ASCII. -/
def compareDigest (a b : String) : Except Exc Bool :=
  if a.toList.all (·.toNat < 128) && b.toList.all (·.toNat < 128) then .ok (a = b) else .error .other

def authenticate (cfg : Config) (request : CallbackRequest) : Except Exc Unit :=
  match request.token.filter (· ≠ "") with
  | none => .error (.httpException 401 "invalid Exotel callback authentication")
  | some token =>
    match compareDigest token cfg.webhookToken with
    | .ok true => .ok ()
    | .ok false => .error (.httpException 401 "invalid Exotel callback authentication")
    | .error e => .error e

/-- `end_reason`. -/
def endReason (cfg : Config) (payload : ExotelCallback) : String :=
  if cfg.lower payload.event = "failed" ∨
      cfg.lower (payload.callStatus.getD "") ∈ ["failed", "busy", "no-answer"] then
    "provider_failure"
  else "caller_hangup"

/-- The call is made in the API, and then its session and its entry. -/
def createSession (cfg : Config) (payload : ExotelCallback) (tenantId agentId : String) : Handler Exotel.Reply := do
  let callId ← Prog.ask Query.uuid4
  let now ← session SessionManager.clock
  let call : CallCreateRequest :=
    { callId := callId
      tenantId := tenantId
      agentId := agentId
      startedAt := now
      providerCallId := some payload.providerCallId }
  match ← except? .internalApiError (← Prog.ask (Query.create call)) with
  | none => throw (.httpException 503 "internal call creation unavailable")
  | some _ =>
    session (SessionManager.create cfg.sessions callId tenantId agentId)
    Prog.ask (Query.storeSet payload.providerCallId callId)
    return .ok .sessionStarted callId

/-- An event that opens a call. -/
def startCall (cfg : Config) (payload : ExotelCallback) : Handler Exotel.Reply := do
  match cfg.routing, payload.number with
  | false, _ => throw (.httpException 503 "phone-number routing API dependency is unavailable")
  | true, none => throw (.httpException 422 "Exotel callback is missing dialed number")
  | true, some number =>
    match ← except? .internalApiError (← Prog.ask (Query.resolve number)) with
    | none => throw (.httpException 404 "phone-number route not found")
    | some (tenantId, agentId) => createSession cfg payload tenantId agentId

/-- An event that ends a call. -/
def endCall (cfg : Config) (payload : ExotelCallback) : Handler Exotel.Reply := do
  let entry : Option CallId ← Prog.ask (Query.storeGet payload.providerCallId)
  match entry.filter (· ≠ "") with
  | none => return .ok .ignored ""
  | some callId =>
    let now ← session SessionManager.clock
    let finalization : FinalizeRequest := { endedAt := now, endReason := endReason cfg payload }
    match ← except? .internalApiError (← Prog.ask (Query.finalize callId finalization)) with
    | none => throw (.httpException 503 "internal call finalization unavailable")
    | some _ =>
      cleanSession cfg callId
      Prog.ask (Query.storeDelete payload.providerCallId)
      return .ok .sessionCleaned callId

def callback (cfg : Config) (request : CallbackRequest) : Handler Exotel.Reply := do
  orRaise (authenticate cfg request)
  match request.payload with
  | none => throw (.httpException 422 "Invalid request body")
  | some payload =>
    match ← except? .internalApiError (← Prog.ask (Query.record payload)) with
    | none => throw (.httpException 503 "durable event recording unavailable")
    | some true =>
      let entry : Option CallId ← Prog.ask (Query.storeGet payload.providerCallId)
      return .ok .duplicate (entry.getD "")
    | some false =>
      if cfg.lower payload.event ∈ startEvents then startCall cfg payload
      else if cfg.lower payload.event ∈ endEvents then endCall cfg payload
      else return .ok .ignored ""

/-! ## The processes -/

/-- What a coroutine is for. -/
inductive Kind
  | websocket (callId : CallId)
  | conversation (callId : CallId) (text : Option String)
  | callback (request : CallbackRequest)

/-- What it runs. -/
def Kind.prog (cfg : Config) : Kind → Handler (Option Exotel.Reply)
  | .websocket callId => do
    voiceWebsocket cfg callId
    return none
  | .conversation callId text => do
    converse cfg callId text
    return none
  | .callback request => do
    let reply ← VoiceGateway.callback cfg request
    return some reply

/-- A coroutine: the rest of its program. `started` and `ended` record that it has
passed `on_call_started` and `on_call_ended`; a restart of its process ends it. -/
structure Task where
  inst : Nat
  kind : Kind
  prog : Handler (Option Exotel.Reply)
  alive : Bool
  started : Bool
  ended : Bool

/-- `_mem` and the module's globals, `_lifespan` with the number of its sleeps, and
the coroutine that runs. -/
structure Process where
  mem : CallId → Option SessionManager.Session
  draining : Bool
  activeCalls : Int
  lifespan : Lifespan
  sleeps : Nat
  current : Option Nat

def Process.init : Process where
  mem _ := none
  draining := false
  activeCalls := 0
  lifespan := .serving
  sleeps := 0
  current := none

/-- A call that a coroutine has made, and its answer. -/
structure Event where
  task : Nat
  query : Query
  reply : Reply query

/-- `trace` has the calls answered, latest first. -/
structure World where
  redis : String → Option String
  now : Time
  processes : Nat → Process
  tasks : List Task
  trace : List Event

/-- No gateway has run yet. -/
def World.init (now : Time) : World where
  redis _ := none
  now := now
  processes _ := .init
  tasks := []
  trace := []

def World.setProcess (w : World) (i : Nat) (p : Process) : World :=
  { w with processes := Function.update w.processes i p }

/-- The coroutine goes on without giving way. -/
def goesOn {α : Type} : Handler α → Bool
  | .call q _ => !q.isAwait
  | _ => false

/-- A coroutine of process `i` starts. -/
def World.spawn (cfg : Config) (w : World) (i : Nat) (kind : Kind) : World :=
  if (w.processes i).current = none then
    { w with
      processes := Function.update w.processes i
        { w.processes i with current := if goesOn (kind.prog cfg) then some w.tasks.length else none }
      tasks := w.tasks ++ [⟨i, kind, kind.prog cfg, true, false, false⟩] }
  else w

/-- The answer to a call of a coroutine of process `i`. The session manager's calls
and the globals are served here; `env` is everything else. -/
def World.serve (w : World) (i : Nat) (outcome : SessionManager.Outcome) (env : (q : Query) → Reply q) :
    (q : Query) → World × Reply q
  | .session q =>
    let (s, r) := SessionManager.Store.answer ⟨(w.processes i).mem, w.redis, w.now, [outcome]⟩ q
    ({ w.setProcess i { w.processes i with mem := s.mem } with redis := s.redis }, r)
  | .isDraining => (w, (w.processes i).draining)
  | .onCallStarted =>
    (w.setProcess i { w.processes i with activeCalls := (w.processes i).activeCalls + 1 }, ())
  | .onCallEnded =>
    (w.setProcess i { w.processes i with activeCalls := (w.processes i).activeCalls - 1 }, ())
  | q => (w, env q)

/-- Coroutine `h` has the answer to a call, and goes on with the rest. -/
def World.resume (w : World) (h : Nat) (t : Task) (q : Query) (r : Reply q)
    (rest : Handler (Option Exotel.Reply)) : World :=
  { w with
    processes := Function.update w.processes t.inst
      { w.processes t.inst with current := if goesOn rest then some h else none }
    tasks := w.tasks.set h
      { t with prog := rest, started := t.started || q = .onCallStarted, ended := t.ended || q = .onCallEnded }
    trace := ⟨h, q, r⟩ :: w.trace }

/-- A coroutine that awaits goes on when none runs, and one that runs when it is the
one. -/
def World.ready (w : World) (h : Nat) (t : Task) (q : Query) : Bool :=
  t.alive && ((w.processes t.inst).current = if q.isAwait then none else some h)

/-- The test of the drain loop, and what follows when it fails; `sleeps` counts the
calls of `asyncio.sleep`. -/
def Process.drainLoop (cfg : Config) (p : Process) (waited : Int) : Process :=
  if p.activeCalls > 0 ∧ waited < cfg.drainTimeoutSeconds then
    { p with lifespan := .draining waited, sleeps := p.sleeps + 1 }
  else if p.activeCalls > 0 then { p with lifespan := .timedOut p.activeCalls }
  else { p with lifespan := .complete }

/-- The shutdown phase of `_lifespan`, up to its first await. -/
def Process.shutdown (cfg : Config) (p : Process) : Process :=
  match p.lifespan, p.current with
  | .serving, none => { p with draining := true }.drainLoop cfg 0
  | _, _ => p

/-- After a sleep. -/
def Process.wake (cfg : Config) (p : Process) : Process :=
  match p.lifespan, p.current with
  | .draining waited, none => p.drainLoop cfg (waited + drainPollIntervalSeconds)
  | _, _ => p

inductive Action
  | tick (d : Nat)
  /-- Redis drops a key. -/
  | expire (key : String)
  | connect (i : Nat) (callId : CallId)
  | callback (i : Nat) (request : CallbackRequest)
  /-- The pipeline of websocket `h` takes up a transcription, or its start. -/
  | turn (h : Nat) (text : Option String)
  /-- The call that coroutine `h` has come to is answered. -/
  | go (h : Nat) (outcome : SessionManager.Outcome) (env : (q : Query) → Reply q)
  | shutdown (i : Nat)
  | wake (i : Nat)
  | restart (i : Nat)

/-- A restart ends the coroutines of a process. -/
def Task.restart (i : Nat) (t : Task) : Task := if t.inst = i then { t with alive := false } else t

def step (cfg : Config) (w : World) : Action → World
  | .tick d => { w with now := w.now + d }
  | .expire key => { w with redis := Function.update w.redis key none }
  | .connect i callId => w.spawn cfg i (.websocket callId)
  | .callback i request => w.spawn cfg i (.callback request)
  | .turn h text =>
    match w.tasks[h]? with
    | some { inst := i, kind := .websocket callId, alive := true, started := true, .. } =>
      w.spawn cfg i (.conversation callId text)
    | _ => w
  | .go h outcome env =>
    match w.tasks[h]? with
    | some t =>
      match t.prog with
      | .call q k =>
        if w.ready h t q then
          let (w, r) := w.serve t.inst outcome env q
          w.resume h t q r (k r)
        else w
      | _ => w
    | none => w
  | .shutdown i => w.setProcess i ((w.processes i).shutdown cfg)
  | .wake i => w.setProcess i ((w.processes i).wake cfg)
  | .restart i =>
    { w.setProcess i .init with tasks := w.tasks.map (Task.restart i) }

end CallingAgent.Impl.VoiceGateway
