import CallingAgent.Framework.Run

/-!
# The voice websocket, and the drain at shutdown

`voice_websocket` of `services/voice-gateway/voice_pipeline.py`, with
`_on_call_started`, `_on_call_ended` and the shutdown phase of `_lifespan` of
`services/voice-gateway/src/main.py`, on one event loop: a step is what one
coroutine does between two awaits. A handler first runs up to `accept()` or
`close()` (`connect`); it goes on when that returns (`accepted`, `closed`) or
raises (`refused`), and ends with its call (`callEnds`), however `_run_call`
ends. The shutdown phase runs up to its first `sleep` (`shutdown`) and goes on
after each (`wake`).

Whether `session_manager` knows the call id is an input of `connect`: what the
sessions are is not looked at here.
-/

namespace CallingAgent.Impl.VoicePipeline

structure Config where
  allowUnresolvedSessions : Bool
  /-- `_DRAIN_TIMEOUT_SECONDS`. -/
  drainTimeoutSeconds : Int

/-- `_DRAIN_POLL_INTERVAL_SECONDS`. -/
def drainPollIntervalSeconds : Int := 2

/-- What a handler of `/ws/{call_id}` awaits. -/
inductive Handler
  | closing (code : Nat)
  | accepting
  | running
  | ended
  deriving DecidableEq

/-- Where `_lifespan` stands: before its shutdown phase, in the drain loop, or
after it, with the calls still active or none. -/
inductive Lifespan
  | serving
  | draining (waited : Int)
  | timedOut (active : Int)
  | complete
  deriving DecidableEq

/-- The module's globals, the handlers in the order they came, and `_lifespan`. -/
structure World where
  draining : Bool
  activeCalls : Int
  handlers : List Handler
  lifespan : Lifespan

def World.init : World where
  draining := false
  activeCalls := 0
  handlers := []
  lifespan := .serving

inductive Action
  | connect (known : Bool)
  | closed (n : Nat)
  | accepted (n : Nat)
  | refused (n : Nat)
  | callEnds (n : Nat)
  | shutdown
  | wake
  deriving DecidableEq

def World.setHandler (w : World) (n : Nat) (x : Handler) : World :=
  { w with handlers := w.handlers.set n x }

def World.onCallStarted (w : World) : World := { w with activeCalls := w.activeCalls + 1 }

def World.onCallEnded (w : World) : World := { w with activeCalls := w.activeCalls - 1 }

/-- The handler up to its first await. -/
def connect (cfg : Config) (w : World) (known : Bool) : Handler :=
  if w.draining then .closing 1013
  else if !known && !cfg.allowUnresolvedSessions then .closing 4404
  else .accepting

/-- The test of the drain loop, and what follows when it fails. -/
def drainLoop (cfg : Config) (w : World) (waited : Int) : Lifespan :=
  if w.activeCalls > 0 ∧ waited < cfg.drainTimeoutSeconds then .draining waited
  else if w.activeCalls > 0 then .timedOut w.activeCalls
  else .complete

def step (cfg : Config) (w : World) : Action → World
  | .connect known => { w with handlers := w.handlers ++ [connect cfg w known] }
  | .closed n =>
    match w.handlers[n]? with
    | some (.closing _) => w.setHandler n .ended
    | _ => w
  | .accepted n =>
    match w.handlers[n]? with
    | some .accepting => (w.setHandler n .running).onCallStarted
    | _ => w
  | .refused n =>
    match w.handlers[n]? with
    | some .accepting => w.setHandler n .ended
    | _ => w
  | .callEnds n =>
    match w.handlers[n]? with
    | some .running => (w.setHandler n .ended).onCallEnded
    | _ => w
  | .shutdown =>
    match w.lifespan with
    | .serving => { w with draining := true, lifespan := drainLoop cfg w 0 }
    | _ => w
  | .wake =>
    match w.lifespan with
    | .draining waited => { w with lifespan := drainLoop cfg w (waited + drainPollIntervalSeconds) }
    | _ => w

end CallingAgent.Impl.VoicePipeline
