import CallingAgent.Impl.Monitoring

/-!
# `services/api/src/main.py`: `request_logging`

The HTTP middleware that feeds the rolling window, around the handlers of the API.
Below it an `HTTPException` is made a response (`callNext`), above it any other
exception is (`serverError`); both are Starlette's. Requests overlap: each comes with
the time at which it was begun.
-/

namespace CallingAgent.Impl.RequestLogging

open CallingAgent.Framework CallingAgent.Impl.Monitoring

structure StatusCode where
  code : Nat
  range : 100 ≤ code ∧ code ≤ 599 := by decide
  deriving DecidableEq

/-- A `5xx`. -/
def StatusCode.isServerError (s : StatusCode) : Bool := s.code / 100 = 5

structure Response where
  statusCode : StatusCode
  /-- The header `X-Request-Id`. -/
  xRequestId : Option String := none
  deriving DecidableEq

/-- What a handler does. -/
inductive Outcome
  | response (response : Response)
  | httpException (statusCode : StatusCode)
  | exception
  deriving DecidableEq

/-- `call_next`; `none` is an exception that comes out of it. -/
def callNext : Outcome → Option Response
  | .response response => some response
  | .httpException statusCode => some { statusCode := statusCode }
  | .exception => none

/-- `round` to an integer: halves go to the even one. -/
def roundHalfEven (x : ℚ) : ℤ :=
  if Int.fract x < 1 / 2 then ⌊x⌋
  else if 1 / 2 < Int.fract x then ⌊x⌋ + 1
  else if ⌊x⌋ % 2 = 0 then ⌊x⌋
  else ⌊x⌋ + 1

/-- A request. `uuid4` is the text of the `uuid4` it gets, and `start` the time at which
it was begun. -/
structure Request where
  uuid4 : String
  start : ℚ
  outcome : Outcome

/-- The middleware, when `call_next` is done at the time `now`. -/
def requestLogging (registry : MetricsRegistry) (now : ℚ) (request : Request) : MetricsRegistry × Option Response :=
  let requestId := String.ofList (request.uuid4.toList.take 8)
  match callNext request.outcome with
  | none => (registry, none)
  | some response =>
    let elapsedMs := roundHalfEven ((now - request.start) * 1000)
    (registry.record now response.statusCode.code elapsedMs, some { response with xRequestId := some requestId })

/-- The outermost layer, which answers an exception with a 500. -/
def serverError : Option Response → Response
  | some response => response
  | none => { statusCode := ⟨500, by decide⟩ }

/-- The registry after a request, and the answer its client gets. -/
def serve (registry : MetricsRegistry) (now : ℚ) (request : Request) : MetricsRegistry × Response :=
  let (registry, response) := requestLogging registry now request
  (registry, serverError response)

inductive Action
  | tick (d : ℚ≥0)
  | request (request : Request)
  | snapshot

def step (w : World) : Action → World
  | .tick d => { w with now := w.now + d }
  | .request request => { w with registry := (serve w.registry w.now request).1 }
  | .snapshot => { w with registry := (w.registry.snapshot w.now).1 }

/-- A request that is done: when, and how it was answered. -/
structure Answered where
  time : ℚ
  response : Response
  deriving DecidableEq

def answered (w : World) : Action → List Answered
  | .request request => [⟨w.now, (serve w.registry w.now request).2⟩]
  | _ => []

end CallingAgent.Impl.RequestLogging
