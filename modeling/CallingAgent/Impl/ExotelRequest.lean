import CallingAgent.Impl.Exotel
import CallingAgent.Impl.SharedSecret

/-!
# The request of the Exotel callback

`callback` of `services/voice-gateway/exotel_routes.py` up to the validated payload, with
`ExotelCallback.translate_exotel_fields`. What the framework decodes of a request is given:
its query string and its body as dicts. A JSON body can have values that are not strings;
of these only their truth value is kept.
-/

namespace CallingAgent.Impl.ExotelRequest

open CallingAgent.Framework CallingAgent.Impl CallingAgent.Impl.Exotel CallingAgent.Impl.SharedSecret

inductive Value
  | null
  | text (s : String)
  | other (truthy : Bool)
  deriving DecidableEq

/-- A dict; `none` is a key it does not have. -/
abbrev Fields := String → Option Value

/-- A body, by the content type of the request; the JSON is `none` if it does not parse,
and `some none` if it is not an object. -/
inductive Content
  | form (fields : Fields)
  | json (body : Option (Option Fields))
  | other

structure Request where
  post : Bool
  query : String → Option String
  xExotelWebhookToken : Option String
  content : Content

/-! ## The fields -/

/-- `v not in (None, "")`. -/
def notEmpty (v : Value) : Bool := v ≠ .null && v ≠ .text ""

/-- `dict(request.query_params)` without `token`. -/
def Request.queryFields (request : Request) : Fields := fun k =>
  if k = "token" then none else (request.query k).map .text

/-- `raw.update({k: v for k, v in body.items() if v not in (None, "")})`. -/
def update (raw body : Fields) : Fields := fun k => ((body k).filter notEmpty).or (raw k)

/-- `raw`; `none` is the `ValueError` of `request.json()`. -/
def Request.raw (request : Request) : Option Fields :=
  if request.post then
    match request.content with
    | .form fields => some (update request.queryFields fields)
    | .json (some (some fields)) => some (update request.queryFields fields)
    | .json (some none) => some request.queryFields
    | .json none => none
    | .other => some request.queryFields
  else some request.queryFields

/-! ## `ExotelCallback` -/

def truthy : Value → Bool
  | .null => false
  | .text s => s ≠ ""
  | .other truthy => truthy

/-- `value.get(k)`. -/
def get (value : Fields) (k : String) : Value := (value k).getD .null

/-- `a or b`. -/
def orElse (a b : Value) : Value := if truthy a then a else b

/-- `str = Field(min_length=1)`. -/
def nonEmptyText : Value → Option { s : String // s ≠ "" }
  | .text s => if h : s ≠ "" then some ⟨s, h⟩ else none
  | _ => none

/-- `str | None`. -/
def optionalText : Value → Option (Option String)
  | .null => some none
  | .text s => some (some s)
  | .other _ => none

/-- `ExotelCallback.model_validate(raw)`, or `none` for a `ValidationError`. -/
def modelValidate (raw : Fields) : Option ExotelCallback := do
  let providerCallId ← nonEmptyText (get raw "CallSid")
  let event ← nonEmptyText (get raw "EventType")
  let dialedNumber ← optionalText (orElse (orElse (get raw "To") (get raw "to")) (get raw "Called"))
  let callStatus ← optionalText (orElse (get raw "Status") (get raw "status"))
  return {
    providerCallId := providerCallId.1
    event := event.1
    dialedNumber := dialedNumber
    callStatus := callStatus
    providerCallId_length := providerCallId.2
    event_length := event.2 }

/-- `callback`, before its first `await` of the API. -/
def receive (webhookToken : String) (request : Request) : Answer ExotelCallback :=
  (verifyWebhookToken webhookToken request.xExotelWebhookToken (request.query "token")).bind fun _ =>
    match request.raw.bind modelValidate with
    | some payload => .ok payload
    | none => .httpException 422 "Invalid request body"

/-! ## The request in the gateway -/

/-- The reply of a handler that has returned. -/
def givenReply (w : World) (h : Nat) : Option Reply :=
  match w.handlers h with
  | some ⟨_, _, .returned reply, _, _⟩ => some reply
  | _ => none

/-- A request that arrives as `h` at the process `inst`, and what happens in the gateway
after it: the world, and the reply if it has been given. -/
def callback (env : Env) (webhookToken : String) (w : World) (h inst : Nat) (request : Request) (later : List Action) :
    World × Option Reply :=
  match receive webhookToken request with
  | .ok payload =>
    let w := run (step env) w (.deliver h inst payload :: later)
    (w, givenReply w h)
  | .httpException statusCode detail => (run (step env) w later, some (.httpException statusCode detail))
  | .raised => (run (step env) w later, some (.httpException 500 "Internal Server Error"))

end CallingAgent.Impl.ExotelRequest
