import CallingAgent.Impl.Models

/-!
# The guards of the internal routes and of the Exotel callback

`verify_internal_token` of `services/api/src/routers/internal.py`,
`_verify_internal_token` of `services/integration-service/src/main.py`, and the token check
at the start of `callback` in `services/voice-gateway/exotel_routes.py`. Each stands in
front of the body of a handler (`guarded`).
-/

namespace CallingAgent.Impl.SharedSecret

open CallingAgent.Impl

def isAscii (s : String) : Bool := s.toList.all fun c => c.toNat < 128

/-- `hmac.compare_digest` of two `str`; it raises `TypeError` if one is not ASCII. -/
def compareDigest (a b : String) : Answer Bool := if isAscii a && isAscii b then .ok (a == b) else .raised

/-- `not s`, of a text or `None`. -/
def falsy (s : Option String) : Bool := s.getD "" == ""

/-- `HTTPException(401)` unless the comparison gives `True`. -/
def requireEqual (presented secret detail : String) : Answer Unit :=
  (compareDigest presented secret).bind fun equal => if equal then .ok () else .httpException 401 detail

/-- What the two internal guards have in common. -/
def internalGuard (secret : String) (presented : Option String) : Answer Unit :=
  if secret == "" || falsy presented then .httpException 401 "invalid or missing internal API token"
  else requireEqual (presented.getD "") secret "invalid or missing internal API token"

/-- `verify_internal_token`. -/
def verifyInternalToken (internalApiToken : String) (xInternalApiToken : Option String) : Answer Unit :=
  internalGuard internalApiToken xInternalApiToken

/-- The `_verify_internal_token` of the integration service. -/
def IntegrationService.verifyInternalToken (internalApiToken : String) (xInternalApiToken : Option String) : Answer Unit :=
  internalGuard internalApiToken xInternalApiToken

/-- `x_exotel_webhook_token or request.query_params.get("token")`. -/
def presentedToken (header query : Option String) : Option String := if falsy header then query else header

/-- The check of `callback`; that the configured token is not empty is left to the
configuration. -/
def verifyWebhookToken (webhookToken : String) (header query : Option String) : Answer Unit :=
  if falsy (presentedToken header query) then .httpException 401 "invalid Exotel callback authentication"
  else requireEqual ((presentedToken header query).getD "") webhookToken "invalid Exotel callback authentication"

/-- A handler whose body works on a state of the service. -/
def guarded {W β : Type} (guard : Answer Unit) (body : W → W × Answer β) (w : W) : W × Answer β :=
  match guard with
  | .ok () => body w
  | .httpException statusCode detail => (w, .httpException statusCode detail)
  | .raised => (w, .raised)

end CallingAgent.Impl.SharedSecret
