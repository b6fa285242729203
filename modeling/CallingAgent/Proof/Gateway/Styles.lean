import CallingAgent.Impl.ExotelRequest
import CallingAgent.Proof.Gateway.Active

/-!
# Callbacks in the query, in a form and in JSON

* `modelValidate_bare`: what a callback is for the gateway depends on the texts of its
  fields, and an empty text is the same as none; the payloads differ at most in where the
  dialed number or the status is empty;
* `step_bare`, `run_bare`: this difference reaches the recorded payload of the event and
  nothing else;
* `delivery_style`: so the way the fields are delivered makes no difference.
-/

namespace CallingAgent.Proof.Gateway

open CallingAgent.Framework CallingAgent.Impl CallingAgent.Impl.Calls CallingAgent.Impl.Exotel
open CallingAgent.Impl.Jobs hiding Action step
open CallingAgent.Impl.ExotelRequest CallingAgent.Impl.SharedSecret

/-! ## Payloads up to empty texts -/

/-- A text, unless it is empty. -/
def nonEmpty (s : String) : Option String := if s = "" then none else some s

/-- The payload without empty texts. -/
def barePayload (payload : ExotelCallback) : ExotelCallback :=
  { payload with
    dialedNumber := payload.number
    callStatus := payload.callStatus.filter (· ≠ "") }

/-- `null` and texts. -/
def isText : Value → Bool
  | .other _ => false
  | _ => true

def text : Value → String
  | .text s => s
  | _ => ""

variable {v v' : Value}

theorem truthy_eq (h : isText v) : truthy v = (text v ≠ "") := by
  cases v with
  | null => simp [truthy, text]
  | text s => simp [truthy, text]
  | other b => cases h

theorem isText_orElse (h : isText v) (h' : isText v') : isText (orElse v v') := by
  unfold orElse
  split
  · exact h
  · exact h'

/-- `a or b` of two texts. -/
def orText (a b : String) : String := if a = "" then b else a

theorem text_orElse (h : isText v) : text (orElse v v') = orText (text v) (text v') := by
  unfold orElse orText
  by_cases he : text v = ""
  · rw [if_pos he, if_neg (by rw [truthy_eq h]; exact not_not_intro he)]
  · rw [if_neg he, if_pos (by rw [truthy_eq h]; exact he)]

theorem nonEmptyText_eq (h : isText v) :
    nonEmptyText v = if h : text v ≠ "" then some ⟨text v, h⟩ else none := by
  cases v with
  | null => rfl
  | text s => rfl
  | other b => cases h

theorem optionalText_eq (h : isText v) : ∃ x, optionalText v = some x ∧ x.filter (· ≠ "") = nonEmpty (text v) := by
  cases v with
  | null => exact ⟨none, rfl, rfl⟩
  | text s =>
    refine ⟨some s, rfl, ?_⟩
    by_cases hs : s = "" <;> simp [Option.filter, nonEmpty, text, hs]
  | other b => cases h

/-- The payload that the texts of the fields make. -/
def fromTexts (t : String → String) : Option ExotelCallback :=
  if h : t "CallSid" ≠ "" ∧ t "EventType" ≠ "" then
    some
      { providerCallId := t "CallSid"
        event := t "EventType"
        dialedNumber := nonEmpty (orText (orText (t "To") (t "to")) (t "Called"))
        callStatus := nonEmpty (orText (t "Status") (t "status"))
        providerCallId_length := h.1
        event_length := h.2 }
  else none

theorem modelValidate_bare {raw : Fields} (h : ∀ k, isText (ExotelRequest.get raw k)) :
    (modelValidate raw).map barePayload = fromTexts fun k => text (ExotelRequest.get raw k) := by
  obtain ⟨number, hnumber, enumber⟩ := optionalText_eq (isText_orElse (isText_orElse (h "To") (h "to")) (h "Called"))
  obtain ⟨status, hstatus, estatus⟩ := optionalText_eq (isText_orElse (h "Status") (h "status"))
  rw [text_orElse (isText_orElse (h "To") (h "to")), text_orElse (h "To")] at enumber
  rw [text_orElse (h "Status")] at estatus
  unfold modelValidate fromTexts
  rw [nonEmptyText_eq (h "CallSid"), nonEmptyText_eq (h "EventType"), hnumber, hstatus]
  by_cases hid : text (ExotelRequest.get raw "CallSid") ≠ ""
  · by_cases hevent : text (ExotelRequest.get raw "EventType") ≠ ""
    · rw [dif_pos hid, dif_pos hevent, dif_pos ⟨hid, hevent⟩]
      have hboth := And.intro enumber estatus
      simpa [barePayload, ExotelCallback.number] using hboth
    · rw [dif_pos hid, dif_neg hevent, dif_neg (fun hb : _ ∧ _ => hevent hb.2)]
      rfl
  · rw [dif_neg hid, dif_neg (fun hb : _ ∧ _ => hid hb.1)]
    rfl

/-! ## Deliveries -/

/-- The request delivers the fields with a valid token: all in the query of a GET, or each
in the query or in the body of a POST. -/
structure Delivers (webhookToken : String) (fields : String → Option String) (request : Request) : Prop where
  valid : verifyWebhookToken webhookToken request.xExotelWebhookToken (request.query "token") = .ok ()
  noToken : fields "token" = none
  query : request.post = false → ∀ k ≠ "token", request.query k = fields k
  body : request.post = true → ∃ body : Fields,
    (request.content = .form body ∨ request.content = .json (some (some body))) ∧ body "token" = none ∧
      ∀ k ≠ "token", request.query k = none ∧ body k = (fields k).map .text ∨ request.query k = fields k ∧ body k = none

/-- What a field is in `raw`. -/
def IsField (fields : String → Option String) (raw : Fields) : Prop :=
  ∀ k, isText (ExotelRequest.get raw k) ∧ text (ExotelRequest.get raw k) = (fields k).getD ""

variable {webhookToken : String} {fields fields' : String → Option String} {request request' : Request}

theorem isField_of_map {raw : Fields} {k : String} (h : raw k = (fields k).map .text) :
    isText (ExotelRequest.get raw k) ∧ text (ExotelRequest.get raw k) = (fields k).getD "" := by
  rw [ExotelRequest.get, h]
  cases fields k with
  | none => exact ⟨rfl, rfl⟩
  | some s => exact ⟨rfl, rfl⟩

theorem isField_queryFields (hno : fields "token" = none) (h : ∀ k ≠ "token", request.query k = fields k) :
    IsField fields request.queryFields := by
  intro k
  refine isField_of_map ?_
  unfold Request.queryFields
  by_cases hk : k = "token"
  · rw [if_pos hk, hk, hno]
    rfl
  · rw [if_neg hk, h k hk]

theorem isField_update (hno : fields "token" = none) {body : Fields} (hbody : body "token" = none)
    (h : ∀ k ≠ "token", request.query k = none ∧ body k = (fields k).map .text ∨ request.query k = fields k ∧ body k = none) :
    IsField fields (update request.queryFields body) := by
  intro k
  by_cases hk : k = "token"
  · refine isField_of_map ?_
    rw [hk, update, hbody, Request.queryFields, if_pos rfl, hno]
    rfl
  · rcases h k hk with ⟨hq, hb⟩ | ⟨hq, hb⟩
    · have hraw : update request.queryFields body k = ((fields k).map Value.text).filter notEmpty := by
        rw [update, Request.queryFields, if_neg hk, hq, hb]
        exact Option.or_none
      rw [ExotelRequest.get, hraw]
      cases fields k with
      | none => exact ⟨rfl, rfl⟩
      | some s =>
        by_cases hs : s = ""
        · subst hs
          exact ⟨rfl, rfl⟩
        · have hkeep : notEmpty (.text s) = true := by simp [notEmpty, hs]
          rw [Option.map_some, Option.filter_some_pos hkeep]
          exact ⟨rfl, rfl⟩
    · refine isField_of_map ?_
      rw [update, Request.queryFields, if_neg hk, hq, hb]
      rfl

theorem raw_of_delivers (h : Delivers webhookToken fields request) :
    ∃ raw, request.raw = some raw ∧ IsField fields raw := by
  unfold Request.raw
  cases hpost : request.post with
  | false => exact ⟨_, if_neg Bool.false_ne_true, isField_queryFields h.noToken (h.query hpost)⟩
  | true =>
    obtain ⟨body, hcontent, hbody, hsplit⟩ := h.body hpost
    refine ⟨update request.queryFields body, ?_, isField_update h.noToken hbody hsplit⟩
    rw [if_pos rfl]
    rcases hcontent with hcontent | hcontent
    · rw [hcontent]
    · rw [hcontent]

/-- What is received depends on the texts of the fields. -/
theorem receive_of_delivers (h : Delivers webhookToken fields request) :
    (∃ payload, receive webhookToken request = .ok payload ∧
      some (barePayload payload) = fromTexts fun k => (fields k).getD "") ∨
    receive webhookToken request = .httpException 422 "Invalid request body" ∧
      (fromTexts fun k => (fields k).getD "") = none := by
  obtain ⟨raw, hraw, hfields⟩ := raw_of_delivers h
  have htexts : (fun k => text (ExotelRequest.get raw k)) = fun k => (fields k).getD "" := funext fun k => (hfields k).2
  have hbare := modelValidate_bare fun k => (hfields k).1
  rw [htexts] at hbare
  unfold receive
  rw [h.valid, hraw, Option.bind_some, ← hbare]
  cases modelValidate raw with
  | none => exact .inr ⟨rfl, rfl⟩
  | some payload => exact .inl ⟨payload, rfl, rfl⟩

/-! ## The gateway without empty texts -/

/-- The recorded payload is replaced by an empty one. -/
def forgetPayload : Update CallJob.jobId where
  guard _ := true
  set r := { r with payload := some "" }

def bareBody (body : EventCreateRequest) : EventCreateRequest := { body with payload := some "" }

def bareRequest : ApiRequest → ApiRequest
  | .record body => .record (body.map bareBody)
  | request => request

def bareHandler (x : Handler) : Handler :=
  { x with
    payload := barePayload x.payload
    request := x.request.map bareRequest }

/-- A world without what an empty text can make a difference to. -/
def bare (w : World) : World :=
  { w with
    jobs := w.jobs.update forgetPayload
    handlers := fun h => (w.handlers h).map bareHandler }

def bareEnv (env : Env) : Env := { env with dumps := fun _ _ => "" }

def bareAction : Action → Action
  | .deliver h inst payload => .deliver h inst (barePayload payload)
  | a => a

/-! ### The API -/

theorem getJob_forget (db : Conn Tenant.Setting) (jobs : CallJobs) (jobId : JobId) :
    getJob db (jobs.update forgetPayload) jobId = (getJob db jobs jobId).map forgetPayload.row := by
  unfold getJob visible Table.update
  rw [List.filter_map, List.find?_map]
  rfl

theorem find?_pair_forget (db : Conn Tenant.Setting) (jobs : CallJobs) (p eventType : String) :
    (visible db (jobs.update forgetPayload)).find? (hasPair p eventType) =
      ((visible db jobs).find? (hasPair p eventType)).map forgetPayload.row := by
  unfold visible Table.update
  rw [List.filter_map, List.find?_map]
  rfl

theorem insertJob_forget (callIds : List CallId) (jobs : CallJobs) (job : CallJob) :
    insertJob callIds (jobs.update forgetPayload) (forgetPayload.row job) =
      (insertJob callIds jobs job).map (·.update forgetPayload) := by
  have hpair : (job.providerCallId.any fun p => (jobs.update forgetPayload).rows.any (hasPair p job.eventType)) =
      job.providerCallId.any fun p => jobs.rows.any (hasPair p job.eventType) := by
    unfold Table.update
    simp only [List.any_map]
    rfl
  have hpair' : ((forgetPayload.row job).providerCallId.any fun p =>
      (jobs.update forgetPayload).rows.any (hasPair p (forgetPayload.row job).eventType)) =
      job.providerCallId.any fun p => jobs.rows.any (hasPair p job.eventType) := hpair
  have hcall : ((forgetPayload.row job).callId.any fun c => !callIds.contains c) =
      job.callId.any fun c => !callIds.contains c := rfl
  unfold insertJob
  rw [hpair', hcall, Table.insert_update]
  split
  · rfl
  · split
    · rfl
    · rfl

theorem newJob_bare (body : EventCreateRequest) (jobId : JobId) (now : Time) :
    newJob (bareBody body) jobId now = forgetPayload.row (newJob body jobId now) := rfl

theorem createEvent_forget (session : Tenant.Setting) (callIds : List CallId) (jobs later : CallJobs)
    (body : EventCreateRequest) (jobId : JobId) (now : Time) :
    (createEvent session none callIds (jobs.update forgetPayload) (later.update forgetPayload) (bareBody body) jobId
          now).1 =
        (createEvent session none callIds jobs later body jobId now).1.update forgetPayload ∧
      recorded (createEvent session none callIds (jobs.update forgetPayload) (later.update forgetPayload) (bareBody body)
          jobId now).2 =
        recorded (createEvent session none callIds jobs later body jobId now).2 := by
  unfold createEvent
  dsimp only
  rw [newJob_bare, insertJob_forget]
  have htenant : (forgetPayload.row (newJob body jobId now)).tenantId = (newJob body jobId now).tenantId := rfl
  rw [htenant]
  split
  · exact ⟨rfl, rfl⟩
  · cases insertJob callIds jobs (newJob body jobId now) with
    | some jobs' =>
      dsimp only [Option.map_some]
      rw [getJob_forget]
      cases getJob _ later jobId with
      | none => exact ⟨rfl, rfl⟩
      | some job => exact ⟨rfl, rfl⟩
    | none =>
      dsimp only [Option.map_none]
      have hid : (bareBody body).providerCallId = body.providerCallId := rfl
      have htype : (bareBody body).eventType = body.eventType := rfl
      rw [hid, htype]
      cases body.providerCallId with
      | none => exact ⟨rfl, rfl⟩
      | some p =>
        dsimp only
        rw [find?_pair_forget]
        cases (visible _ later).find? (hasPair p body.eventType) with
        | none => exact ⟨rfl, rfl⟩
        | some existing => exact ⟨rfl, rfl⟩

/-- The table as a statement after the insert finds it. -/
def afterInsert (env : Env) (w : World) (body : EventCreateRequest) : CallJobs :=
  (insertJob (w.calls.rows.map (·.callId)) w.jobs (newJob body (env.uuid4 w.issued).1 w.now)).getD w.jobs

theorem afterInsert_bare (env : Env) (w : World) (body : EventCreateRequest) :
    afterInsert (bareEnv env) (bare w) (bareBody body) = (afterInsert env w body).update forgetPayload := by
  have hinsert := insertJob_forget (w.calls.rows.map (·.callId)) w.jobs (newJob body (env.uuid4 w.issued).1 w.now)
  have hafter : afterInsert (bareEnv env) (bare w) (bareBody body) =
      (insertJob (w.calls.rows.map (·.callId)) (w.jobs.update forgetPayload)
        (forgetPayload.row (newJob body (env.uuid4 w.issued).1 w.now))).getD (w.jobs.update forgetPayload) := rfl
  rw [hafter, hinsert, Option.getD_map]
  rfl

/-- `create_event`, as the gateway's request is served. -/
def eventCreated (env : Env) (session : Tenant.Setting) (w : World) (body : EventCreateRequest) :
    CallJobs × Answer EventCreateResponse :=
  createEvent session none (w.calls.rows.map (·.callId)) w.jobs (afterInsert env w body) body (env.uuid4 w.issued).1 w.now

theorem eventCreated_bare (env : Env) (session : Tenant.Setting) (w : World) (body : EventCreateRequest) :
    (eventCreated (bareEnv env) session (bare w) (bareBody body)).1 =
        (eventCreated env session w body).1.update forgetPayload ∧
      recorded (eventCreated (bareEnv env) session (bare w) (bareBody body)).2 =
        recorded (eventCreated env session w body).2 := by
  unfold eventCreated
  rw [afterInsert_bare]
  exact createEvent_forget session _ w.jobs (afterInsert env w body) body _ w.now

theorem serveRequest_record (env : Env) (session : Tenant.Setting) (w : World) (body : EventCreateRequest) :
    serveRequest env session w (.record (some body)) =
      ({ w with jobs := (eventCreated env session w body).1, issued := w.issued + 1 },
        recorded (eventCreated env session w body).2) := rfl

theorem serveRequest_bare (env : Env) (session : Tenant.Setting) (w : World) (request : ApiRequest) :
    serveRequest (bareEnv env) session (bare w) (bareRequest request) =
      (bare (serveRequest env session w request).1, (serveRequest env session w request).2) := by
  cases request with
  | record body =>
    cases body with
    | none => rfl
    | some body =>
      obtain ⟨hjobs, hanswer⟩ := eventCreated_bare env session w body
      have hbare : bareRequest (.record (some body)) = .record (some (bareBody body)) := rfl
      rw [hbare, serveRequest_record, serveRequest_record, hjobs, hanswer]
      rfl
  | resolve number =>
    show serveRequest (bareEnv env) session (bare w) (.resolve number) = _
    unfold serveRequest bareEnv
    dsimp only
    split
    · rfl
    · rfl
  | create call => rfl
  | finalize callId finalization => rfl

/-! ### The handler -/

variable {env : Env} {w : World} {h : Nat} {x : Handler}

theorem bare_setHandler (w : World) (h : Nat) (x : Handler) :
    bare (w.setHandler h x) = (bare w).setHandler h (bareHandler x) := by
  have hhandlers : (fun i => (Function.update w.handlers h (some x) i).map bareHandler) =
      Function.update (fun i => (w.handlers i).map bareHandler) h (some (bareHandler x)) := by
    funext i
    by_cases hi : i = h
    · subst hi
      rw [Function.update_self, Function.update_self]
      rfl
    · rw [Function.update_of_ne hi, Function.update_of_ne hi]
  exact congrArg (fun handlers => { bare w with handlers := handlers }) hhandlers

theorem bare_reply (w : World) (h : Nat) (x : Handler) (reply : Reply) :
    bare (w.reply h x reply) = (bare w).reply h (bareHandler x) reply := bare_setHandler w h _

theorem bare_await (w : World) (h : Nat) (x : Handler) (phase : Phase) (request : ApiRequest)
    (hr : bareRequest request = request) :
    bare (w.await h x phase request) = (bare w).await h (bareHandler x) phase request := by
  unfold World.await
  rw [bare_setHandler]
  show (bare w).setHandler h { bareHandler x with phase := phase, request := some (bareRequest request), answer := none } = _
  rw [hr]

theorem eventType_bare (env : Env) (payload : ExotelCallback) :
    (bareEnv env).eventType (barePayload payload) = env.eventType payload := rfl

theorem endReason_bare (env : Env) (payload : ExotelCallback) :
    (bareEnv env).endReason (barePayload payload) = env.endReason payload := by
  have hstatus : (barePayload payload).callStatus.getD "" = payload.callStatus.getD "" := by
    show (payload.callStatus.filter (· ≠ "")).getD "" = _
    cases payload.callStatus with
    | none => rfl
    | some s =>
      by_cases hs : s = ""
      · subst hs
        rfl
      · rw [Option.filter_some_pos (by simp [hs])]
  have hlower : (bareEnv env).lower = env.lower := rfl
  simp only [Env.endReason, eventType_bare, hstatus, hlower]

theorem number_bare (payload : ExotelCallback) : (barePayload payload).number = payload.number := by
  show (payload.dialedNumber.filter (· ≠ "")).filter (· ≠ "") = payload.dialedNumber.filter (· ≠ "")
  rw [Option.filter_filter]
  simp only [Bool.and_self]

theorem recordBody_bare (env : Env) (payload : ExotelCallback) :
    (bareEnv env).recordBody (barePayload payload) = (env.recordBody payload).map bareBody := by
  by_cases hlength : 1 ≤ (env.eventType payload).length ∧ (env.eventType payload).length ≤ 50
  · have hbody := congrArg (Option.map bareBody) (dif_pos hlength : env.recordBody payload = _)
    exact (dif_pos hlength).trans hbody.symm
  · have hbody := congrArg (Option.map bareBody) (dif_neg hlength : env.recordBody payload = _)
    exact (dif_neg hlength).trans hbody.symm

theorem newEvent_bare (env : Env) (w : World) (h : Nat) (x : Handler) :
    newEvent (bareEnv env) (bare w) h (bareHandler x) = bare (newEvent env w h x) := by
  have hevent : (bareEnv env).eventType (bareHandler x).payload = env.eventType x.payload := rfl
  have hnumber : (bareHandler x).payload.number = x.payload.number := number_bare x.payload
  have hrouting : (bareEnv env).routing = env.routing := rfl
  have hstore : (bare w).storeGet (bareEnv env) (bareHandler x).inst (bareHandler x).payload.providerCallId =
      w.storeGet env x.inst x.payload.providerCallId := rfl
  have hreason : (bareEnv env).endReason (bareHandler x).payload = env.endReason x.payload := endReason_bare env x.payload
  unfold newEvent
  rw [hevent, hnumber, hrouting, hstore, hreason]
  by_cases hstart : env.eventType x.payload ∈ startEvents
  · rw [if_pos hstart, if_pos hstart]
    cases env.routing with
    | none => exact (bare_reply ..).symm
    | some routes =>
      cases x.payload.number with
      | none => exact (bare_reply ..).symm
      | some number => exact (bare_await w h x _ _ rfl).symm
  · rw [if_neg hstart, if_neg hstart]
    by_cases hend : env.eventType x.payload ∈ endEvents
    · rw [if_pos hend, if_pos hend]
      cases w.storeGet env x.inst x.payload.providerCallId with
      | none => exact (bare_reply ..).symm
      | some callId =>
        dsimp only
        have hawait := bare_await w h x (.finalizing callId ⟨w.now, env.endReason x.payload⟩)
          (.finalize callId ⟨w.now, env.endReason x.payload⟩) rfl
        exact congrArg (fun v : World => { v with sent := (h, x.payload.providerCallId, env.eventType x.payload) :: w.sent })
          hawait.symm
    · rw [if_neg hend, if_neg hend]
      exact (bare_reply ..).symm

theorem sessionCreate_bare (env : Env) (w : World) (inst : Nat) (session : Session) :
    (bare w).sessionCreate (bareEnv env) inst session = bare (w.sessionCreate env inst session) := by
  have hredis : (bareEnv env).redis = env.redis := rfl
  unfold World.sessionCreate
  rw [hredis]
  cases env.redis with
  | false => rfl
  | true => rfl

theorem sessionGet_bare (env : Env) (w : World) (inst : Nat) (callId : CallId) :
    (bare w).sessionGet (bareEnv env) inst callId =
      (bare (w.sessionGet env inst callId).1, (w.sessionGet env inst callId).2) := by
  have hredis : (bareEnv env).redis = env.redis := rfl
  have hsessions : (bare w).sessions = w.sessions := rfl
  unfold World.sessionGet
  rw [hredis, hsessions]
  cases w.sessions (.process inst) callId with
  | some session => rfl
  | none =>
    dsimp only
    cases (if env.redis then w.sessions .redis callId else none) with
    | some session => rfl
    | none => rfl

theorem sessionEndAt_bare (w : World) (place : Place) (callId : CallId) :
    (bare w).sessionEndAt place callId = bare (w.sessionEndAt place callId) := by
  have hsessions : (bare w).sessions = w.sessions := rfl
  unfold World.sessionEndAt
  rw [hsessions]
  cases w.sessions place callId with
  | some session => rfl
  | none => rfl

theorem sessionRemove_bare (env : Env) (w : World) (inst : Nat) (callId : CallId) :
    (bare w).sessionRemove (bareEnv env) inst callId = bare (w.sessionRemove env inst callId) := by
  have hredis : (bareEnv env).redis = env.redis := rfl
  unfold World.sessionRemove
  rw [hredis]
  cases env.redis with
  | false => rfl
  | true => rfl

theorem sessionEnd_bare (env : Env) (w : World) (inst : Nat) (callId : CallId) :
    (bare w).sessionEnd (bareEnv env) inst callId = bare (w.sessionEnd env inst callId) := by
  have hredis : (bareEnv env).redis = env.redis := rfl
  unfold World.sessionEnd
  rw [hredis]
  cases env.redis with
  | false => exact sessionEndAt_bare ..
  | true => simp only [if_true, sessionEndAt_bare]

theorem sessionClean_bare (env : Env) (w : World) (inst : Nat) (callId : CallId) :
    (bare w).sessionClean (bareEnv env) inst callId = bare (w.sessionClean env inst callId) := by
  have hget := sessionGet_bare env w inst callId
  unfold World.sessionClean
  rw [hget]
  generalize w.sessionGet env inst callId = found
  obtain ⟨v, session⟩ := found
  cases session with
  | none => rfl
  | some session =>
    dsimp only
    rw [sessionEnd_bare, sessionRemove_bare]

theorem resume_bare (env : Env) (w : World) (h : Nat) (x : Handler) (answer : ApiAnswer) :
    resume (bareEnv env) (bare w) h (bareHandler x) answer = bare (resume env w h x answer) := by
  have hphase : (bareHandler x).phase = x.phase := rfl
  unfold resume
  rw [hphase]
  cases x.phase with
  | recording =>
    cases answer with
    | recorded duplicate =>
      cases duplicate with
      | true => exact (bare_reply ..).symm
      | false => exact newEvent_bare env w h x
    | _ => exact (bare_reply ..).symm
  | resolving number =>
    cases answer with
    | resolved tenantId agentId =>
      dsimp only
      have hawait := bare_await w h x (.creating (newCallRequest env w x tenantId agentId))
        (.create (newCallRequest env w x tenantId agentId)) rfl
      exact congrArg (fun v : World =>
        { v with issued := w.issued + 1, sent := (h, x.payload.providerCallId, env.eventType x.payload) :: w.sent })
        hawait.symm
    | _ => exact (bare_reply ..).symm
  | creating call =>
    cases answer with
    | created =>
      dsimp only
      rw [bare_reply]
      have hcreate := sessionCreate_bare env w x.inst ⟨call.callId, call.tenantId, call.agentId, w.now, .active⟩
      exact congrArg (fun v : World =>
        (v.storePut (env.place x.inst) x.payload.providerCallId (some call.callId)).reply h (bareHandler x)
          (.ok .sessionStarted call.callId)) hcreate
    | _ => exact (bare_reply ..).symm
  | finalizing callId finalization =>
    cases answer with
    | finalized =>
      dsimp only
      rw [bare_reply]
      have hclean := sessionClean_bare env w x.inst callId
      exact congrArg (fun v : World =>
        (v.storePut (env.place x.inst) x.payload.providerCallId none).reply h (bareHandler x)
          (.ok .sessionCleaned callId)) hclean
    | _ => exact (bare_reply ..).symm
  | returned reply => rfl
  | lost => rfl

theorem deliver_bare (env : Env) (w : World) (h inst : Nat) (payload : ExotelCallback) :
    step (bareEnv env) (bare w) (.deliver h inst (barePayload payload)) = bare (step env w (.deliver h inst payload)) := by
  have hhandler : (bare w).handlers h = (w.handlers h).map bareHandler := rfl
  unfold step
  dsimp only
  rw [hhandler]
  cases w.handlers h with
  | some x => rfl
  | none =>
    rw [recordBody_bare]
    exact (bare_setHandler w h ⟨inst, payload, .recording, some (.record (env.recordBody payload)), none⟩).symm

theorem serve_bare (env : Env) (w : World) (h : Nat) (session : Tenant.Setting) :
    step (bareEnv env) (bare w) (.serve h session) = bare (step env w (.serve h session)) := by
  have hhandler : (bare w).handlers h = (w.handlers h).map bareHandler := rfl
  unfold step
  dsimp only
  rw [hhandler]
  cases w.handlers h with
  | none => rfl
  | some x =>
    have hrequest : (bareHandler x).request = x.request.map bareRequest := rfl
    dsimp only [Option.map_some]
    rw [hrequest]
    cases x.request with
    | none => rfl
    | some request =>
      dsimp only [Option.map_some]
      rw [serveRequest_bare]
      exact (bare_setHandler (serveRequest env session w request).1 h
        { x with request := none, answer := some (serveRequest env session w request).2 }).symm

theorem restart_bare (inst : Nat) (x : Handler) : (bareHandler x).restart inst = bareHandler (x.restart inst) := by
  obtain ⟨i, payload, phase, request, answer⟩ := x
  cases phase with
  | returned reply => rfl
  | _ =>
    by_cases hi : i = inst
    · subst hi
      simp only [Handler.restart, bareHandler, if_true]
    · simp only [Handler.restart, bareHandler, hi, if_false]

theorem step_bare (env : Env) (w : World) (a : Action) :
    step (bareEnv env) (bare w) (bareAction a) = bare (step env w a) := by
  cases a with
  | tick d => rfl
  | deliver h inst payload => exact deliver_bare env w h inst payload
  | serve h session => exact serve_bare env w h session
  | receive h =>
    have hhandler : (bare w).handlers h = (w.handlers h).map bareHandler := rfl
    unfold step bareAction
    dsimp only
    rw [hhandler]
    cases w.handlers h with
    | none => rfl
    | some x =>
      have hanswer : (bareHandler x).answer = x.answer := rfl
      dsimp only [Option.map_some]
      rw [hanswer]
      cases x.answer with
      | none => rfl
      | some answer => exact resume_bare env w h { x with answer := none } answer
  | fail h =>
    have hhandler : (bare w).handlers h = (w.handlers h).map bareHandler := rfl
    unfold step bareAction
    dsimp only
    rw [hhandler]
    cases w.handlers h with
    | none => rfl
    | some x => exact resume_bare env w h x .internalApiError
  | restart inst =>
    have hhandlers : (fun h => ((w.handlers h).map bareHandler).map (Handler.restart inst)) =
        fun h => ((w.handlers h).map (Handler.restart inst)).map bareHandler := by
      funext h
      rw [Option.map_map, Option.map_map]
      exact congrArg (Option.map · (w.handlers h)) (funext (restart_bare inst))
    exact congrArg (fun handlers => { bare (step env w (.restart inst)) with handlers := handlers }) hhandlers

theorem run_bare (env : Env) (w : World) (as : List Action) :
    run (step (bareEnv env)) (bare w) (as.map bareAction) = bare (run (step env) w as) := by
  induction as generalizing w with
  | nil => rfl
  | cons a as ih => rw [List.map_cons, run_cons, run_cons, step_bare, ih]

/-! ## The way of delivery -/

theorem givenReply_bare (w : World) (h : Nat) : givenReply (bare w) h = givenReply w h := by
  have hhandler : (bare w).handlers h = (w.handlers h).map bareHandler := rfl
  unfold givenReply
  rw [hhandler]
  cases w.handlers h with
  | none => rfl
  | some x =>
    obtain ⟨inst, payload, phase, request, answer⟩ := x
    cases phase with
    | _ => rfl

/-- What a request is recorded under, or the answer it gets instead. -/
def dedupKey (env : Env) (webhookToken : String) (request : Request) : Answer (String × String) :=
  (receive webhookToken request).bind fun payload => .ok (eventKey env payload)

/-- The same reply, and the same calls, sessions and mappings; the events that are recorded
differ at most in their payloads. -/
structure SameEffects (x y : World × Option Reply) : Prop where
  reply : x.2 = y.2
  calls : x.1.calls = y.1.calls
  sessions : x.1.sessions = y.1.sessions
  store : x.1.store = y.1.store
  sent : x.1.sent = y.1.sent
  events : x.1.jobs.update forgetPayload = y.1.jobs.update forgetPayload

theorem sameEffects_of_bare {w' : World} (e : bare w = bare w') (h : Nat) :
    SameEffects (w, givenReply w h) (w', givenReply w' h) where
  reply := by
    show givenReply w h = givenReply w' h
    rw [← givenReply_bare w h, e, givenReply_bare]
  calls := (congrArg World.calls e :)
  sessions := (congrArg World.sessions e :)
  store := (congrArg World.store e :)
  sent := (congrArg World.sent e :)
  events := (congrArg World.jobs e :)

/-- Two payloads that are the same up to empty texts. -/
theorem run_deliver_bare {payload payload' : ExotelCallback} (e : barePayload payload = barePayload payload') (env : Env)
    (w : World) (h inst : Nat) (later : List Action) :
    bare (run (step env) w (.deliver h inst payload :: later)) =
      bare (run (step env) w (.deliver h inst payload' :: later)) := by
  have hactions : (Action.deliver h inst payload :: later).map bareAction =
      (Action.deliver h inst payload' :: later).map bareAction := by
    rw [List.map_cons, List.map_cons, bareAction, bareAction, e]
  rw [← run_bare, ← run_bare, hactions]

/-- The same fields, where an empty one is as good as none, delivered in any two ways to any
state of the gateway, whatever happens there afterwards. -/
theorem delivery_style (env : Env) (webhookToken : String) {fields fields' : String → Option String}
    {request request' : Request}
    (hfields : ∀ k, (fields k).getD "" = (fields' k).getD "") (hrequest : Delivers webhookToken fields request)
    (hrequest' : Delivers webhookToken fields' request') (w : World) (h inst : Nat) (later : List Action) :
    dedupKey env webhookToken request = dedupKey env webhookToken request' ∧
      SameEffects (callback env webhookToken w h inst request later) (callback env webhookToken w h inst request' later) := by
  have htexts : (fun k => (fields k).getD "") = fun k => (fields' k).getD "" := funext hfields
  have hreceived := receive_of_delivers hrequest
  have hreceived' := receive_of_delivers hrequest'
  rw [htexts] at hreceived
  unfold dedupKey callback
  obtain ⟨payload, e, ebare⟩ | ⟨e, enone⟩ := hreceived
  · obtain ⟨payload', e', ebare'⟩ | ⟨-, enone'⟩ := hreceived'
    · have hsame : barePayload payload = barePayload payload' := Option.some.inj (ebare.trans ebare'.symm)
      have hkey : eventKey env payload = eventKey env payload' := (congrArg (eventKey env) hsame :)
      rw [e, e']
      exact ⟨congrArg Answer.ok hkey, sameEffects_of_bare (run_deliver_bare hsame env w h inst later) h⟩
    · exact absurd (ebare.trans enone') (Option.some_ne_none _)
  · obtain ⟨payload', e', ebare'⟩ | ⟨e', -⟩ := hreceived'
    · exact absurd (ebare'.trans enone) (Option.some_ne_none _)
    · rw [e, e']
      exact ⟨rfl, ⟨rfl, rfl, rfl, rfl, rfl, rfl⟩⟩

/-- With `To` empty. -/
def startFields (k : String) : Option String :=
  if k = "CallSid" then some "CA1" else if k = "EventType" then some "start" else if k = "To" then some ""
  else if k = "Called" then some "+919" else none

/-- A start event in the query string. -/
def startQuery : Request where
  post := false
  query k := if k = "token" then some "secret" else startFields k
  xExotelWebhookToken := none
  content := .other

/-- The same in JSON. -/
def startJson : Request where
  post := true
  query _ := none
  xExotelWebhookToken := some "secret"
  content := .json (some (some fun k => (startFields k).map .text))

theorem delivery_style_start :
    dedupKey (oneRoute true) "secret" startQuery = dedupKey (oneRoute true) "secret" startJson ∧
      SameEffects (callback (oneRoute true) "secret" (.init 0) 0 0 startQuery [.serve 0 none, .receive 0])
        (callback (oneRoute true) "secret" (.init 0) 0 0 startJson [.serve 0 none, .receive 0]) := by
  have hquery : Delivers "secret" startFields startQuery :=
    ⟨by decide, by decide, fun _ k hk => if_neg hk, fun hpost => absurd hpost Bool.false_ne_true⟩
  have hjson : Delivers "secret" startFields startJson :=
    ⟨by decide, by decide, fun hpost => absurd hpost.symm Bool.false_ne_true,
      fun _ => ⟨_, .inr rfl, by decide, fun k _ => .inl ⟨rfl, rfl⟩⟩⟩
  exact delivery_style (oneRoute true) "secret" (fun _ => rfl) hquery hjson (.init 0) 0 0 _

end CallingAgent.Proof.Gateway
