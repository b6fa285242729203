import CallingAgent.Impl.Exotel
import CallingAgent.Proof.Jobs.Endpoints
import CallingAgent.Proof.Jobs.Rows

/-!
# What a step of the gateways does

`GStep` lists what a step of the system can do, with what it finds and what it
leaves, and `Served` what the API does with a request; the invariants of the
gateways are case analyses of them (`gStep`, `served`).
-/

namespace CallingAgent.Proof.Gateway

open CallingAgent.Framework CallingAgent.Impl CallingAgent.Impl.Calls CallingAgent.Impl.Exotel
open CallingAgent.Impl.Jobs (CallJobs EventCreateRequest insertJob newJob createEvent)
open CallingAgent.Proof.Jobs (createEvent_eq getJob_sentinel insertJob_eq_some)

/-! ## The API -/

/-- What serving a request does, and answers. -/
inductive Served (env : Env) (w : World) : ApiRequest → World → ApiAnswer → Prop
  | rejected : Served env w (.record none) w .internalApiError
  | new {body : EventCreateRequest} {jobs : CallJobs}
      (h : insertJob (w.calls.rows.map (·.callId)) w.jobs (newJob body (env.uuid4 w.issued).1 w.now) = some jobs) :
      Served env w (.record (some body)) { w with jobs := jobs, issued := w.issued + 1 } (.recorded false)
  | conflict {body : EventCreateRequest} {answer : ApiAnswer}
      (h : insertJob (w.calls.rows.map (·.callId)) w.jobs (newJob body (env.uuid4 w.issued).1 w.now) = none)
      (ha : answer = .recorded true ∨ answer = .internalApiError) :
      Served env w (.record (some body)) { w with issued := w.issued + 1 } answer
  | resolved {number tenantId agentId : String} :
      Served env w (.resolve number) w (.resolved tenantId agentId)
  | unresolved {number : String} : Served env w (.resolve number) w .internalApiError
  | created {call : CallCreateRequest} {calls : CallTable} (h : w.calls.insert (newCall call) = some calls) :
      Served env w (.create call) { w with calls := calls } .created
  | taken {call : CallCreateRequest} (h : w.calls.lookup call.callId ≠ none) :
      Served env w (.create call) w .internalApiError
  | finalized {callId : CallId} {finalization : FinalizeRequest} {r : Call}
      (h : w.calls.lookup callId = some r) (hr : r.endedAt = none) :
      Served env w (.finalize callId finalization)
        { w with calls := w.calls.update (finalizeStmt callId finalization) } .finalized
  | again {callId : CallId} {finalization : FinalizeRequest} {r : Call}
      (h : w.calls.lookup callId = some r) (hr : r.endedAt.isSome = true) :
      Served env w (.finalize callId finalization) w .finalized
  | missing {callId : CallId} {finalization : FinalizeRequest} (h : w.calls.lookup callId = none) :
      Served env w (.finalize callId finalization) w .internalApiError

/-- The API changes its tables only. -/
theorem Served.frame {env : Env} {w w' : World} {request : ApiRequest} {answer : ApiAnswer}
    (h : Served env w request w' answer) :
    w'.handlers = w.handlers ∧ w'.sent = w.sent ∧ w'.store = w.store ∧ w'.sessions = w.sessions := by
  cases h <;> exact ⟨rfl, rfl, rfl, rfl⟩

/-- `create_event` of a new event, read again after its commit. -/
theorem createEvent_new {session : Tenant.Setting} {calls : List CallId} {jobs jobs' : CallJobs}
    {body : EventCreateRequest} {jobId : JobId} {now : Time}
    (h : insertJob calls jobs (newJob body jobId now) = some jobs') :
    createEvent session none calls jobs jobs' body jobId now =
      (jobs', .ok { duplicate := false, event := newJob body jobId now }) := by
  have hl : jobs'.lookup jobId = some (newJob body jobId now) := by
    rw [Table.lookup_insert (insertJob_eq_some h).1]; exact if_pos rfl
  rw [createEvent_eq, h]
  dsimp only [Option.getD_none]
  rw [getJob_sentinel rfl, hl]

/-- `create_event` of an event that it cannot insert never answers that it is
new. -/
theorem createEvent_conflict (session : Tenant.Setting) (later : CallJobs) {calls : List CallId}
    {jobs : CallJobs} {body : EventCreateRequest} {jobId : JobId} {now : Time}
    (h : insertJob calls jobs (newJob body jobId now) = none) :
    (createEvent session none calls jobs later body jobId now).1 = jobs ∧
      (recorded (createEvent session none calls jobs later body jobId now).2 = .recorded true ∨
        recorded (createEvent session none calls jobs later body jobId now).2 = .internalApiError) := by
  rw [createEvent_eq, h]
  refine ⟨rfl, ?_⟩
  dsimp only
  split
  · exact .inr rfl
  · split
    · exact .inl rfl
    · exact .inr rfl

theorem served (env : Env) (session : Tenant.Setting) (w : World) (request : ApiRequest) :
    Served env w request (serveRequest env session w request).1 (serveRequest env session w request).2 := by
  cases request with
  | record body =>
    cases body with
    | none => exact .rejected
    | some body =>
      unfold serveRequest
      dsimp only
      cases hi : insertJob (w.calls.rows.map (·.callId)) w.jobs (newJob body (env.uuid4 w.issued).1 w.now) with
      | some jobs =>
        rw [Option.getD_some, createEvent_new hi]
        exact .new hi
      | none =>
        obtain ⟨hj, ha⟩ := createEvent_conflict session w.jobs hi
        rw [Option.getD_none, hj]
        exact .conflict hi ha
  | resolve number =>
    unfold serveRequest
    dsimp only
    split
    · exact .resolved
    · exact .unresolved
  | create call =>
    unfold serveRequest createCall
    dsimp only
    cases hl : w.calls.lookup call.callId with
    | some r => exact .taken (by rw [hl]; exact nofun)
    | none =>
      obtain ⟨calls, hi⟩ := Table.exists_insert (r := newCall call) hl
      rw [hi]
      exact .created hi
  | finalize callId finalization =>
    unfold serveRequest finalizeCall
    dsimp only
    cases hl : w.calls.lookup callId with
    | none => exact .missing hl
    | some r =>
      dsimp only
      split
      · rename_i hr
        exact .again hl hr
      · rename_i hr
        exact .finalized hl (by simpa using hr)

/-! ## The system -/

/-- A reply that comes without an effect of the callback. -/
def isQuiet : Reply → Bool
  | .ok .sessionStarted _ => false
  | .ok .sessionCleaned _ => false
  | _ => true

/-- The handler still waits for an answer. -/
def isWaiting : Phase → Bool
  | .returned _ => false
  | .lost => false
  | _ => true

/-- The event of a callback, as it is recorded. -/
def eventKey (env : Env) (payload : ExotelCallback) : String × String :=
  (payload.providerCallId, env.eventType payload)

/-- The call that a handler creates. -/
def newCallRequest (env : Env) (w : World) (x : Handler) (tenantId agentId : String) : CallCreateRequest where
  callId := (env.uuid4 w.issued).1
  tenantId := tenantId
  agentId := agentId
  startedAt := w.now
  providerCallId := some x.payload.providerCallId

/-- How a handler ends a call. -/
def endRequest (env : Env) (w : World) (x : Handler) : FinalizeRequest where
  endedAt := w.now
  endReason := env.endReason x.payload

/-- The session of a call that has been created. -/
def newSession (w : World) (call : CallCreateRequest) : Session :=
  ⟨call.callId, call.tenantId, call.agentId, w.now, .active⟩

/-- The store after one entry has been written. -/
theorem storePut_store (w : World) (place place' : Place) (p p' : String) (entry : Option CallId) :
    (w.storePut place p entry).store place' p' =
      if place' = place ∧ p' = p then entry else w.store place' p' := by
  unfold World.storePut
  dsimp only
  by_cases hpl : place' = place
  · subst hpl
    rw [Function.update_self]
    by_cases hp : p' = p
    · subst hp; rw [Function.update_self, if_pos ⟨rfl, rfl⟩]
    · rw [Function.update_of_ne hp, if_neg fun h => hp h.2]
  · rw [Function.update_of_ne hpl, if_neg fun h => hpl h.1]

/-- `w'` differs from `w` in its sessions only. -/
def OnlySessions (w w' : World) : Prop :=
  w' = { w with sessions := w'.sessions, sessionsUntil := w'.sessionsUntil }

theorem OnlySessions.trans {w w' w'' : World} (h : OnlySessions w w') (h' : OnlySessions w' w'') :
    OnlySessions w w'' := by
  unfold OnlySessions at *
  rw [h'] at *
  rw [h]

theorem sessionCreate_only (w : World) (env : Env) (inst : Nat) (session : Session) :
    OnlySessions w (w.sessionCreate env inst session) := by
  unfold World.sessionCreate
  dsimp only
  split <;> rfl

theorem sessionGet_only (w : World) (env : Env) (inst : Nat) (callId : CallId) :
    OnlySessions w (w.sessionGet env inst callId).1 := by
  unfold World.sessionGet
  split
  · rfl
  · split <;> rfl

theorem sessionEndAt_only (w : World) (place : Place) (callId : CallId) :
    OnlySessions w (w.sessionEndAt place callId) := by
  unfold World.sessionEndAt
  split <;> rfl

theorem sessionEnd_only (w : World) (env : Env) (inst : Nat) (callId : CallId) :
    OnlySessions w (w.sessionEnd env inst callId) := by
  unfold World.sessionEnd
  dsimp only
  split
  · exact (sessionEndAt_only _ _ _).trans (sessionEndAt_only _ _ _)
  · exact sessionEndAt_only _ _ _

theorem sessionRemove_only (w : World) (env : Env) (inst : Nat) (callId : CallId) :
    OnlySessions w (w.sessionRemove env inst callId) := by
  unfold World.sessionRemove
  dsimp only
  split <;> rfl

theorem sessionClean_only (w : World) (env : Env) (inst : Nat) (callId : CallId) :
    OnlySessions w (w.sessionClean env inst callId) := by
  unfold World.sessionClean
  dsimp only
  split
  · exact (sessionGet_only _ _ _ _).trans ((sessionEnd_only _ _ _ _).trans (sessionRemove_only _ _ _ _))
  · exact sessionGet_only _ _ _ _

/-- A place where the session manager of a process keeps sessions. -/
def Keeps (env : Env) (inst : Nat) (place : Place) : Prop :=
  place = .process inst ∨ env.redis = true ∧ place = .redis

instance (env : Env) (inst : Nat) (place : Place) : Decidable (Keeps env inst place) :=
  inferInstanceAs (Decidable (_ ∨ _))

theorem sessionPut_sessions (w : World) (place place' : Place) (c c' : CallId) (session : Option Session) :
    (w.sessionPut place c session).sessions place' c' =
      if place' = place ∧ c' = c then session else w.sessions place' c' := by
  unfold World.sessionPut
  dsimp only
  by_cases hpl : place' = place
  · subst hpl
    rw [Function.update_self]
    by_cases hc : c' = c
    · subst hc; rw [Function.update_self, if_pos ⟨rfl, rfl⟩]
    · rw [Function.update_of_ne hc, if_neg fun h => hc h.2]
  · rw [Function.update_of_ne hpl, if_neg fun h => hpl h.1]

/-- Writing to the process and to Redis, if there is one. -/
theorem sessionPut_keeps (w : World) (env : Env) (inst : Nat) (place : Place) (c c' : CallId)
    (session : Option Session) :
    (if env.redis then (w.sessionPut (.process inst) c session).sessionPut .redis c session
      else w.sessionPut (.process inst) c session).sessions place c' =
      if Keeps env inst place ∧ c' = c then session else w.sessions place c' := by
  by_cases hr : env.redis = true
  · rw [if_pos hr, sessionPut_sessions, sessionPut_sessions]
    simp only [Keeps, hr, true_and]
    split_ifs <;> tauto
  · rw [if_neg hr, sessionPut_sessions]
    simp only [Keeps, hr, false_and, or_false, Bool.false_eq_true]

theorem sessionCreate_sessions (w : World) (env : Env) (inst : Nat) (session : Session) (place : Place)
    (c : CallId) :
    (w.sessionCreate env inst session).sessions place c =
      if Keeps env inst place ∧ c = session.callId then some session else w.sessions place c :=
  sessionPut_keeps w env inst place session.callId c (some session)

theorem sessionRemove_sessions (w : World) (env : Env) (inst : Nat) (place : Place) (c c' : CallId) :
    (w.sessionRemove env inst c).sessions place c' =
      if Keeps env inst place ∧ c' = c then none else w.sessions place c' :=
  sessionPut_keeps w env inst place c c' none

/-- A process finds a session exactly if it is at a place where it keeps them. -/
theorem sessionGet_eq_none_iff (w : World) (env : Env) (inst : Nat) (c : CallId) :
    (w.sessionGet env inst c).2 = none ↔ ∀ place, Keeps env inst place → w.sessions place c = none := by
  unfold World.sessionGet Keeps
  cases hp : w.sessions (.process inst) c <;> cases hr : env.redis <;>
    cases hs : w.sessions .redis c <;> simp_all

/-- Ending the sessions of `c` changes nothing else. -/
theorem sessionEndAt_sessions (w : World) {place place' : Place} {c c' : CallId} (h : ¬ (place' = place ∧ c' = c)) :
    (w.sessionEndAt place c).sessions place' c' = w.sessions place' c' := by
  unfold World.sessionEndAt
  split
  · rw [sessionPut_sessions, if_neg h]
  · rfl

theorem sessionEnd_sessions (w : World) {env : Env} {inst : Nat} {place : Place} {c c' : CallId}
    (h : ¬ (Keeps env inst place ∧ c' = c)) :
    (w.sessionEnd env inst c).sessions place c' = w.sessions place c' := by
  have hp : ¬ (place = .process inst ∧ c' = c) := fun e => h ⟨.inl e.1, e.2⟩
  unfold World.sessionEnd
  dsimp only
  split
  · rename_i hr
    rw [sessionEndAt_sessions _ fun e => h ⟨.inr ⟨hr, e.1⟩, e.2⟩, sessionEndAt_sessions _ hp]
  · exact sessionEndAt_sessions _ hp

theorem sessionGet_sessions (w : World) {env : Env} {inst : Nat} {place : Place} {c c' : CallId}
    (h : ¬ (Keeps env inst place ∧ c' = c)) :
    (w.sessionGet env inst c).1.sessions place c' = w.sessions place c' := by
  unfold World.sessionGet
  split
  · rfl
  · split
    · rw [sessionPut_sessions, if_neg fun e => h ⟨.inl e.1, e.2⟩]
    · rfl

theorem sessionGet_of_none {w : World} {env : Env} {inst : Nat} {c : CallId}
    (h : (w.sessionGet env inst c).2 = none) : (w.sessionGet env inst c).1 = w := by
  unfold World.sessionGet at h ⊢
  split at h
  · cases h
  · split at h
    · cases h
    · rfl

/-- At the end of a call its sessions are gone. -/
theorem sessionClean_sessions (w : World) (env : Env) (inst : Nat) (place : Place) (c c' : CallId) :
    (w.sessionClean env inst c).sessions place c' =
      if Keeps env inst place ∧ c' = c then none else w.sessions place c' := by
  have hget : ¬ (Keeps env inst place ∧ c' = c) →
      (w.sessionGet env inst c).1.sessions place c' = w.sessions place c' := sessionGet_sessions w
  unfold World.sessionClean
  dsimp only
  split
  · rw [sessionRemove_sessions]
    split
    · rfl
    · rename_i h
      rw [sessionEnd_sessions _ h, hget h]
  · rename_i e
    split
    · rename_i h
      obtain ⟨hk, rfl⟩ := h
      rw [sessionGet_of_none e]
      exact (sessionGet_eq_none_iff w env inst c').mp e place hk
    · rename_i h
      exact hget h

/-! ## Times to live -/

theorem storePut_storeUntil (w : World) (place : Place) (p p' : String) (entry : Option CallId) :
    (w.storePut place p entry).storeUntil p' =
      if place = .redis ∧ p' = p then w.now + providerCallTtl else w.storeUntil p' := by
  unfold World.storePut
  dsimp only
  by_cases hpl : place = .redis
  · by_cases hp : p' = p
    · subst hp; rw [if_pos hpl, Function.update_self, if_pos ⟨hpl, rfl⟩]
    · rw [if_pos hpl, Function.update_of_ne hp, if_neg fun h => hp h.2]
  · rw [if_neg hpl, if_neg fun h => hpl h.1]

theorem sessionPut_sessionsUntil (w : World) (place : Place) (c c' : CallId) (session : Option Session) :
    (w.sessionPut place c session).sessionsUntil c' =
      if place = .redis ∧ c' = c then w.now + sessionTtl else w.sessionsUntil c' := by
  unfold World.sessionPut
  dsimp only
  by_cases hpl : place = .redis
  · by_cases hc : c' = c
    · subst hc; rw [if_pos hpl, Function.update_self, if_pos ⟨hpl, rfl⟩]
    · rw [if_pos hpl, Function.update_of_ne hc, if_neg fun h => hc h.2]
  · rw [if_neg hpl, if_neg fun h => hpl h.1]

theorem sessionCreate_sessionsUntil (w : World) (env : Env) (inst : Nat) (session : Session) (c : CallId) :
    (w.sessionCreate env inst session).sessionsUntil c =
      if env.redis = true ∧ c = session.callId then w.now + sessionTtl else w.sessionsUntil c := by
  unfold World.sessionCreate
  dsimp only
  by_cases hr : env.redis = true
  · rw [if_pos hr, sessionPut_sessionsUntil]
    simp only [hr, true_and]
    split_ifs <;> rfl
  · rw [if_neg hr, if_neg fun h => hr h.1]
    rfl

theorem sessionEndAt_sessionsUntil (w : World) (place : Place) {c c' : CallId} (h : c' ≠ c) :
    (w.sessionEndAt place c).sessionsUntil c' = w.sessionsUntil c' := by
  unfold World.sessionEndAt
  split
  · rw [sessionPut_sessionsUntil, if_neg fun e => h e.2]
  · rfl

/-- The end of a call leaves the times of other sessions alone. -/
theorem sessionClean_sessionsUntil (w : World) (env : Env) (inst : Nat) {c c' : CallId} (h : c' ≠ c) :
    (w.sessionClean env inst c).sessionsUntil c' = w.sessionsUntil c' := by
  have hput : ∀ (w : World) place session, (w.sessionPut place c session).sessionsUntil c' = w.sessionsUntil c' :=
    fun w place session => by rw [sessionPut_sessionsUntil, if_neg fun e => h e.2]
  have hget : (w.sessionGet env inst c).1.sessionsUntil c' = w.sessionsUntil c' := by
    unfold World.sessionGet
    split
    · rfl
    · split
      · exact hput _ _ _
      · rfl
  have hend : ∀ w : World, (w.sessionEnd env inst c).sessionsUntil c' = w.sessionsUntil c' := fun w => by
    unfold World.sessionEnd
    dsimp only
    split
    · rw [sessionEndAt_sessionsUntil _ _ h, sessionEndAt_sessionsUntil _ _ h]
    · exact sessionEndAt_sessionsUntil _ _ h
  have hremove : ∀ w : World, (w.sessionRemove env inst c).sessionsUntil c' = w.sessionsUntil c' := fun w => by
    unfold World.sessionRemove
    dsimp only
    split
    · rw [hput, hput]
    · exact hput _ _ _
  unfold World.sessionClean
  dsimp only
  split
  · rw [hremove, hend, hget]
  · exact hget

/-- What is there after a tick was there before. -/
theorem tick_store {w : World} {d : Nat} {place : Place} {p : String} {c : CallId}
    (h : (w.tick d).store place p = some c) : w.store place p = some c := by
  rcases ite_eq_iff.mp h with ⟨-, h⟩ | ⟨-, h⟩
  · cases h
  · exact h

theorem tick_sessions {w : World} {d : Nat} {place : Place} {c : CallId} {session : Session}
    (h : (w.tick d).sessions place c = some session) : w.sessions place c = some session := by
  rcases ite_eq_iff.mp h with ⟨-, h⟩ | ⟨-, h⟩
  · cases h
  · exact h

/-- The clock, the call store and the sessions of `w'` are those of `w`. -/
structure SameKeys (w w' : World) : Prop where
  now : w'.now = w.now
  store : w'.store = w.store
  storeUntil : w'.storeUntil = w.storeUntil
  sessions : w'.sessions = w.sessions
  sessionsUntil : w'.sessionsUntil = w.sessionsUntil

inductive GStep (env : Env) (w : World) : Action → World → Prop
  | skip {a : Action} (ha : ∀ h session x, a = .serve h session → w.handlers h = some x → x.request = none) :
      GStep env w a w
  | tick {d : Nat} : GStep env w (.tick d) (w.tick d)
  | deliver {h inst : Nat} {payload : ExotelCallback} (hx : w.handlers h = none) :
      GStep env w (.deliver h inst payload)
        (w.setHandler h ⟨inst, payload, .recording, some (.record (env.recordBody payload)), none⟩)
  | serve {h : Nat} {session : Tenant.Setting} {x : Handler} {request : ApiRequest} {w' : World}
      {answer : ApiAnswer} (hx : w.handlers h = some x) (hr : x.request = some request)
      (hs : Served env w request w' answer) :
      GStep env w (.serve h session) (w'.setHandler h { x with request := none, answer := some answer })
  /-- The handler returns, without an effect. -/
  | reply {a : Action} {h : Nat} {x : Handler} {answer : Option ApiAnswer} {reply : Reply}
      (ha : a = .receive h ∧ answer = none ∧ x.answer ≠ none ∧
          (∀ c f, x.phase = .finalizing c f → x.answer ≠ some .finalized) ∨
        a = .fail h ∧ answer = x.answer)
      (hx : w.handlers h = some x)
      (hp : isWaiting x.phase = true) (hr : isQuiet reply = true) :
      GStep env w a (w.setHandler h { x with phase := .returned reply, answer := answer })
  /-- A new start event: the handler resolves the number. -/
  | resolve {h : Nat} {x : Handler} {number : String} (hx : w.handlers h = some x)
      (hp : x.phase = .recording) (ha : x.answer = some (.recorded false))
      (hs : env.eventType x.payload ∈ startEvents) :
      GStep env w (.receive h) (w.await h x (.resolving number) (.resolve number))
  /-- The number is resolved: the handler creates the call. -/
  | create {h : Nat} {x : Handler} {number tenantId agentId : String} (hx : w.handlers h = some x)
      (hp : x.phase = .resolving number) (ha : x.answer = some (.resolved tenantId agentId)) :
      GStep env w (.receive h)
        { w.await h x (.creating (newCallRequest env w x tenantId agentId))
            (.create (newCallRequest env w x tenantId agentId)) with
          issued := w.issued + 1
          sent := (h, eventKey env x.payload) :: w.sent }
  /-- A new end event of a call in the store: the handler finalizes the call. -/
  | finalize {h : Nat} {x : Handler} {callId : CallId} (hx : w.handlers h = some x)
      (hp : x.phase = .recording) (ha : x.answer = some (.recorded false))
      (he : env.eventType x.payload ∈ endEvents)
      (hg : w.storeGet env x.inst x.payload.providerCallId = some callId) :
      GStep env w (.receive h)
        { w.await h x (.finalizing callId (endRequest env w x)) (.finalize callId (endRequest env w x)) with
          sent := (h, eventKey env x.payload) :: w.sent }
  /-- The call is created: the handler opens its session and maps it. -/
  | started {h : Nat} {x : Handler} {call : CallCreateRequest} (hx : w.handlers h = some x)
      (hp : x.phase = .creating call) (ha : x.answer = some .created) :
      GStep env w (.receive h)
        (World.setHandler
          { w with
            sessions := (w.sessionCreate env x.inst (newSession w call)).sessions
            sessionsUntil := (w.sessionCreate env x.inst (newSession w call)).sessionsUntil
            store := (w.storePut (env.place x.inst) x.payload.providerCallId (some call.callId)).store
            storeUntil := (w.storePut (env.place x.inst) x.payload.providerCallId (some call.callId)).storeUntil }
          h { x with phase := .returned (.ok .sessionStarted call.callId), answer := none })
  /-- The call is finalized: the handler removes its session and the mapping. -/
  | cleaned {h : Nat} {x : Handler} {callId : CallId} {finalization : FinalizeRequest}
      (hx : w.handlers h = some x) (hp : x.phase = .finalizing callId finalization)
      (ha : x.answer = some .finalized) :
      GStep env w (.receive h)
        (World.setHandler
          { w with
            sessions := (w.sessionClean env x.inst callId).sessions
            sessionsUntil := (w.sessionClean env x.inst callId).sessionsUntil
            store := (w.storePut (env.place x.inst) x.payload.providerCallId none).store
            storeUntil := (w.storePut (env.place x.inst) x.payload.providerCallId none).storeUntil }
          h { x with phase := .returned (.ok .sessionCleaned callId), answer := none })
  | restart {inst : Nat} : GStep env w (.restart inst) (step env w (.restart inst))

/-- The steps of a handler's code. -/
theorem gStep_resume {env : Env} {w : World} {h : Nat} {x : Handler} {answer : ApiAnswer}
    (hx : w.handlers h = some x) (ha : x.answer = some answer) :
    GStep env w (.receive h) (resume env w h { x with answer := none } answer) := by
  have hreply : ∀ {reply}, isWaiting x.phase = true →
      (∀ c f, x.phase = .finalizing c f → x.answer ≠ some .finalized) → isQuiet reply = true →
      GStep env w (.receive h) (w.reply h { x with answer := none } reply) := fun hp hf hr =>
    .reply (x := x) (.inl ⟨rfl, rfl, by rw [ha]; exact nofun, hf⟩) hx hp hr
  unfold resume
  dsimp only
  split
  · rename_i hp
    have hp' : isWaiting x.phase = true := by rw [hp]; rfl
    have hf : ∀ c f, x.phase = .finalizing c f → x.answer ≠ some .finalized := by rw [hp]; exact nofun
    split
    · exact hreply hp' hf rfl
    · unfold newEvent
      dsimp only
      split
      · rename_i hs
        split
        · exact hreply hp' hf rfl
        · exact hreply hp' hf rfl
        · exact .resolve (x := x) hx hp ha hs
      · split
        · rename_i he
          split
          · exact hreply hp' hf rfl
          · rename_i hg
            exact .finalize (x := x) hx hp ha he hg
        · exact hreply hp' hf rfl
    · exact hreply hp' hf rfl
  · rename_i hp
    have hp' : isWaiting x.phase = true := by rw [hp]; rfl
    have hf : ∀ c f, x.phase = .finalizing c f → x.answer ≠ some .finalized := by rw [hp]; exact nofun
    split
    · exact .create (x := x) hx hp ha
    · exact hreply hp' hf rfl
  · rename_i hp
    have hp' : isWaiting x.phase = true := by rw [hp]; rfl
    have hf : ∀ c f, x.phase = .finalizing c f → x.answer ≠ some .finalized := by rw [hp]; exact nofun
    split
    · rw [sessionCreate_only]
      exact .started (x := x) hx hp ha
    · exact hreply hp' hf rfl
  · rename_i hp
    have hp' : isWaiting x.phase = true := by rw [hp]; rfl
    split
    · rw [sessionClean_only]
      exact .cleaned (x := x) hx hp ha
    · rename_i hans
      refine hreply hp' (fun _ _ _ e => ?_) rfl
      rw [ha] at e
      exact hans (Option.some.inj e)
  · exact .skip fun _ _ _ e => by cases e
  · exact .skip fun _ _ _ e => by cases e

theorem gStep_fail {env : Env} {w : World} {h : Nat} {x : Handler} (hx : w.handlers h = some x) :
    GStep env w (.fail h) (resume env w h x .internalApiError) := by
  have hreply : ∀ {reply}, isWaiting x.phase = true → isQuiet reply = true →
      GStep env w (.fail h) (w.reply h x reply) := fun hp hr =>
    .reply (.inr ⟨rfl, rfl⟩) hx hp hr
  unfold resume
  split <;> first | exact hreply (by rw [‹x.phase = _›]; rfl) rfl | exact .skip fun _ _ _ e => by cases e

theorem gStep (env : Env) (w : World) (a : Action) : GStep env w a (step env w a) := by
  cases a with
  | tick d => exact .tick
  | deliver h inst payload =>
    cases hx : w.handlers h with
    | none => simp only [step, hx]; exact .deliver hx
    | some x => simp only [step, hx]; exact .skip fun _ _ _ e => by cases e
  | serve h session =>
    cases hx : w.handlers h with
    | none =>
      simp only [step, hx]
      refine .skip fun h' _ x e hx' => ?_
      cases e
      rw [hx] at hx'; cases hx'
    | some x =>
      cases hr : x.request with
      | none =>
        simp only [step, hx, hr]
        refine .skip fun h' _ x' e hx' => ?_
        cases e
        rw [hx] at hx'; cases hx'; exact hr
      | some request =>
        simp only [step, hx, hr]
        exact .serve hx hr (served env session w request)
  | receive h =>
    cases hx : w.handlers h with
    | none => simp only [step, hx]; exact .skip fun _ _ _ e => by cases e
    | some x =>
      cases ha : x.answer with
      | none => simp only [step, hx, ha]; exact .skip fun _ _ _ e => by cases e
      | some answer =>
        simp only [step, hx, ha]
        exact gStep_resume hx ha
  | fail h =>
    cases hx : w.handlers h with
    | none => simp only [step, hx]; exact .skip fun _ _ _ e => by cases e
    | some x => simp only [step, hx]; exact gStep_fail hx
  | restart inst => exact .restart

end CallingAgent.Proof.Gateway
