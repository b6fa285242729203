import CallingAgent.Proof.Calls.Finalize
import CallingAgent.Proof.Gateway.Backed

/-!
# Where the calls come from

In every run, whatever fails or is restarted, a call in the table was opened by a
start event of its own that a handler recorded, for the tenant and the agent to
whom the dialed number is routed; and one that has ended was ended by an end event
of the same provider call (`Attributed`).

`Sources` says this of what is under way: a request to the API asks for what its
handler was called for (`Sources.handlers`), and the entries of the call stores
are of their provider calls. `Owned` then gives every row the handler that wrote
it: a handler sends one request, so no two rows have the same. `Change` is what is
used of a step.
-/

namespace CallingAgent.Proof.Gateway

open CallingAgent.Framework CallingAgent.Impl CallingAgent.Impl.Calls CallingAgent.Impl.Exotel

/-! ## Calls and events -/

/-- The request that has created a row. -/
def requestOf (r : Call) : CallCreateRequest :=
  ⟨r.callId, r.tenantId, r.agentId, r.startedAt, r.providerCallId, r.isSimulation⟩

/-- The tenant and the agent to whom a number is routed. -/
def routeOf (env : Env) (number : String) : Option (String × String) := env.routing.bind fun routes => routes number

/-- The callback is a start event, which asks for this call. -/
structure Opens (env : Env) (payload : ExotelCallback) (call : CallCreateRequest) : Prop where
  event : env.eventType payload ∈ startEvents
  provider : call.providerCallId = some payload.providerCallId
  routed : ∃ number, payload.number = some number ∧ routeOf env number = some (call.tenantId, call.agentId)
  real : call.isSimulation = false

/-- The callback is an end event, and the row has ended with it. The connection
status of a call that was hung up can be that of a failure, when the two were
finalized at once. -/
structure Closes (env : Env) (payload : ExotelCallback) (r : Call) : Prop where
  event : env.eventType payload ∈ endEvents
  provider : r.providerCallId = some payload.providerCallId
  reason : r.endReason = some (env.endReason payload)
  status : r.status = if env.endReason payload = "provider_failure" then .failed else .completed
  failed : env.endReason payload = "provider_failure" → r.connectionStatus = .failedPreConnect
  after : ∃ endedAt, r.endedAt = some endedAt ∧ r.startedAt ≤ endedAt

/-- How a call ends that an end event finalizes. -/
theorem endReasonMap_endReason (env : Env) (payload : ExotelCallback) :
    endReasonMap (env.endReason payload) =
      some (if env.endReason payload = "provider_failure" then (.failed, .failedPreConnect)
        else (.completed, .connected)) := by
  have h : env.endReason payload = "provider_failure" ∨ env.endReason payload = "caller_hangup" := by
    unfold Env.endReason
    split
    · exact .inl rfl
    · exact .inr rfl
  rcases h with e | e <;> rw [e] <;> rfl

/-- What a request to finalize a call has made of its row. -/
structure EndedBy (f : FinalizeRequest) (r r' : Call) : Prop where
  request : requestOf r' = requestOf r
  endedAt : r'.endedAt = some f.endedAt
  endReason : r'.endReason = some f.endReason
  status : r'.status = (Finalize.endStatus f.endReason).1
  connection : (Finalize.endStatus f.endReason).2 ≠ .connected →
    r'.connectionStatus = (Finalize.endStatus f.endReason).2

/-- Alone, a request writes all the columns. -/
theorem endedBy_finalizeStmt (c : CallId) (f : FinalizeRequest) (r : Call) :
    EndedBy f r ((finalizeStmt c f).set r) :=
  ⟨rfl, rfl, rfl, rfl, fun _ => rfl⟩

/-- A request that has loaded an open call writes them but for a connection status
that it has loaded. -/
theorem endedBy_flushStmt {loaded : Call} (ho : Proof.Calls.Open loaded) (f : FinalizeRequest) (r : Call) :
    EndedBy f r ((Finalize.flushStmt loaded f).set r) := by
  rw [Proof.Calls.flush_set ho]
  exact ⟨rfl, rfl, rfl, rfl, Proof.Calls.written_of_ne⟩

/-! ## What a step keeps -/

variable {env : Env} {w w' : World} {h : Nat} {x y : Handler} {a : Action}

/-- What a step does to the calls: nothing, or it serves a request, which creates a
call or ends one. -/
inductive CallsChange (w w' : World) : Prop
  | same (e : w'.calls = w.calls)
  | created {h : Nat} {x y : Handler} {call : CallCreateRequest} (hx : w.handlers h = some x)
      (hr : x.request = some (.create call)) (hy : w'.handlers h = some y) (hn : y.request = none)
      (hi : w.calls.insert (newCall call) = some w'.calls)
  | ended {h : Nat} {x y : Handler} {c : CallId} {f : FinalizeRequest} {u : Update Call.callId}
      (hx : w.handlers h = some x) (hr : x.request = some (.finalize c f)) (hy : w'.handlers h = some y)
      (hn : y.request = none) (hu : ∀ r, u.guard r = true ↔ r.callId = c) (he : ∀ r, EndedBy f r (u.set r))
      (e : w'.calls = w.calls.update u)

/-- A row and a request to finalize a call. -/
theorem row_ended {c : CallId} {f : FinalizeRequest} {u : Update Call.callId}
    (hu : ∀ r, u.guard r = true ↔ r.callId = c) (he : ∀ r, EndedBy f r (u.set r)) (r : Call) :
    r.callId ≠ c ∧ u.row r = r ∨ r.callId = c ∧ EndedBy f r (u.row r) := by
  by_cases hc : r.callId = c
  · exact .inr ⟨hc, by rw [Update.row_of_guard ((hu r).mpr hc)]; exact he r⟩
  · exact .inl ⟨hc, Update.row_of_not_guard (Bool.eq_false_iff.mpr fun h => hc ((hu r).mp h))⟩

theorem requestOf_row {c : CallId} {f : FinalizeRequest} {u : Update Call.callId}
    (hu : ∀ r, u.guard r = true ↔ r.callId = c) (he : ∀ r, EndedBy f r (u.set r)) (r : Call) :
    requestOf (u.row r) = requestOf r := by
  rcases row_ended hu he r with ⟨-, e⟩ | ⟨-, hb⟩
  · rw [e]
  · exact hb.request

/-- A row of a call, for the request that created it. -/
def Found (w : World) (c : CallId) (P : CallCreateRequest → Prop) : Prop :=
  ∃ r, w.calls.lookup c = some r ∧ P (requestOf r)

/-- Nothing of the past is gone in `w'`: a row stays, and one that has ended stays
so. -/
structure Later (w w' : World) : Prop where
  now : w.now ≤ w'.now
  sent : ∀ e ∈ w.sent, e ∈ w'.sent
  calls : ∀ {c r}, w.calls.lookup c = some r →
    ∃ r', w'.calls.lookup c = some r' ∧ requestOf r' = requestOf r ∧ (r.endedAt ≠ none → r'.endedAt ≠ none)

theorem Later.found (h : Later w w') {c : CallId} {P : CallCreateRequest → Prop} (hf : Found w c P) :
    Found w' c P := by
  obtain ⟨r, hr, hP⟩ := hf
  obtain ⟨r', hr', e, -⟩ := h.calls hr
  exact ⟨r', hr', e ▸ hP⟩

theorem calls_step (env : Env) (w : World) (a : Action) : CallsChange w (step env w a) := by
  have hs := gStep env w a
  generalize step env w a = w' at hs
  cases hs with
  | @serve h session x request w' answer hx hr hs =>
    cases hs with
    | created hi => exact .created hx hr (setHandler_handlers _ _ _) rfl hi
    | @finalized c f =>
      exact .ended hx hr (setHandler_handlers _ _ _) rfl (fun r => by simp [finalizeStmt])
        (endedBy_finalizeStmt c f) rfl
    | _ => exact .same rfl
  | _ => exact .same rfl

theorem now_le_step (env : Env) (w : World) (a : Action) : w.now ≤ (step env w a).now := by
  have hs := gStep env w a
  generalize step env w a = w' at hs
  cases hs with
  | @tick d => exact Int.le_add_of_nonneg_right (Int.natCast_nonneg d)
  | serve _ _ hs => cases hs <;> exact Int.le_refl _
  | _ => exact Int.le_refl _

theorem later_of_change (hnow : w.now ≤ w'.now) (hsent : ∀ e ∈ w.sent, e ∈ w'.sent) (hc : CallsChange w w') :
    Later w w' := by
  refine ⟨hnow, hsent, fun {c r} hl => ?_⟩
  cases hc with
  | same e =>
    rw [e]
    exact ⟨r, hl, rfl, id⟩
  | @created _ _ _ call _ _ _ _ hi =>
    have hne : (newCall call).callId ≠ c := fun e => by
      rw [← e, (Table.insert_eq_some hi).1] at hl
      cases hl
    rw [Table.lookup_insert hi, if_neg hne]
    exact ⟨r, hl, rfl, id⟩
  | ended _ _ _ _ hu he e =>
    rw [e, Table.lookup_update, hl]
    refine ⟨_, rfl, requestOf_row hu he r, fun hne => ?_⟩
    rcases row_ended hu he r with ⟨-, e⟩ | ⟨-, hb⟩
    · rwa [e]
    · rw [hb.endedAt]
      exact Option.some_ne_none _

theorem later_step (env : Env) (w : World) (a : Action) : Later w (step env w a) :=
  later_of_change (now_le_step env w a) (fun _ he => (sent_step env w a).subset he) (calls_step env w a)

/-! ## What is under way -/

/-- The handler has sent this request, or waits for its answer. -/
def About (x : Handler) (request : ApiRequest) : Prop :=
  x.request = some request ∨ x.phase = requestPhase request

/-- The requests of a handler and the answers it is given are those of its
callback. -/
structure HandlerSources (env : Env) (w : World) (h : Nat) (x : Handler) : Prop where
  number : ∀ {number}, About x (.resolve number) →
    env.eventType x.payload ∈ startEvents ∧ x.payload.number = some number
  route : ∀ {number tenantId agentId}, x.phase = .resolving number →
    x.answer = some (.resolved tenantId agentId) → routeOf env number = some (tenantId, agentId)
  opens : ∀ {call}, About x (.create call) →
    Opens env x.payload call ∧ (h, eventKey env x.payload) ∈ w.sent ∧ call.startedAt ≤ w.now
  created : ∀ {call}, x.phase = .creating call → x.answer = some .created → Found w call.callId (· = call)
  closes : ∀ {c f}, About x (.finalize c f) →
    env.eventType x.payload ∈ endEvents ∧ f.endReason = env.endReason x.payload ∧
      (h, eventKey env x.payload) ∈ w.sent ∧
      Found w c fun call => call.providerCallId = some x.payload.providerCallId ∧ call.startedAt ≤ f.endedAt

structure Sources (env : Env) (w : World) : Prop where
  handlers : ∀ {h x}, w.handlers h = some x → HandlerSources env w h x
  entries : ∀ {place p c}, w.store place p = some c → Found w c fun call => call.providerCallId = some p
  begun : ∀ r ∈ w.calls.rows, r.startedAt ≤ w.now

theorem HandlerSources.later (hx : HandlerSources env w h x) (hl : Later w w') : HandlerSources env w' h x where
  number := hx.number
  route := hx.route
  opens ha := by
    obtain ⟨ho, hs, ht⟩ := hx.opens ha
    exact ⟨ho, hl.sent _ hs, Int.le_trans ht hl.now⟩
  created hp ha := hl.found (hx.created hp ha)
  closes ha := by
    obtain ⟨he, hf, hs, hc⟩ := hx.closes ha
    exact ⟨he, hf, hl.sent _ hs, hl.found hc⟩

/-- A handler that has been told nothing new, and asks for nothing new. -/
theorem HandlerSources.of_about (hx : HandlerSources env w h x) (hp : y.payload = x.payload)
    (ha : ∀ {request}, About y request → About x request)
    (hr : ∀ {number tenantId agentId}, y.phase = .resolving number →
      y.answer = some (.resolved tenantId agentId) → routeOf env number = some (tenantId, agentId))
    (hc : ∀ {call}, y.phase = .creating call → y.answer = some .created → Found w call.callId (· = call)) :
    HandlerSources env w h y where
  number h := by rw [hp]; exact hx.number (ha h)
  route := hr
  opens h := by rw [hp]; exact hx.opens (ha h)
  created := hc
  closes h := by rw [hp]; exact hx.closes (ha h)

/-- A handler that has returned or is gone, whose request may still be on the way. -/
theorem HandlerSources.done (hx : HandlerSources env w h x) (hp : y.payload = x.payload)
    (hr : y.request = x.request) (hw : isWaiting y.phase = false) : HandlerSources env w h y := by
  have hno : ∀ request, y.phase ≠ requestPhase request := fun request e => by
    rw [e] at hw
    cases request <;> cases hw
  refine hx.of_about hp (fun ha => ?_) (fun e => absurd e (hno (.resolve _))) fun e => absurd e (hno (.create _))
  rcases ha with e | e
  · exact .inl (hr ▸ e)
  · exact absurd e (hno _)

theorem resolve_answer {session : Tenant.Setting} {number tenantId agentId : String}
    (h : (serveRequest env session w (.resolve number)).2 = .resolved tenantId agentId) :
    routeOf env number = some (tenantId, agentId) := by
  unfold serveRequest at h
  unfold routeOf
  dsimp only at h
  split at h
  · rename_i e
    cases h
    exact e
  · cases h

/-- A handler whose request has been served. -/
theorem HandlerSources.answered (hx : HandlerSources env w h x) (hb : HandlerBacked env w x)
    {request : ApiRequest} {session : Tenant.Setting} (hr : x.request = some request) (hl : Later w w')
    (hcalls : w'.calls = (serveRequest env session w request).1.calls) :
    HandlerSources env w' h
      { x with request := none, answer := some (serveRequest env session w request).2 } := by
  refine (hx.later hl).of_about rfl (fun ha => ?_) (fun {number t a} hp ha => ?_) fun {call} hp ha => ?_
  · rcases ha with e | e
    · cases e
    · exact .inr e
  · have hp' : x.phase = .resolving number := hp
    obtain rfl : request = .resolve number :=
      resolve_of_phase ((hb.awaits (by rw [hp']; rfl) hr).symm.trans hp')
    exact resolve_answer (Option.some.inj ha)
  · have hp' : x.phase = .creating call := hp
    obtain rfl : request = .create call :=
      create_of_phase ((hb.awaits (by rw [hp']; rfl) hr).symm.trans hp')
    have hs := served env session w (.create call)
    rw [Option.some.inj ha] at hs
    generalize (serveRequest env session w (.create call)).1 = w₁ at hs hcalls
    cases hs with
    | created hi =>
      refine ⟨newCall call, ?_, rfl⟩
      rw [hcalls]
      exact (Table.lookup_insert hi _).trans (if_pos rfl)

/-- The number that a new start event asks for is the one that was dialed. -/
theorem receive_number {number : String} (hx : w.handlers h = some x)
    (hp : x.phase = .recording) (ha : x.answer = some (.recorded false))
    (hs : env.eventType x.payload ∈ startEvents)
    (e : step env w (.receive h) = w.await h x (.resolving number) (.resolve number)) :
    x.payload.number = some number := by
  have hphase := congrArg (fun w => (w.handlers h).map (·.phase)) e
  rw [step_receive env hx ha] at hphase
  unfold resume newEvent at hphase
  simp only [hp, if_pos hs] at hphase
  -- The handler goes on if there is a number, and a routing dependency.
  split at hphase <;> simp only [World.reply, World.await, setHandler_handlers, Option.map_some] at hphase
  · cases hphase
  · cases hphase
  · rename_i hn
    cases hphase
    exact hn

/-- A handler that goes on to its next request. -/
theorem handlerSources_of_await {request : ApiRequest} (hr : y.request = some request)
    (hp : y.phase = requestPhase request) (ha : y.answer = none)
    (hn : ∀ {number}, request = .resolve number →
      env.eventType y.payload ∈ startEvents ∧ y.payload.number = some number)
    (ho : ∀ {call}, request = .create call →
      Opens env y.payload call ∧ (h, eventKey env y.payload) ∈ w.sent ∧ call.startedAt ≤ w.now)
    (hc : ∀ {c f}, request = .finalize c f →
      env.eventType y.payload ∈ endEvents ∧ f.endReason = env.endReason y.payload ∧
        (h, eventKey env y.payload) ∈ w.sent ∧
        Found w c fun call => call.providerCallId = some y.payload.providerCallId ∧ call.startedAt ≤ f.endedAt) :
    HandlerSources env w h y where
  number h' := by
    rcases h' with e | e
    · exact hn (Option.some.inj (hr.symm.trans e))
    · exact hn (resolve_of_phase (hp.symm.trans e))
  route _ e := by rw [ha] at e; cases e
  opens h' := by
    rcases h' with e | e
    · exact ho (Option.some.inj (hr.symm.trans e))
    · exact ho (create_of_phase (hp.symm.trans e))
  created _ e := by rw [ha] at e; cases e
  closes h' := by
    rcases h' with e | e
    · exact hc (Option.some.inj (hr.symm.trans e))
    · exact hc (finalize_of_phase (hp.symm.trans e))

/-- Where a store entry comes from: it was there, or its call has just been
created. -/
theorem entries_step {place : Place} {p : String} {c : CallId} (hs : (step env w a).store place p = some c) :
    w.store place p = some c ∨ ∃ h x call, w.handlers h = some x ∧ x.phase = .creating call ∧
      x.answer = some .created ∧ call.callId = c ∧ x.payload.providerCallId = p := by
  have hg := gStep env w a
  generalize step env w a = w' at hg hs
  cases hg with
  | serve hx hr hserved =>
    rw [show World.store (World.setHandler _ _ _) = _ from hserved.frame.2.2.1] at hs
    exact .inl hs
  | @started h x call hx hp ha =>
    rw [show World.store (World.setHandler _ _ _) = (w.storePut _ _ _).store from rfl, storePut_store] at hs
    split at hs
    · rename_i hat
      exact .inr ⟨h, x, call, hx, hp, ha, Option.some.inj hs, hat.2.symm⟩
    · exact .inl hs
  | cleaned =>
    rw [show World.store (World.setHandler _ _ _) = (w.storePut _ _ _).store from rfl, storePut_store] at hs
    split at hs
    · cases hs
    · exact .inl hs
  | @restart inst =>
    refine .inl ?_
    have hs : Function.update w.store (.process inst) (fun _ => none) place p = some c := hs
    by_cases hpl : place = .process inst
    · subst hpl
      rw [Function.update_self] at hs
      cases hs
    · rwa [Function.update_of_ne hpl] at hs
  | tick => exact .inl (tick_store hs)
  | _ => exact .inl hs

theorem handlerSources_step (hw : Sources env w) (hb : Backed env w) (hy : (step env w a).handlers h = some y) :
    HandlerSources env (step env w a) h y := by
  have hg := gStep env w a
  have hl := later_step env w a
  have hset : ∀ {h' z}, Function.update w.handlers h' (some z) h = some y →
      HandlerSources env (step env w a) h' z → HandlerSources env (step env w a) h y := by
    intro h' z e hz
    rcases update_cases e with ⟨rfl, rfl⟩ | ⟨-, e⟩
    · exact hz
    · exact (hw.handlers e).later hl
  generalize hw' : step env w a = w' at hg hy hl hset
  cases hg with
  | skip => exact (hw.handlers hy).later hl
  | tick => exact (hw.handlers hy).later hl
  | deliver hx =>
    exact hset hy (handlerSources_of_await rfl rfl rfl (fun e => by cases e) (fun e => by cases e)
      fun e => by cases e)
  | @serve h' session x request w' answer hx hr hs =>
    rw [step_serve env hx hr] at hw'
    rw [← hw'] at hy hl hset ⊢
    rw [World.setHandler, (served env session w request).frame.1] at hy
    exact hset hy ((hw.handlers hx).answered (hb.handlers hx) hr hl rfl)
  | reply _ hx => exact hset hy (((hw.handlers hx).later hl).done rfl rfl rfl)
  | resolve hx hp ha hs =>
    have hn := receive_number hx hp ha hs hw'
    refine hset hy (handlerSources_of_await rfl rfl rfl (fun e => ?_) (fun e => by cases e) (fun e => by cases e))
    cases e
    exact ⟨hs, hn⟩
  | @create h' x number tenantId agentId hx hp ha =>
    have hnum := (hw.handlers hx).number (.inr hp)
    have hroute := (hw.handlers hx).route hp ha
    refine hset hy (handlerSources_of_await rfl rfl rfl (fun e => by cases e) (fun e => ?_) (fun e => by cases e))
    cases e
    exact ⟨⟨hnum.1, rfl, ⟨number, hnum.2, hroute⟩, rfl⟩, List.mem_cons_self, Int.le_refl _⟩
  | finalize hx _ _ he hg =>
    obtain ⟨r, hr, hp⟩ := hw.entries (storeGet_store hg)
    refine hset hy (handlerSources_of_await rfl rfl rfl (fun e => by cases e) (fun e => by cases e) fun e => ?_)
    cases e
    exact ⟨he, rfl, List.mem_cons_self, r, hr, hp, hw.begun r (Table.lookup_mem hr)⟩
  | started hx => exact hset hy (((hw.handlers hx).later hl).done rfl rfl rfl)
  | cleaned hx => exact hset hy (((hw.handlers hx).later hl).done rfl rfl rfl)
  | @restart inst =>
    obtain ⟨x, hx, rfl⟩ := Option.map_eq_some_iff.mp hy
    have hx := (hw.handlers hx).later hl
    rcases restart_cases inst x with e | e <;> rw [e]
    · exact hx
    · exact hx.done rfl rfl rfl

/-- A row begins when it is written, at the latest. -/
theorem begun_change (hw : Sources env w) (hnow : w.now ≤ w'.now) (hc : CallsChange w w') :
    ∀ r ∈ w'.calls.rows, r.startedAt ≤ w'.now := by
  intro r hr
  cases hc with
  | same e =>
    rw [e] at hr
    exact Int.le_trans (hw.begun r hr) hnow
  | created hx hq _ _ hi =>
    rcases (Table.mem_insert hi).mp hr with hr | rfl
    · exact Int.le_trans (hw.begun r hr) hnow
    · exact Int.le_trans ((hw.handlers hx).opens (.inl hq)).2.2 hnow
  | @ended _ _ _ _ _ u _ _ _ _ hu he e =>
    rw [e] at hr
    obtain ⟨r₀, hr₀, rfl⟩ := List.mem_map.mp hr
    have hsame : (u.row r₀).startedAt = r₀.startedAt :=
      congrArg CallCreateRequest.startedAt (requestOf_row hu he r₀)
    rw [hsame]
    exact Int.le_trans (hw.begun r₀ hr₀) hnow

theorem sources_step (hw : Sources env w) (hb : Backed env w) (a : Action) : Sources env (step env w a) where
  handlers hy := handlerSources_step hw hb hy
  entries {place p c} hs := by
    have hl := later_step env w a
    rcases entries_step hs with hs | ⟨h, x, call, hx, hp, ha, rfl, rfl⟩
    · exact hl.found (hw.entries hs)
    · obtain ⟨r, hr, rfl⟩ := (hw.handlers hx).created hp ha
      exact hl.found ⟨r, hr, ((hw.handlers hx).opens (.inr hp)).1.provider⟩
  begun := begun_change hw (now_le_step env w a) (calls_step env w a)

theorem sources_init (env : Env) (now : Time) : Sources env (.init now) where
  handlers h := by cases h
  entries h := by cases h
  begun _ h := by cases h

/-! ## Who has written a row -/

/-- Every row with `sel` has a handler that wrote it, by the one request that it has
sent, and `P` of its callback. `own` tells the requests that write such rows: one
that is still on the way has written none. -/
structure Owned (env : Env) (sel : Call → Prop) (own : ApiRequest → Prop) (P : ExotelCallback → Call → Prop)
    (w : World) (owner : CallId → Nat) : Prop where
  written : ∀ r ∈ w.calls.rows, sel r → ∃ x, w.handlers (owner r.callId) = some x ∧
    (owner r.callId, eventKey env x.payload) ∈ w.sent ∧ P x.payload r
  apart : ∀ r ∈ w.calls.rows, ∀ r' ∈ w.calls.rows, sel r → sel r' →
    owner r.callId = owner r'.callId → r.callId = r'.callId
  unserved : ∀ {h x request}, w.handlers h = some x → x.request = some request → own request →
    ∀ r ∈ w.calls.rows, sel r → owner r.callId ≠ h

/-- How a handler comes to have a request after a step: it had it before, or it is
one that writes nothing, or the handler has just sent the one of its event. -/
inductive Asking (env : Env) (w : World) (h : Nat) (request : ApiRequest) : Prop
  | kept {x : Handler} (hx : w.handlers h = some x) (hr : x.request = some request)
  | reading (hc : ∀ call, request ≠ .create call) (hf : ∀ c f, request ≠ .finalize c f)
  | sent {x : Handler} (hx : w.handlers h = some x) (hn : (h, eventKey env x.payload) ∉ w.sent)

theorem asking_step {request : ApiRequest} (ho : Once env w) (hy : (step env w a).handlers h = some y)
    (hr : y.request = some request) : Asking env w h request := by
  have hg := gStep env w a
  generalize step env w a = w' at hg hy
  -- Only the handler whose step it is has another request.
  have hset : ∀ {h' z}, Function.update w.handlers h' (some z) h = some y →
      (z.request = some request → Asking env w h' request) → Asking env w h request := by
    intro h' z e hz
    rcases update_cases e with ⟨rfl, rfl⟩ | ⟨-, e⟩
    · exact hz hr
    · exact .kept e hr
  have hunsent : ∀ {h' x}, w.handlers h' = some x → IsFresh env x (eventKey env x.payload) →
      (h', eventKey env x.payload) ∉ w.sent := fun hx hf hm =>
    ho.spent ⟨_, hx, hf⟩ (List.mem_map_of_mem hm)
  cases hg with
  | skip => exact .kept hy hr
  | tick => exact .kept hy hr
  | deliver =>
    refine hset hy fun e => ?_
    cases e
    exact .reading (fun _ e => by cases e) (fun _ _ e => by cases e)
  | serve _ _ hs =>
    rw [World.setHandler, hs.frame.1] at hy
    exact hset hy fun e => by cases e
  | reply _ hx => exact hset hy fun e => .kept hx e
  | resolve =>
    refine hset hy fun e => ?_
    cases e
    exact .reading (fun _ e => by cases e) (fun _ _ e => by cases e)
  | create hx hp => exact hset hy fun _ => .sent hx (hunsent hx ⟨rfl, .inr ⟨_, hp⟩⟩)
  | finalize hx hp ha => exact hset hy fun _ => .sent hx (hunsent hx ⟨rfl, .inl ⟨hp, ha⟩⟩)
  | started hx => exact hset hy fun e => .kept hx e
  | cleaned hx => exact hset hy fun e => .kept hx e
  | @restart inst =>
    obtain ⟨x, hx, rfl⟩ := Option.map_eq_some_iff.mp hy
    refine .kept hx ?_
    rcases restart_cases inst x with e | e <;> rw [e] at hr <;> exact hr

/-- What a step does to handlers, requests and calls. -/
structure Change (env : Env) (w w' : World) : Prop where
  kept : ∀ {h x}, w.handlers h = some x → ∃ y, w'.handlers h = some y ∧ y.payload = x.payload
  sent : ∀ e ∈ w.sent, e ∈ w'.sent
  asking : ∀ {h y request}, w'.handlers h = some y → y.request = some request → Asking env w h request
  calls : CallsChange w w'

theorem change_step (ho : Once env w) (a : Action) : Change env w (step env w a) where
  kept hx := by
    obtain ⟨y, hy, -, hp, -⟩ := handler_kept env hx a
    exact ⟨y, hy, hp⟩
  sent _ he := (sent_step env w a).subset he
  asking hy hr := asking_step ho hy hr
  calls := calls_step env w a

section

variable {sel : Call → Prop} {own : ApiRequest → Prop} {P : ExotelCallback → Call → Prop} {owner : CallId → Nat}

/-- A request that writes such rows creates or ends a call. -/
def Writes (own : ApiRequest → Prop) : Prop :=
  ∀ request, own request → (∃ call, request = .create call) ∨ ∃ c f, request = .finalize c f

/-- A handler that asks for such a row after a step has written none before. -/
theorem Owned.ne_owner (hw : Owned env sel own P w owner) (hown : Writes own) {request : ApiRequest}
    (ha : Asking env w h request) (hr : own request) {r : Call} (hmem : r ∈ w.calls.rows) (hs : sel r) :
    owner r.callId ≠ h := by
  cases ha with
  | kept hx hrx => exact hw.unserved hx hrx hr r hmem hs
  | reading hc hf =>
    rcases hown request hr with ⟨call, rfl⟩ | ⟨c, f, rfl⟩
    · exact absurd rfl (hc call)
    · exact absurd rfl (hf c f)
  | sent hx hn =>
    rintro rfl
    obtain ⟨x', hx', hsent, -⟩ := hw.written r hmem hs
    obtain rfl := Option.some.inj (hx.symm.trans hx')
    exact hn hsent

/-- What has been written stays so in a step that keeps `P` of the row. -/
theorem Owned.still (hw : Owned env sel own P w owner) (hch : Change env w w') {r : Call} (hr : r ∈ w.calls.rows)
    (hs : sel r) {r' : Call} (hP : ∀ payload, P payload r → P payload r') :
    ∃ y, w'.handlers (owner r.callId) = some y ∧
      (owner r.callId, eventKey env y.payload) ∈ w'.sent ∧ P y.payload r' := by
  obtain ⟨x, hx, hsent, hp⟩ := hw.written r hr hs
  obtain ⟨y, hy, hpay⟩ := hch.kept hx
  refine ⟨y, hy, ?_, ?_⟩
  · rw [hpay]
    exact hch.sent _ hsent
  · rw [hpay]
    exact hP _ hp

/-- Steps that write no such row. -/
theorem Owned.keep (hw : Owned env sel own P w owner) (hch : Change env w w') (hown : Writes own)
    (hrows : ∀ r' ∈ w'.calls.rows, sel r' → ∃ r ∈ w.calls.rows, sel r ∧ r.callId = r'.callId ∧
      ∀ payload, P payload r → P payload r') :
    Owned env sel own P w' owner where
  written r' hr' hs' := by
    obtain ⟨r, hr, hs, e, hP⟩ := hrows r' hr' hs'
    rw [← e]
    exact hw.still hch hr hs hP
  apart r' hr' q' hq' hs' ht' e := by
    obtain ⟨r, hr, hs, er, -⟩ := hrows r' hr' hs'
    obtain ⟨q, hq, ht, eq, -⟩ := hrows q' hq' ht'
    rw [← er, ← eq] at e ⊢
    exact hw.apart r hr q hq hs ht e
  unserved hy hr hown' r' hr' hs' := by
    obtain ⟨r, hmem, hs, er, -⟩ := hrows r' hr' hs'
    rw [← er]
    exact hw.ne_owner hown (hch.asking hy hr) hown' hmem hs

/-- The request of `h` is served, and writes the row of `c`, whoever has written it
before. -/
theorem Owned.write (hw : Owned env sel own P w owner) (c : CallId) (hch : Change env w w') (hown : Writes own)
    {request : ApiRequest} (hx : w.handlers h = some x) (hr : x.request = some request)
    (hown' : own request) (hsent : (h, eventKey env x.payload) ∈ w.sent) (hy : w'.handlers h = some y)
    (hn : y.request = none)
    (hrows : ∀ r ∈ w'.calls.rows, sel r → r.callId = c ∧ P x.payload r ∨ r.callId ≠ c ∧ r ∈ w.calls.rows) :
    Owned env sel own P w' (Function.update owner c h) := by
  have hold : ∀ r ∈ w.calls.rows, sel r → r.callId ≠ c →
      Function.update owner c h r.callId = owner r.callId ∧ owner r.callId ≠ h := fun r hmem hs hne =>
    ⟨Function.update_of_ne hne _ _, hw.unserved hx hr hown' r hmem hs⟩
  refine ⟨fun r hmem hs => ?_, fun r hmem q hq hs ht e => ?_, fun {h' z request'} hz hr' hown'' r hmem hs => ?_⟩
  · rcases hrows r hmem hs with ⟨rfl, hP⟩ | ⟨hne, hmem⟩
    · obtain ⟨z, hz, hpay⟩ := hch.kept hx
      rw [Function.update_self]
      exact ⟨z, hz, by rw [hpay]; exact hch.sent _ hsent, by rwa [hpay]⟩
    · rw [(hold r hmem hs hne).1]
      exact hw.still hch hmem hs fun _ => id
  · rcases hrows r hmem hs with ⟨rfl, -⟩ | ⟨hne, hmem⟩ <;> rcases hrows q hq ht with ⟨hqc, -⟩ | ⟨hne', hq⟩
    · exact hqc.symm
    · rw [Function.update_self, (hold q hq ht hne').1] at e
      exact absurd e.symm (hold q hq ht hne').2
    · rw [hqc, Function.update_self, (hold r hmem hs hne).1] at e
      exact absurd e (hold r hmem hs hne).2
    · rw [(hold r hmem hs hne).1, (hold q hq ht hne').1] at e
      exact hw.apart r hmem q hq hs ht e
  · -- The handler whose request was served has none now.
    have hhne : h ≠ h' := by
      rintro rfl
      obtain rfl := Option.some.inj (hy.symm.trans hz)
      rw [hn] at hr'
      cases hr'
    rcases hrows r hmem hs with ⟨rfl, -⟩ | ⟨hne, hmem⟩
    · rwa [Function.update_self]
    · rw [(hold r hmem hs hne).1]
      exact hw.ne_owner hown (hch.asking hz hr') hown'' hmem hs

theorem owned_init (env : Env) (now : Time) (owner : CallId → Nat) : Owned env sel own P (.init now) owner where
  written _ h := by cases h
  apart _ h := by cases h
  unserved h := by cases h

end

/-! ## The rows of every run -/

/-- The handlers that create calls own their rows. -/
abbrev Openers (env : Env) : World → (CallId → Nat) → Prop :=
  Owned env (fun _ => True) (fun request => ∃ call, request = .create call)
    fun payload r => Opens env payload (requestOf r)

/-- The handlers that finalize calls own the rows that have ended. -/
abbrev Closers (env : Env) : World → (CallId → Nat) → Prop :=
  Owned env (fun r => r.endedAt ≠ none) (fun request => ∃ c f, request = .finalize c f) (Closes env)

theorem openers_change (hw : Sources env w) (hch : Change env w w') {owner : CallId → Nat}
    (hc : Openers env w owner) : ∃ owner', Openers env w' owner' := by
  have hown : Writes fun request => ∃ call, request = .create call := fun _ => .inl
  cases hch.calls with
  | same e => exact ⟨owner, hc.keep hch hown fun r hr hs => ⟨r, by rwa [e] at hr, hs, rfl, fun _ => id⟩⟩
  | @created h x y call hx hr hy hn hi =>
    obtain ⟨hopens, hsent, -⟩ := (hw.handlers hx).opens (.inl hr)
    refine ⟨_, hc.write call.callId hch hown hx hr ⟨call, rfl⟩ hsent hy hn fun r hmem _ => ?_⟩
    rcases (Table.mem_insert hi).mp hmem with hmem | rfl
    · exact .inr ⟨Table.lookup_eq_none.mp (Table.insert_eq_some hi).1 r hmem, hmem⟩
    · exact .inl ⟨rfl, hopens⟩
  | @ended _ _ _ _ _ u _ _ _ _ hu he e =>
    refine ⟨owner, hc.keep hch hown fun r' hr' _ => ?_⟩
    rw [e] at hr'
    obtain ⟨r, hr, rfl⟩ := List.mem_map.mp hr'
    refine ⟨r, hr, trivial, (u.row_key r).symm, fun payload hp => ?_⟩
    rwa [requestOf_row hu he]

/-- A row after an end event's request has been served. -/
theorem closes_of_endedBy {payload : ExotelCallback} {r r' : Call} {f : FinalizeRequest}
    (he : env.eventType payload ∈ endEvents) (hf : f.endReason = env.endReason payload)
    (hp : r.providerCallId = some payload.providerCallId) (ht : r.startedAt ≤ f.endedAt) (hb : EndedBy f r r') :
    Closes env payload r' where
  event := he
  provider := (congrArg CallCreateRequest.providerCallId hb.request).trans hp
  reason := hb.endReason.trans (congrArg some hf)
  status := by
    rw [hb.status, Finalize.endStatus, hf, endReasonMap_endReason]
    split_ifs <;> rfl
  failed h := by
    have hs : Finalize.endStatus f.endReason = (.failed, .failedPreConnect) := by
      rw [Finalize.endStatus, hf, endReasonMap_endReason, if_pos h]
      rfl
    have hconnection := hb.connection
    rw [hs] at hconnection
    exact hconnection (by decide)
  after := ⟨f.endedAt, hb.endedAt, le_of_eq_of_le (congrArg CallCreateRequest.startedAt hb.request) ht⟩

theorem closers_change (hw : Sources env w) (hch : Change env w w') {owner : CallId → Nat}
    (hc : Closers env w owner) : ∃ owner', Closers env w' owner' := by
  have hown : Writes fun request => ∃ c f, request = .finalize c f := fun _ => .inr
  cases hch.calls with
  | same e => exact ⟨owner, hc.keep hch hown fun r hr hs => ⟨r, by rwa [e] at hr, hs, rfl, fun _ => id⟩⟩
  | created _ _ _ _ hi =>
    refine ⟨owner, hc.keep hch hown fun r hr hs => ?_⟩
    rcases (Table.mem_insert hi).mp hr with hr | rfl
    · exact ⟨r, hr, hs, rfl, fun _ => id⟩
    · exact absurd rfl hs
  | @ended h x y k f u hx hr hy hn hu he e =>
    obtain ⟨hev, hf, hsent, q, hq, hp, ht⟩ := (hw.handlers hx).closes (.inl hr)
    refine ⟨_, hc.write k hch hown hx hr ⟨k, f, rfl⟩ hsent hy hn fun r' hmem _ => ?_⟩
    rw [e] at hmem
    obtain ⟨r, hold, rfl⟩ := List.mem_map.mp hmem
    rw [u.row_key]
    rcases row_ended hu he r with ⟨hne, e'⟩ | ⟨hk, hb⟩
    · exact .inr ⟨hne, by rwa [e']⟩
    · obtain rfl : r = q := Table.eq_of_key_eq hold (Table.lookup_mem hq) (hk.trans (Table.lookup_key hq).symm)
      exact .inl ⟨hk, closes_of_endedBy hev hf hp ht hb⟩

/-- A row that has not ended is as it was created. -/
def Untouched (w : World) : Prop := ∀ r ∈ w.calls.rows, r.endedAt = none → r = newCall (requestOf r)

theorem untouched_change (hw : Untouched w) (hc : CallsChange w w') : Untouched w' := by
  intro r hr hopen
  cases hc with
  | same e => exact hw r (e ▸ hr) hopen
  | created _ _ _ _ hi =>
    rcases (Table.mem_insert hi).mp hr with hr | rfl
    · exact hw r hr hopen
    · rfl
  | ended _ _ _ _ hu he e =>
    rw [e] at hr
    obtain ⟨r, hold, rfl⟩ := List.mem_map.mp hr
    rcases row_ended hu he r with ⟨-, e'⟩ | ⟨-, hb⟩
    · rw [e'] at hopen ⊢
      exact hw r hold hopen
    · rw [hb.endedAt] at hopen
      cases hopen

/-- The callback that a row was written for. -/
def writtenFor (w : World) (owner : CallId → Nat) (c : CallId) : Option ExotelCallback :=
  (w.handlers (owner c)).map (·.payload)

section

variable {sel : Call → Prop} {own : ApiRequest → Prop} {P : ExotelCallback → Call → Prop} {owner : CallId → Nat}

/-- No event has written two rows. -/
theorem Owned.eq_of_key (hw : Owned env sel own P w owner) (ho : Once env w) {r r' : Call}
    (hr : r ∈ w.calls.rows) (hr' : r' ∈ w.calls.rows) (hs : sel r) (hs' : sel r')
    (e : (writtenFor w owner r.callId).map (eventKey env) = (writtenFor w owner r'.callId).map (eventKey env)) :
    r = r' := by
  obtain ⟨x, hx, hsent, -⟩ := hw.written r hr hs
  obtain ⟨x', hx', hsent', -⟩ := hw.written r' hr' hs'
  have hkey : eventKey env x.payload = eventKey env x'.payload := by
    simpa only [writtenFor, hx, hx', Option.map_some, Option.some.injEq] using e
  have hpair := List.inj_on_of_nodup_map ho.nodup hsent hsent' hkey
  exact Table.eq_of_key_eq hr hr' (hw.apart r hr r' hr' hs hs' (congrArg Prod.fst hpair))

end

/-- Where the calls of a state come from. -/
structure Attributed (env : Env) (w : World) : Prop where
  sources : Sources env w
  once : Once env w
  backed : Backed env w
  untouched : Untouched w
  openers : ∃ owner, Openers env w owner
  closers : ∃ owner, Closers env w owner

/-- A change, with what has to be shown of it for itself. -/
theorem Attributed.change (hw : Attributed env w) (hch : Change env w w') (hs : Sources env w') (ho : Once env w')
    (hb : Backed env w') : Attributed env w' where
  sources := hs
  once := ho
  backed := hb
  untouched := untouched_change hw.untouched hch.calls
  openers := by
    obtain ⟨owner, ho⟩ := hw.openers
    exact openers_change hw.sources hch ho
  closers := by
    obtain ⟨owner, hc⟩ := hw.closers
    exact closers_change hw.sources hch hc

theorem attributed_step (hw : Attributed env w) (a : Action) : Attributed env (step env w a) :=
  hw.change (change_step hw.once a) (sources_step hw.sources hw.backed a) (once_step hw.once a)
    (backed_step hw.backed a)

theorem attributed_init (env : Env) (now : Time) : Attributed env (.init now) :=
  ⟨sources_init env now, once_init env now, backed_init env now, nofun,
    ⟨fun _ => 0, owned_init env now _⟩, ⟨fun _ => 0, owned_init env now _⟩⟩

end CallingAgent.Proof.Gateway
