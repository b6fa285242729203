import CallingAgent.Proof.Gateway.Backed

/-!
# A callback handled alone

What the handler of a callback does when nothing fails and nobody else takes a
step: each of its requests is served and answered in turn. A callback whose
event is recorded changes nothing (`delivery_recorded`); a new start event
creates a call, its session and its mapping (`delivery_start`); a new end event
finalizes the call that it finds in the store and removes session and mapping
(`delivery_end`), or finds none (`delivery_unmapped`).
-/

namespace CallingAgent.Proof.Gateway

open CallingAgent.Framework CallingAgent.Impl CallingAgent.Impl.Calls CallingAgent.Impl.Exotel
open CallingAgent.Impl.Jobs (CallJobs EventCreateRequest insertJob newJob)

/-- A callback is handled from its arrival to its reply, every request served at
once, on a connection left with `session i`. -/
def delivery (h inst : Nat) (payload : ExotelCallback) (session : Nat → Tenant.Setting) : List Action :=
  [.deliver h inst payload, .serve h (session 0), .receive h, .serve h (session 1), .receive h,
    .serve h (session 2), .receive h]

variable {env : Env} {w : World} {h inst : Nat} {x : Handler} {payload : ExotelCallback}

/-- A request is served and its answer received. -/
theorem run_answered {request : ApiRequest} (hx : w.handlers h = some x) (hr : x.request = some request)
    (session : Tenant.Setting) (as : List Action) :
    run (step env) w (.serve h session :: .receive h :: as) =
      run (step env)
        (resume env
          ((serveRequest env session w request).1.setHandler h
            { x with request := none, answer := some (serveRequest env session w request).2 })
          h { x with request := none, answer := none } (serveRequest env session w request).2) as := by
  rw [run_cons, run_cons, step_serve _ hx hr, step_receive _ (setHandler_handlers _ _ _) rfl]

/-- A handler that waits for nothing takes no step. -/
theorem run_done (hx : w.handlers h = some x) (hr : x.request = none) (ha : x.answer = none)
    (session : Tenant.Setting) (as : List Action) :
    run (step env) w (.serve h session :: .receive h :: as) = run (step env) w as := by
  have hserve : step env w (.serve h session) = w := by simp only [step, hx, hr]
  have hreceive : step env w (.receive h) = w := by simp only [step, hx, ha]
  rw [run_cons, run_cons, hserve, hreceive]

/-! ## The record of the event -/

/-- The events that the gateway knows can be recorded. -/
theorem exists_recordBody (he : env.eventType payload ∈ startEvents ∨ env.eventType payload ∈ endEvents) :
    ∃ body, env.recordBody payload = some body := by
  have hlen : ∀ s ∈ startEvents ++ endEvents, 1 ≤ s.length ∧ s.length ≤ 50 := by decide
  exact ⟨_, dif_pos (hlen _ (List.mem_append.mpr he))⟩

/-- The API records a new event. -/
theorem serveRequest_new (hw : Backed env w) {body : EventCreateRequest}
    (hb : env.recordBody payload = some body) (hn : ¬ Recorded w (eventKey env payload))
    (session : Tenant.Setting) :
    ∃ jobs, serveRequest env session w (.record (some body)) =
      ({ w with jobs := jobs, issued := w.issued + 1 }, .recorded false) := by
  have hs := served env session w (.record (some body))
  generalize serveRequest env session w (.record (some body)) = served at hs ⊢
  obtain ⟨w', answer⟩ := served
  cases hs with
  | new => exact ⟨_, rfl⟩
  | conflict hi => exact absurd ((insertJob_eq_none_iff hw hb _).mp hi) hn

/-- The API does not record an event again. -/
theorem serveRequest_recorded (hw : Backed env w) {body : EventCreateRequest}
    (hb : env.recordBody payload = some body) (hr : Recorded w (eventKey env payload))
    (session : Tenant.Setting) :
    ∃ answer, (answer = .recorded true ∨ answer = .internalApiError) ∧
      serveRequest env session w (.record (some body)) = ({ w with issued := w.issued + 1 }, answer) := by
  have hs := served env session w (.record (some body))
  generalize serveRequest env session w (.record (some body)) = served at hs ⊢
  obtain ⟨w', answer⟩ := served
  cases hs with
  | new hi => exact absurd (hi.symm.trans ((insertJob_eq_none_iff hw hb _).mpr hr)) nofun
  | conflict _ ha => exact ⟨answer, ha, rfl⟩

theorem step_deliver (hx : w.handlers h = none) {body : EventCreateRequest}
    (hb : env.recordBody payload = some body) :
    step env w (.deliver h inst payload) =
      w.setHandler h ⟨inst, payload, .recording, some (.record (some body)), none⟩ := by
  simp only [step, hx, hb]

/-- A handler that is told that its event is not new returns. -/
theorem resume_recorded (env : Env) (w : World) (h : Nat) (hp : x.phase = .recording) {answer : ApiAnswer}
    (ha : answer = .recorded true ∨ answer = .internalApiError) :
    ∃ reply, isQuiet reply = true ∧ (∀ c, reply ≠ .ok .ignored c) ∧
      resume env w h x answer = w.reply h x reply := by
  unfold resume
  rw [hp]
  rcases ha with rfl | rfl
  · exact ⟨.ok .duplicate _, rfl, nofun, rfl⟩
  · exact ⟨.httpException 503 _, rfl, nofun, rfl⟩

section

variable (inst) (hw : Backed env w) (hx : w.handlers h = none) {body : EventCreateRequest}
  (hb : env.recordBody payload = some body)
include hw hx hb

/-- A recorded event is answered without an effect. -/
theorem delivery_recorded (hr : Recorded w (eventKey env payload)) (session : Nat → Tenant.Setting) :
    ∃ reply, isQuiet reply = true ∧ (∀ c, reply ≠ .ok .ignored c) ∧
      replyOf (run (step env) w (delivery h inst payload session)) h = some reply := by
  have hw₀ := backed_step hw (.deliver h inst payload)
  rw [step_deliver hx hb] at hw₀
  obtain ⟨answer, ha, e⟩ := serveRequest_recorded hw₀ hb ((recorded_congr rfl).mpr hr) (session 0)
  unfold delivery
  rw [run_cons, step_deliver hx hb, run_answered (setHandler_handlers _ _ _) rfl, e]
  obtain ⟨reply, hq, hi, e'⟩ := resume_recorded env _ h
    (x := ⟨inst, payload, .recording, none, none⟩) rfl ha
  rw [e', World.reply, run_done (setHandler_handlers _ _ _) rfl rfl, run_done (setHandler_handlers _ _ _) rfl rfl]
  exact ⟨reply, hq, hi, replyOf_eq (setHandler_handlers _ _ _) rfl⟩

/-- A handler that is told that its event is new goes on. -/
theorem delivery_new (hn : ¬ Recorded w (eventKey env payload)) (session : Nat → Tenant.Setting) :
    ∃ jobs handlers,
      Backed env { w with jobs := jobs, handlers := handlers, issued := w.issued + 1 } ∧
      run (step env) w (delivery h inst payload session) =
        run (step env)
          (newEvent env { w with jobs := jobs, handlers := handlers, issued := w.issued + 1 } h
            ⟨inst, payload, .recording, none, none⟩)
          [.serve h (session 1), .receive h, .serve h (session 2), .receive h] := by
  have hw₀ := backed_step hw (.deliver h inst payload)
  have hw₁ := backed_step hw₀ (.serve h (session 0))
  rw [step_deliver hx hb] at hw₀ hw₁
  obtain ⟨jobs, e⟩ := serveRequest_new hw₀ hb (fun hr => hn ((recorded_congr rfl).mp hr)) (session 0)
  rw [step_serve _ (setHandler_handlers _ _ _) rfl, e] at hw₁
  refine ⟨jobs, _, hw₁, ?_⟩
  unfold delivery
  rw [run_cons, step_deliver hx hb, run_answered (setHandler_handlers _ _ _) rfl, e]
  rfl

end

/-! ## The effect of the event -/

theorem serveRequest_create (env : Env) {call : CallCreateRequest} (hl : w.calls.lookup call.callId = none)
    (session : Tenant.Setting) :
    ∃ calls, w.calls.insert (newCall call) = some calls ∧
      serveRequest env session w (.create call) = ({ w with calls := calls }, .created) := by
  obtain ⟨calls, hi⟩ := Table.exists_insert (r := newCall call) hl
  refine ⟨calls, hi, ?_⟩
  simp only [serveRequest, createCall, hl, hi, succeeded]

/-- A finalized call has ended, and the request succeeds. -/
theorem serveRequest_finalize (env : Env) {c : CallId} (hl : w.calls.lookup c ≠ none) (f : FinalizeRequest)
    (session : Tenant.Setting) :
    ∃ calls, (∃ r, calls.lookup c = some r ∧ r.endedAt ≠ none) ∧
      serveRequest env session w (.finalize c f) = ({ w with calls := calls }, .finalized) := by
  have hs := served env session w (.finalize c f)
  generalize serveRequest env session w (.finalize c f) = served at hs ⊢
  obtain ⟨w', answer⟩ := served
  cases hs with
  | @finalized _ _ r h =>
    refine ⟨_, ⟨(finalizeStmt c f).set r, ?_, nofun⟩, rfl⟩
    rw [Table.lookup_update, h, Option.map_some, Update.row_of_guard]
    simpa [finalizeStmt] using Table.lookup_key h
  | @again _ _ r h hr => exact ⟨_, ⟨r, h, Option.isSome_iff_ne_none.mp hr⟩, rfl⟩
  | missing h => exact absurd h hl

/-- The number of a start event can be resolved. -/
def Routed (env : Env) (payload : ExotelCallback) : Prop :=
  ∃ routes number dest, env.routing = some routes ∧ payload.number = some number ∧ routes number = some dest

/-- The API resolves the number. -/
def Resolves (env : Env) (number : String) : Prop :=
  ∃ tenantId agentId, ∀ session w, serveRequest env session w (.resolve number) = (w, .resolved tenantId agentId)

theorem newEvent_start (hs : env.eventType x.payload ∈ startEvents) (hroute : Routed env x.payload) (w : World) :
    ∃ number, newEvent env w h x = w.await h x (.resolving number) (.resolve number) ∧ Resolves env number := by
  obtain ⟨routes, number, ⟨tenantId, agentId⟩, hroutes, hnumber, hdest⟩ := hroute
  refine ⟨number, ?_, tenantId, agentId, fun session w' => ?_⟩
  · simp only [newEvent, if_pos hs, hroutes, hnumber]
  · simp only [serveRequest, hroutes, Option.bind_some, hdest]

theorem not_start_of_end {event : String} (he : event ∈ endEvents) : event ∉ startEvents := by
  have hdisjoint : ∀ e ∈ endEvents, e ∉ startEvents := by decide
  exact hdisjoint event he

/-- A new end event of a call in the store. -/
theorem newEvent_mapped (he : env.eventType x.payload ∈ endEvents) {c : CallId}
    (hc : w.storeGet env x.inst x.payload.providerCallId = some c) :
    ∃ w₁ f, newEvent env w h x = w₁ ∧
      w₁.handlers h = some ⟨x.inst, x.payload, .finalizing c f, some (.finalize c f), none⟩ ∧
      w₁.calls = w.calls ∧ SameKeys w w₁ := by
  simp only [newEvent, if_neg (not_start_of_end he), if_pos he, hc]
  exact ⟨_, _, rfl, setHandler_handlers _ _ _, rfl, rfl, rfl, rfl, rfl, rfl⟩

/-- A new end event of a call that is not in the store. -/
theorem newEvent_unmapped (he : env.eventType x.payload ∈ endEvents)
    (hc : w.storeGet env x.inst x.payload.providerCallId = none) :
    newEvent env w h x = w.reply h x (.ok .ignored "") := by
  simp only [newEvent, if_neg (not_start_of_end he), if_pos he, hc]

section

variable (hx : w.handlers h = some x) (session : Tenant.Setting) (as : List Action)
include hx

/-- The number is resolved. -/
theorem run_resolve {number tenantId agentId : String} (hp : x.phase = .resolving number)
    (hr : x.request = some (.resolve number))
    (hs : serveRequest env session w (.resolve number) = (w, .resolved tenantId agentId)) :
    ∃ w₁ call, run (step env) w (.serve h session :: .receive h :: as) = run (step env) w₁ as ∧
      call = newCallRequest env w x tenantId agentId ∧
      w₁.handlers h = some ⟨x.inst, x.payload, .creating call, some (.create call), none⟩ ∧
      w₁.calls = w.calls := by
  rw [run_answered hx hr, hs]
  simp only [resume, hp]
  exact ⟨_, _, rfl, rfl, setHandler_handlers _ _ _, rfl⟩

/-- The call is created, and its session and mapping with it. -/
theorem run_create {call : CallCreateRequest} (hp : x.phase = .creating call)
    (hr : x.request = some (.create call)) (hl : w.calls.lookup call.callId = none) :
    ∃ w₁, run (step env) w (.serve h session :: .receive h :: as) = run (step env) w₁ as ∧
      w.calls.insert (newCall call) = some w₁.calls ∧
      w₁.store = (w.storePut (env.place x.inst) x.payload.providerCallId (some call.callId)).store ∧
      (∀ place, Keeps env x.inst place → w₁.sessions place call.callId = some (newSession w call)) ∧
      w₁.handlers h = some ⟨x.inst, x.payload, .returned (.ok .sessionStarted call.callId), none, none⟩ := by
  obtain ⟨calls, hi, e⟩ := serveRequest_create env hl session
  rw [run_answered hx hr, e]
  simp only [resume, hp]
  rw [sessionCreate_only]
  refine ⟨_, rfl, hi, rfl, fun place hk => ?_, setHandler_handlers _ _ _⟩
  exact (sessionCreate_sessions _ _ _ _ _ _).trans (if_pos ⟨hk, rfl⟩)

/-- The call is finalized, and its session and mapping are removed. -/
theorem run_finalize {c : CallId} {f : FinalizeRequest} (hp : x.phase = .finalizing c f)
    (hr : x.request = some (.finalize c f)) (hl : w.calls.lookup c ≠ none) :
    ∃ w₁, run (step env) w (.serve h session :: .receive h :: as) = run (step env) w₁ as ∧
      (∃ r, w₁.calls.lookup c = some r ∧ r.endedAt ≠ none) ∧
      w₁.store = (w.storePut (env.place x.inst) x.payload.providerCallId none).store ∧
      (∀ place, Keeps env x.inst place → w₁.sessions place c = none) ∧
      w₁.handlers h = some ⟨x.inst, x.payload, .returned (.ok .sessionCleaned c), none, none⟩ := by
  obtain ⟨calls, hended, e⟩ := serveRequest_finalize env hl f session
  rw [run_answered hx hr, e]
  simp only [resume, hp]
  rw [sessionClean_only]
  refine ⟨_, rfl, hended, rfl, fun place hk => ?_, setHandler_handlers _ _ _⟩
  exact (sessionClean_sessions _ _ _ _ _ _).trans (if_pos ⟨hk, rfl⟩)

end

section

variable (inst) (hw : Backed env w) (hx : w.handlers h = none) (hn : ¬ Recorded w (eventKey env payload))
  (session : Nat → Tenant.Setting)
include hw hx hn

/-- A new start event creates a call, its session and its mapping. -/
theorem delivery_start (hs : env.eventType payload ∈ startEvents) (hroute : Routed env payload) :
    ∃ w' call, run (step env) w (delivery h inst payload session) = w' ∧
      call.providerCallId = some payload.providerCallId ∧ w.calls.insert (newCall call) = some w'.calls ∧
      w'.storeGet env inst payload.providerCallId = some call.callId ∧
      (w'.sessionGet env inst call.callId).2 ≠ none ∧ replyOf w' h = some (.ok .sessionStarted call.callId) := by
  obtain ⟨body, hb⟩ := exists_recordBody (.inl hs)
  obtain ⟨jobs, handlers, hw₁, e₁⟩ := delivery_new inst hw hx hb hn session
  generalize hw₁e : ({ w with jobs := jobs, handlers := handlers, issued := w.issued + 1 } : World) = w₁
    at hw₁ e₁
  have hcalls : w.calls = w₁.calls := by rw [← hw₁e]
  obtain ⟨number, e₂, tenantId, agentId, hresolve⟩ := newEvent_start (h := h)
    (x := ⟨inst, payload, .recording, none, none⟩) hs hroute w₁
  rw [e₂, World.await] at e₁
  have hx₁ := setHandler_handlers w₁ h ⟨inst, payload, .resolving number, some (.resolve number), none⟩
  obtain ⟨w₂, call, e₃, hcall, hx₂, hc₂⟩ := run_resolve hx₁ (session 1)
    [.serve h (session 2), .receive h] rfl rfl (hresolve _ _)
  have hfresh : w₂.calls.lookup call.callId = none := by
    rw [hc₂, hcall]
    refine Table.lookup_eq_none.mpr fun r hr e => not_issued env w₁ ?_
    rw [← show r.callId = (env.uuid4 w₁.issued).1 from e]
    exact hw₁.calls r hr
  obtain ⟨w', e₄, hi, hstore, hsessions, hx'⟩ := run_create hx₂ (session 2) [] rfl rfl hfresh
  refine ⟨w', call, e₁.trans (e₃.trans e₄), by rw [hcall]; rfl, ?_, ?_, ?_, replyOf_eq hx' rfl⟩
  · rw [hcalls, show w₁.calls = w₂.calls from hc₂.symm]; exact hi
  · have hid : call.callId ≠ "" := by rw [hcall]; exact (env.uuid4 _).2
    unfold World.storeGet
    rw [hstore, storePut_store, if_pos ⟨rfl, rfl⟩]
    exact Option.filter_some_pos (decide_eq_true hid)
  · rw [ne_eq, sessionGet_eq_none_iff]
    intro hnone
    have := hsessions _ (.inl rfl)
    rw [hnone _ (.inl rfl)] at this
    cases this

/-- A new end event finalizes the call that it finds in the store, and removes
session and mapping. -/
theorem delivery_end (he : env.eventType payload ∈ endEvents) {c : CallId}
    (hc : w.storeGet env inst payload.providerCallId = some c) :
    ∃ w', run (step env) w (delivery h inst payload session) = w' ∧
      (∃ r, w'.calls.lookup c = some r ∧ r.endedAt ≠ none) ∧
      w'.storeGet env inst payload.providerCallId = none ∧ (w'.sessionGet env inst c).2 = none ∧
      replyOf w' h = some (.ok .sessionCleaned c) := by
  obtain ⟨body, hb⟩ := exists_recordBody (.inr he)
  obtain ⟨jobs, handlers, hw₁, e₁⟩ := delivery_new inst hw hx hb hn session
  generalize hw₁e : ({ w with jobs := jobs, handlers := handlers, issued := w.issued + 1 } : World) = w₁
    at hw₁ e₁
  have hc₁ : w₁.storeGet env inst payload.providerCallId = some c := by rw [← hw₁e]; exact hc
  obtain ⟨w₂, f, e₂, hx₂, hc₂, -⟩ := newEvent_mapped (h := h) (x := ⟨inst, payload, .recording, none, none⟩)
    he hc₁
  rw [e₂] at e₁
  have hmapped : w₂.calls.lookup c ≠ none := by rw [hc₂]; exact hw₁.entries (storeGet_store hc₁)
  obtain ⟨w', e₃, hended, hstore, hsessions, hx'⟩ := run_finalize hx₂ (session 1)
    [.serve h (session 2), .receive h] rfl rfl hmapped
  refine ⟨w', e₁.trans (e₃.trans (run_done hx' rfl rfl _ _)), hended, ?_, ?_, replyOf_eq hx' rfl⟩
  · unfold World.storeGet
    rw [hstore, storePut_store, if_pos ⟨rfl, rfl⟩]; rfl
  · exact (sessionGet_eq_none_iff _ _ _ _).mpr hsessions

/-- A new end event that finds no call is ignored. -/
theorem delivery_unmapped (he : env.eventType payload ∈ endEvents)
    (hc : w.storeGet env inst payload.providerCallId = none) :
    replyOf (run (step env) w (delivery h inst payload session)) h = some (.ok .ignored "") := by
  obtain ⟨body, hb⟩ := exists_recordBody (.inr he)
  obtain ⟨jobs, handlers, -, e⟩ := delivery_new inst hw hx hb hn session
  rw [e, newEvent_unmapped he hc, World.reply, run_done (setHandler_handlers _ _ _) rfl rfl,
    run_done (setHandler_handlers _ _ _) rfl rfl]
  exact replyOf_eq (setHandler_handlers _ _ _) rfl

end

end CallingAgent.Proof.Gateway
