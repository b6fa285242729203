import CallingAgent.Proof.Gateway.Provenance

/-!
# What the gateways keep and answer

In every run, whatever fails or is restarted, what the gateways say of calls is true
of the table (`answers_hold`): a session that a process or Redis holds, active or
ended, is of a call of its tenant and its agent; a reply with the id of a call is
about a call of the callback's own `CallSid`, which has ended if the reply says so.

`sessions_step` and `replies_step` say where a session and a reply come from.
-/

namespace CallingAgent.Proof.Gateway

open CallingAgent.Framework CallingAgent.Impl CallingAgent.Impl.Calls CallingAgent.Impl.Exotel

variable {env : Env} {w w' : World} {h : Nat} {x y : Handler} {a : Action} {c : CallId}

/-- A session after a step: it was there, or it is that of a call that has just been
created. -/
theorem sessions_step {place : Place} {session : Session}
    (hs : (step env w a).sessions place c = some session) :
    w.sessions place c = some session ∨ ∃ h x call, w.handlers h = some x ∧ x.phase = .creating call ∧
      x.answer = some .created ∧ call.callId = c ∧ session = newSession w call := by
  have hg := gStep env w a
  generalize step env w a = w' at hg hs
  cases hg with
  | serve hx hr hserved =>
    rw [show World.sessions (World.setHandler _ _ _) = _ from hserved.frame.2.2.2] at hs
    exact .inl hs
  | @started h x call hx hp ha =>
    have hs : (w.sessionCreate env x.inst (newSession w call)).sessions place c = some session := hs
    rw [sessionCreate_sessions] at hs
    split at hs
    · rename_i hat
      exact .inr ⟨h, x, call, hx, hp, ha, hat.2.symm, (Option.some.inj hs).symm⟩
    · exact .inl hs
  | @cleaned h x callId finalization hx hp ha =>
    have hs : (w.sessionClean env x.inst callId).sessions place c = some session := hs
    rw [sessionClean_sessions] at hs
    split at hs
    · cases hs
    · exact .inl hs
  | @restart inst =>
    refine .inl ?_
    have hs : Function.update w.sessions (.process inst) (fun _ => none) place c = some session := hs
    by_cases hpl : place = .process inst
    · subst hpl
      rw [Function.update_self] at hs
      cases hs
    · rwa [Function.update_of_ne hpl] at hs
  | tick => exact .inl (tick_sessions hs)
  | _ => exact .inl hs

/-- What a handler answers without having changed anything. -/
def QuietOk (env : Env) (w : World) (x : Handler) : ReplyStatus → CallId → Prop
  | .duplicate, c => c = (w.storeGet env x.inst x.payload.providerCallId).getD ""
  | .ignored, c => c = ""
  | _, _ => False

/-- How a handler comes to have answered with the id of a call. -/
inductive Answered (env : Env) (w : World) (h : Nat) : ReplyStatus → CallId → ExotelCallback → Prop
  | before {x : Handler} {status : ReplyStatus} {c : CallId} (hx : w.handlers h = some x)
      (hp : x.phase = .returned (.ok status c)) : Answered env w h status c x.payload
  | started {x : Handler} {call : CallCreateRequest} (hx : w.handlers h = some x)
      (hp : x.phase = .creating call) (ha : x.answer = some .created) :
      Answered env w h .sessionStarted call.callId x.payload
  | cleaned {x : Handler} {c : CallId} {f : FinalizeRequest} (hx : w.handlers h = some x)
      (hp : x.phase = .finalizing c f) (ha : x.answer = some .finalized) :
      Answered env w h .sessionCleaned c x.payload
  | quiet {x : Handler} {status : ReplyStatus} {c : CallId} (hx : w.handlers h = some x)
      (hq : QuietOk env w x status c) : Answered env w h status c x.payload

/-- The phase of the handler that a step has left. -/
theorem phase_setHandler (w : World) (h : Nat) (x : Handler) :
    ((w.setHandler h x).handlers h).map (·.phase) = some x.phase := by
  rw [setHandler_handlers, Option.map_some]

/-- A handler that returns after a new event, without having done anything. -/
theorem newEvent_reply {status : ReplyStatus}
    (hr : ((newEvent env w h x).handlers h).map (·.phase) = some (.returned (.ok status c))) :
    QuietOk env w x status c := by
  unfold newEvent at hr
  split at hr
  · split at hr <;> cases (phase_setHandler _ _ _).symm.trans hr
  · split at hr
    · split at hr
      · cases (phase_setHandler _ _ _).symm.trans hr
        rfl
      · cases (phase_setHandler _ _ _).symm.trans hr
    · cases (phase_setHandler _ _ _).symm.trans hr
      rfl

/-- A handler that returns without having done anything. -/
theorem resume_reply {answer : ApiAnswer} {status : ReplyStatus} (hw : isWaiting x.phase = true)
    (hq : isQuiet (.ok status c) = true)
    (hr : ((resume env w h x answer).handlers h).map (·.phase) = some (.returned (.ok status c))) :
    QuietOk env w x status c := by
  unfold resume at hr
  split at hr
  · split at hr
    · cases (phase_setHandler _ _ _).symm.trans hr
      rfl
    · exact newEvent_reply hr
    · cases (phase_setHandler _ _ _).symm.trans hr
  · split at hr <;> cases (phase_setHandler _ _ _).symm.trans hr
  · split at hr <;> cases (phase_setHandler _ _ _).symm.trans hr
    cases hq
  · split at hr <;> cases (phase_setHandler _ _ _).symm.trans hr
    cases hq
  · rename_i e
    rw [e] at hw
    cases hw
  · rename_i e
    rw [e] at hw
    cases hw

theorem replies_step {status : ReplyStatus} (hy : (step env w a).handlers h = some y)
    (hp : y.phase = .returned (.ok status c)) : Answered env w h status c y.payload := by
  have hg := gStep env w a
  have hphase : ((step env w a).handlers h).map (·.phase) = some (.returned (.ok status c)) := by
    rw [hy, Option.map_some, hp]
  generalize hw' : step env w a = w' at hg hy hphase
  have hset : ∀ {h' z}, Function.update w.handlers h' (some z) h = some y →
      (h = h' → z = y → Answered env w h status c y.payload) → Answered env w h status c y.payload := by
    intro h' z e hz
    rcases update_cases e with ⟨rfl, rfl⟩ | ⟨-, e⟩
    · exact hz rfl rfl
    · exact .before e hp
  cases hg with
  | skip => exact .before hy hp
  | tick => exact .before hy hp
  | deliver =>
    refine hset hy ?_
    rintro rfl rfl
    cases hp
  | @serve _ _ x _ _ _ hx _ hs =>
    rw [World.setHandler, hs.frame.1] at hy
    refine hset hy ?_
    rintro rfl rfl
    exact .before (x := x) hx hp
  | @reply _ h' x answer reply ha hx hwait hq =>
    refine hset hy ?_
    rintro rfl rfl
    cases hp
    rw [← hw'] at hphase
    rcases ha with ⟨rfl, -, ha, -⟩ | ⟨rfl, -⟩
    · obtain ⟨answer, ha⟩ := Option.ne_none_iff_exists'.mp ha
      rw [step_receive env hx ha] at hphase
      exact .quiet (x := x) hx (resume_reply (x := { x with answer := none }) hwait hq hphase)
    · simp only [step, hx] at hphase
      exact .quiet (x := x) hx (resume_reply hwait hq hphase)
  | resolve =>
    refine hset hy ?_
    rintro rfl rfl
    cases hp
  | create =>
    refine hset hy ?_
    rintro rfl rfl
    cases hp
  | finalize =>
    refine hset hy ?_
    rintro rfl rfl
    cases hp
  | @started _ x _ hx hph ha =>
    refine hset hy ?_
    rintro rfl rfl
    cases hp
    exact .started (x := x) hx hph ha
  | @cleaned _ x _ _ hx hph ha =>
    refine hset hy ?_
    rintro rfl rfl
    cases hp
    exact .cleaned (x := x) hx hph ha
  | @restart inst =>
    obtain ⟨x, hx, rfl⟩ := Option.map_eq_some_iff.mp hy
    rcases restart_cases inst x with e | e <;> rw [e] at hp ⊢
    · exact .before hx hp
    · cases hp

/-! ## What has ended -/

/-- The call has ended. -/
def Ended (w : World) (c : CallId) : Prop := ∃ r, w.calls.lookup c = some r ∧ r.endedAt ≠ none

theorem Later.ended (h : Later w w') (he : Ended w c) : Ended w' c := by
  obtain ⟨r, hr, hn⟩ := he
  obtain ⟨r', hr', -, hended⟩ := h.calls hr
  exact ⟨r', hr', hended hn⟩

/-- A handler that is told that its call is finalized finds it so. -/
def Finalizes (w : World) : Prop :=
  ∀ {h x c f}, w.handlers h = some x → x.phase = .finalizing c f → x.answer = some .finalized → Ended w c

/-- A request to finalize a call is answered so when the call has ended. -/
theorem serve_finalized {session : Tenant.Setting} {f : FinalizeRequest}
    (ha : (serveRequest env session w (.finalize c f)).2 = .finalized) :
    Ended (serveRequest env session w (.finalize c f)).1 c := by
  have hs := served env session w (.finalize c f)
  rw [ha] at hs
  generalize (serveRequest env session w (.finalize c f)).1 = w' at hs
  cases hs with
  | @finalized _ _ r hl ho =>
    have hrow : (finalizeStmt c f).guard r = true := by simpa [finalizeStmt] using Table.lookup_key hl
    refine ⟨(finalizeStmt c f).set r, ?_, Option.some_ne_none _⟩
    rw [Table.lookup_update, hl, Option.map_some, Update.row_of_guard hrow]
  | again hl he => exact ⟨_, hl, fun e => by rw [e] at he; cases he⟩

theorem finalizes_step (hw : Finalizes w) (hb : Backed env w) (a : Action) : Finalizes (step env w a) := by
  intro h y c f hy hp ha
  have hl := later_step env w a
  have hg := gStep env w a
  generalize hw' : step env w a = w' at hg hy hl ⊢
  have hset : ∀ {h' z}, Function.update w.handlers h' (some z) h = some y →
      (h = h' → z = y → Ended w' c) → Ended w' c := by
    intro h' z e hz
    rcases update_cases e with ⟨rfl, rfl⟩ | ⟨-, e⟩
    · exact hz rfl rfl
    · exact hl.ended (hw e hp ha)
  cases hg with
  | skip => exact hw hy hp ha
  | tick => exact hw hy hp ha
  | @serve h' session x request w' answer hx hr hs =>
    rw [step_serve env hx hr] at hw'
    rw [← hw'] at hy hset ⊢
    rw [World.setHandler, (served env session w request).frame.1] at hy
    refine hset hy ?_
    rintro rfl rfl
    have hp' : x.phase = .finalizing c f := hp
    obtain rfl : request = .finalize c f :=
      finalize_of_phase (((hb.handlers hx).awaits (by rw [hp']; rfl) hr).symm.trans hp')
    exact serve_finalized (Option.some.inj ha)
  | finalize =>
    refine hset hy ?_
    rintro rfl rfl
    cases ha
  | @restart inst =>
    obtain ⟨x, hx, rfl⟩ := Option.map_eq_some_iff.mp hy
    rcases restart_cases inst x with e | e <;> rw [e] at hp ha
    · exact hl.ended (hw hx hp ha)
    · cases hp
  | _ =>
    refine hset hy ?_
    rintro rfl rfl
    cases hp

/-! ## The gateways and the table -/

/-- A session of a call, whatever its status. -/
def SessionOf (session : Session) (call : CallCreateRequest) : Prop :=
  session.callId = call.callId ∧ session.tenantId = call.tenantId ∧ session.agentId = call.agentId ∧
    call.startedAt ≤ session.startedAt

/-- What a reply with the id of a call says. -/
def Tells (env : Env) (w : World) (payload : ExotelCallback) : ReplyStatus → CallId → Prop
  | .sessionStarted, c => Found w c (Opens env payload)
  | .sessionCleaned, c =>
    Ended w c ∧ Found w c fun call => call.providerCallId = some payload.providerCallId
  | .duplicate, c => c = "" ∨ Found w c fun call => call.providerCallId = some payload.providerCallId
  | .ignored, c => c = ""

structure Holds (env : Env) (w : World) : Prop where
  sessions : ∀ {place c session}, w.sessions place c = some session → Found w c (SessionOf session)
  replies : ∀ {h x status c}, w.handlers h = some x → x.phase = .returned (.ok status c) →
    Tells env w x.payload status c

theorem Later.tells (hl : Later w w') {payload : ExotelCallback} {status : ReplyStatus}
    (hs : Tells env w payload status c) : Tells env w' payload status c := by
  cases status with
  | sessionStarted => exact hl.found hs
  | sessionCleaned => exact ⟨hl.ended hs.1, hl.found hs.2⟩
  | duplicate => exact hs.imp_right hl.found
  | ignored => exact hs

/-- A handler that has answered without an effect. -/
theorem QuietOk.tells (hs : Sources env w) {status : ReplyStatus} (hq : QuietOk env w x status c) :
    Tells env w x.payload status c := by
  cases status with
  | sessionStarted => cases hq
  | sessionCleaned => cases hq
  | duplicate =>
    obtain rfl : c = _ := hq
    cases hg : w.storeGet env x.inst x.payload.providerCallId with
    | none => exact .inl rfl
    | some callId => exact .inr (hs.entries (storeGet_store hg))
  | ignored => exact hq

theorem holds_step (hw : Holds env w) (hs : Sources env w) (hf : Finalizes w) (a : Action) :
    Holds env (step env w a) := by
  have hl := later_step env w a
  refine ⟨fun hsession => ?_, fun hy hp => ?_⟩
  · rcases sessions_step hsession with hsession | ⟨h, x, call, hx, hp, ha, rfl, rfl⟩
    · exact hl.found (hw.sessions hsession)
    · obtain ⟨r, hr, rfl⟩ := (hs.handlers hx).created hp ha
      exact hl.found ⟨r, hr, rfl, rfl, rfl, hs.begun r (Table.lookup_mem hr)⟩
  · refine hl.tells ?_
    have hans := replies_step hy hp
    generalize Handler.payload _ = payload at hans ⊢
    cases hans with
    | before hx hph => exact hw.replies hx hph
    | started hx hph ha =>
      obtain ⟨r, hr, rfl⟩ := (hs.handlers hx).created hph ha
      exact ⟨r, hr, ((hs.handlers hx).opens (.inr hph)).1⟩
    | cleaned hx hph ha =>
      obtain ⟨-, -, -, r, hr, hprov, -⟩ := (hs.handlers hx).closes (.inr hph)
      exact ⟨hf hx hph ha, r, hr, hprov⟩
    | quiet hx hq => exact hq.tells hs

/-- What the gateways keep and answer is true. In every run of any number of gateway
processes, with failed requests and restarts anywhere and a Redis that answers, a
session in a process or in Redis is that of a call in the table, with its tenant and
its agent; and a handler that has returned `session_started` names a call that was
opened for its callback, one that has returned `session_cleaned` a call of its
`CallSid` that has ended, and one that has returned `duplicate` a call of its
`CallSid` or none. -/
theorem answers_hold (env : Env) (now : Time) (as : List Action) :
    let w := run (step env) (.init now) as
    (∀ place c session, w.sessions place c = some session → Found w c (SessionOf session)) ∧
    ∀ h x status c, w.handlers h = some x → x.phase = .returned (.ok status c) →
      Tells env w x.payload status c := by
  intro w
  have hw : Holds env w ∧ Attributed env w ∧ Finalizes w := by
    refine run_inv (I := fun w => Holds env w ∧ Attributed env w ∧ Finalizes w) ?_ ?_ as
    · exact ⟨⟨nofun, nofun⟩, attributed_init env now, nofun⟩
    · rintro w a ⟨hh, ha, hf⟩
      exact ⟨holds_step hh ha.sources hf a, attributed_step ha a, finalizes_step hf ha.backed a⟩
  exact ⟨fun _ _ _ => hw.1.sessions, fun _ _ _ _ => hw.1.replies⟩

end CallingAgent.Proof.Gateway
