import CallingAgent.Proof.Gateway.Retry
import CallingAgent.Proof.Gateway.Stages

/-!
# A start event and an end event

Whatever the order of the deliveries, and however the two handlers and those of
other calls are interleaved, a step leaves the call of a pair at its stage or
takes it to the next (`At.step`). The end event looks for the mapping when its
record is answered; if the start handler has not returned by then, or the entry
has expired, it finds none, is ignored, and the call stays open
(`start_and_end`).
-/

namespace CallingAgent.Proof.Gateway

open CallingAgent.Framework CallingAgent.Impl CallingAgent.Impl.Calls CallingAgent.Impl.Exotel

variable {env : Env} {pair : Pair env} {w w' : World} {h : Nat} {x y : Handler} {a : Action} {stage : Stage}

/-! ## The start event -/

/-- A step that is none of the two handlers', nor the clock's. -/
theorem At.other (hw : PairInv pair w) (hat : At pair w stage) (ha : pair.allows a = true)
    (htick : ∀ d, a ≠ .tick d) (hs : handlerOf a ≠ some pair.startHandler) (he : handlerOf a ≠ some pair.endHandler) :
    At pair (step env w a) stage := by
  have hwork := isWorking_of_allows ha
  refine hat.keep (elsewhere_step hw.mapping hw.provider hwork htick fun {h x} hh hx hev => ?_) ?_ ?_
  · exact hw.roles.other hx (fun e => hs (e ▸ hh)) (fun e => he (e ▸ hh)) hev
  · rw [handlers_other hwork hs]; exact hat.start
  · rw [handlers_other hwork he]; exact hat.finish

/-- The record of one of the two events is served. -/
theorem serve_recording (ho : Once env w) (hb : Backed env w) (hx : w.handlers h = some x)
    (hp : x.phase = .recording) (hphase : ∀ {request}, x.request = some request → x.phase = requestPhase request)
    (hev : env.eventType x.payload ∈ startEvents ∨ env.eventType x.payload ∈ endEvents)
    (hsole : Sole env w h x.payload) {request : ApiRequest} (hr : x.request = some request)
    (session : Tenant.Setting) :
    ∃ jobs, step env w (.serve h session) =
      World.setHandler { w with jobs := jobs, issued := w.issued + 1 } h
        { x with request := none, answer := some (.recorded false) } := by
  obtain ⟨body, hbody⟩ := exists_recordBody hev
  obtain rfl : request = .record (some body) := by
    have hreq := hp.symm.trans (hphase hr)
    cases request with
    | record b => rw [(ho.asks hx).own b hr, hbody]
    | _ => cases hreq
  have hn : ¬ Recorded w (eventKey env x.payload) := fun hrec => by
    obtain ⟨x', hx', hn⟩ := hsole hrec
    obtain rfl : x = x' := Option.some.inj (hx.symm.trans hx')
    exact hn _ hr
  obtain ⟨jobs, e⟩ := serveRequest_new hb hbody hn session
  exact ⟨jobs, by rw [step_serve env hx hr, e]⟩

theorem Creates.waiting (hx : Creates w x) {request : ApiRequest} (hr : x.request = some request) :
    isWaiting x.phase = true := by
  rw [hx.awaits hr]
  cases request <;> rfl

/-- The start handler goes on, and its call is not created yet. -/
theorem At.starting (hat : At pair w .before)
    (hfinish : w'.handlers pair.endHandler = w.handlers pair.endHandler)
    (hy : w'.handlers pair.startHandler = some y) (hstarting : Starting env y)
    (he : Elsewhere pair.sid w w') : At pair w' .before := by
  refine hat.keep he ?_ (by rw [hfinish]; exact hat.finish)
  rw [hy]
  exact fun _ e => Option.some.inj e ▸ hstarting

/-- The call of the start event is created. -/
theorem At.create (hw : PairInv pair w) (hat : At pair w .before) (hx : w.handlers pair.startHandler = some x)
    {call : CallCreateRequest} {calls : CallTable} (hp : x.phase = .creating call)
    (hi : w.calls.insert (newCall call) = some calls)
    (hfinish : w'.handlers pair.endHandler = w.handlers pair.endHandler)
    (hy : w'.handlers pair.startHandler = some { x with request := none, answer := some .created })
    (hc : w'.calls = calls) (hk : SameKeys w w') : At pair w' (.created call.callId) := by
  have hown : call.providerCallId = some pair.sid := by
    rw [(hw.mapping.creates hx).own hp, (hw.roles.start hx).2]; rfl
  have hnone : ∀ {p}, ¬ RowOf w p call.callId := fun ⟨r, hr, e, _⟩ =>
    Table.lookup_eq_none.mp (Table.insert_eq_some hi).1 r hr e
  refine ⟨fun {c} => ?_, ?_, fun place => ?_, fun {c} e place => ?_, ⟨_, call, hy, hp, rfl, rfl⟩, ?_⟩
  · rw [rowOf_created hi hc, hat.rows]
    simp [Stage.callId, hown]
  · exact iff_of_true ⟨newCall call, (activeFor_created hi hc).mpr (.inr ⟨rfl, hown⟩)⟩ rfl
  · rw [hk.store, hat.entries]
    exact (ite_self _).trans (ite_self _).symm
  · cases e
    rw [hk.sessions]
    refine iff_of_false (fun h => ?_) nofun
    obtain ⟨p, hrow⟩ := hw.provider.sessions h
    exact hnone hrow
  · rw [hfinish]; exact hat.finish

/-- A request of the start handler is served. -/
theorem At.start_serve (hw : PairInv pair w) (hat : At pair w stage) (session : Tenant.Setting) :
    ∃ stage', At pair (step env w (.serve pair.startHandler session)) stage' := by
  have hfinish : (step env w (.serve pair.startHandler session)).handlers pair.endHandler =
      w.handlers pair.endHandler := handlers_other rfl fun e => pair.distinct (Option.some.inj e)
  rcases serve_cases env w pair.startHandler session with e | ⟨x, request, hx, hr⟩
  · rw [e]; exact ⟨stage, hat⟩
  have hcx := hw.mapping.creates hx
  have hans := hcx.unanswered (by rw [hr]; exact nofun)
  have hpay := (hw.roles.start hx).2
  have e := step_serve env hx hr session
  rcases startAt_cases (hx ▸ hat.start) with ⟨rfl, hstarting⟩ | ⟨call, -, -, ha⟩ | ⟨c, hp⟩
  · cases hstarting with
    | recording hp =>
      obtain ⟨jobs, e⟩ := serve_recording hw.once hw.backed hx hp hcx.awaits (.inl (hpay ▸ pair.starts))
        (hpay ▸ hw.soleStart) hr session
      rw [e] at hfinish ⊢
      exact ⟨_, hat.starting hfinish (setHandler_handlers _ _ _)
        (.recording hp fun _ e => (Option.some.inj e).symm) (elsewhere_of_eq rfl ⟨rfl, rfl, rfl, rfl, rfl⟩)⟩
    | resolving hp hn =>
      obtain ⟨tenantId, agentId, hres⟩ := id hn
      obtain rfl := resolve_of_phase ((hcx.awaits hr).symm.trans hp)
      rw [hres] at e
      rw [e] at hfinish ⊢
      exact ⟨_, hat.starting hfinish (setHandler_handlers _ _ _)
        (.resolving hp hn fun _ e => ⟨_, _, (Option.some.inj e).symm⟩) (elsewhere_of_eq rfl ⟨rfl, rfl, rfl, rfl, rfl⟩)⟩
    | creating hp =>
      obtain rfl := create_of_phase ((hcx.awaits hr).symm.trans hp)
      obtain ⟨calls, hi, hserve⟩ := serveRequest_create env (hcx.unborn hp hans) session
      rw [hserve] at e
      rw [e] at hfinish ⊢
      exact ⟨_, hat.create hw hx hp hi hfinish (setHandler_handlers _ _ _) rfl ⟨rfl, rfl, rfl, rfl, rfl⟩⟩
  · rw [hans] at ha; cases ha
  · have hwait := hcx.waiting hr
    rw [hp] at hwait; cases hwait

/-- The start handler opens the session of its call and maps the call. -/
theorem At.open {c : CallId} (hat : At pair w (.created c)) (session : Session)
    (hfinish : w'.handlers pair.endHandler = w.handlers pair.endHandler)
    (hy : w'.handlers pair.startHandler = some y) (hp : y.phase = .returned (.ok .sessionStarted c))
    (hc : w'.calls = w.calls) (hnow : w'.now = w.now)
    (hs : w'.store = (w.storePut (env.place pair.inst) pair.sid (some c)).store)
    (hsu : w'.storeUntil = (w.storePut (env.place pair.inst) pair.sid (some c)).storeUntil)
    (ht : w'.sessions = (w.sessionCreate env pair.inst session).sessions)
    (htu : w'.sessionsUntil = (w.sessionCreate env pair.inst session).sessionsUntil)
    (hsession : session.callId = c) : At pair w' (.opened c) := by
  have hlives : pair.entryLives w' := fun hr => by
    have hplace : env.place pair.inst = .redis := if_pos hr
    rw [hsu, storePut_storeUntil, if_pos ⟨hplace, rfl⟩, hnow]
    exact Int.le_add_of_nonneg_right (by decide)
  have hactive : ∀ r, ActiveFor w' pair.sid r ↔ ActiveFor w pair.sid r := fun r => by unfold ActiveFor; rw [hc]
  refine ⟨(rowOf_congr hc).trans hat.rows, (exists_congr hactive).trans hat.active, fun place => ?_,
    fun {k} e place => ?_, ⟨y, hy, hp⟩, .inl (by rw [hfinish]; exact hat.finish)⟩
  · rw [hs, storePut_store, hat.entries place]
    by_cases hpl : place = env.place pair.inst
    · rw [if_pos ⟨hpl, rfl⟩, if_pos ⟨hpl, hlives⟩]; rfl
    · rw [if_neg fun h => hpl h.1, if_neg fun h => hpl h.1, if_neg fun h => hpl h.1]
  · cases e
    have hnone : w.sessions place c = none :=
      not_not.mp fun h => nomatch ((hat.sessions rfl place).mp h).1
    rw [ht, sessionCreate_sessions, hnone]
    by_cases hk : Keeps env pair.inst place
    · rw [if_pos ⟨hk, hsession.symm⟩]
      refine iff_of_true nofun ⟨rfl, hk, fun hpl => ?_⟩
      have hr : env.redis = true := hk.resolve_left (fun e => by rw [hpl] at e; cases e) |>.1
      rw [htu, sessionCreate_sessionsUntil, if_pos ⟨hr, hsession.symm⟩, hnow]
      exact Int.le_add_of_nonneg_right (by decide)
    · rw [if_neg fun h => hk h.1]
      exact iff_of_false (fun h => h rfl) fun h => hk h.2.1

/-- An answer reaches the start handler. -/
theorem At.start_receive (hw : PairInv pair w) (hat : At pair w stage) :
    ∃ stage', At pair (step env w (.receive pair.startHandler)) stage' := by
  have hfinish : (step env w (.receive pair.startHandler)).handlers pair.endHandler =
      w.handlers pair.endHandler := handlers_other rfl fun e => pair.distinct (Option.some.inj e)
  rcases receive_cases env w pair.startHandler with ⟨e, -⟩ | ⟨x, answer, hx, ha⟩
  · rw [e]; exact ⟨stage, hat⟩
  obtain ⟨hinst, hpay⟩ := hw.roles.start hx
  have e := step_receive env hx ha
  rcases startAt_cases (hx ▸ hat.start) with ⟨rfl, hstarting⟩ | ⟨call, rfl, hp, ha'⟩ | ⟨c, hp⟩
  · cases hstarting with
    | recording hp hans =>
      obtain rfl := hans answer ha
      have hstarts : env.eventType { x with answer := none }.payload ∈ startEvents := hpay ▸ pair.starts
      obtain ⟨number, hnew, hn⟩ := newEvent_start (h := pair.startHandler) hstarts (hpay ▸ pair.routed) w
      simp only [resume, hp] at e
      rw [e, ← hp, hnew, World.await] at hfinish ⊢
      exact ⟨_, hat.starting hfinish (setHandler_handlers _ _ _) (.resolving rfl hn fun _ e => by cases e)
        (elsewhere_of_eq rfl ⟨rfl, rfl, rfl, rfl, rfl⟩)⟩
    | resolving hp _ hans =>
      obtain ⟨tenantId, agentId, rfl⟩ := hans answer ha
      simp only [resume, hp] at e
      rw [e] at hfinish ⊢
      exact ⟨_, hat.starting hfinish (setHandler_handlers _ _ _) (.creating rfl rfl)
        (elsewhere_of_eq rfl ⟨rfl, rfl, rfl, rfl, rfl⟩)⟩
    | creating _ hnone => rw [hnone] at ha; cases ha
  · obtain rfl : answer = .created := Option.some.inj (ha.symm.trans ha')
    simp only [resume, hp] at e
    rw [sessionCreate_only] at e
    rw [e] at hfinish ⊢
    refine ⟨_, hat.open (newSession w call) hfinish (setHandler_handlers _ _ _) rfl rfl rfl ?_ ?_ ?_ ?_ rfl⟩
    · rw [← hinst, Pair.sid, ← hpay]; rfl
    · rw [← hinst, Pair.sid, ← hpay]; rfl
    · rw [← hinst]; rfl
    · rw [← hinst]; rfl
  · simp only [resume, hp] at e
    rw [e]; exact ⟨stage, hat⟩

/-! ## The end event -/

/-- The call of an open pair is finalized. -/
theorem At.finalize {c : CallId} {f : FinalizeRequest} (hat : At pair w (.opened c))
    (hstart : w'.handlers pair.startHandler = w.handlers pair.startHandler)
    (hy : w'.handlers pair.endHandler = some y) (hp : y.phase = .finalizing c f) (ha : y.answer = some .finalized)
    (hc : w'.calls = w.calls.update (finalizeStmt c f)) (hk : SameKeys w w') : At pair w' (.ending c) := by
  have hlives : pair.entryLives w' ↔ pair.entryLives w := by
    unfold Pair.entryLives
    rw [hk.now, hk.storeUntil]
  refine ⟨(rowOf_finalized hc).trans hat.rows, iff_of_false ?_ nofun, fun place => ?_, fun {k} e place => ?_, ?_,
    ⟨y, f, hy, hp, ha⟩⟩
  · rintro ⟨r, hr⟩
    obtain ⟨hr, hne⟩ := (activeFor_finalized hc).mp hr
    exact hne (Option.some.inj (hat.rows.mp hr.rowOf)).symm
  · rw [hk.store, hat.entries]
    exact if_congr (and_congr_right' hlives.symm) rfl rfl
  · rw [hk.sessions, hk.now, hk.sessionsUntil]; exact hat.sessions e place
  · rw [hstart]; exact hat.start

/-- The end handler removes session and mapping. -/
theorem At.close {c : CallId} (hat : At pair w (.ending c))
    (hstart : w'.handlers pair.startHandler = w.handlers pair.startHandler)
    (hy : w'.handlers pair.endHandler = some y) (hp : y.phase = .returned (.ok .sessionCleaned c))
    (hc : w'.calls = w.calls) (hs : w'.store = (w.storePut (env.place pair.inst) pair.sid none).store)
    (ht : w'.sessions = (w.sessionClean env pair.inst c).sessions) : At pair w' (.closed c) := by
  have hactive : ∀ r, ActiveFor w' pair.sid r ↔ ActiveFor w pair.sid r := fun r => by unfold ActiveFor; rw [hc]
  refine ⟨(rowOf_congr hc).trans hat.rows, (exists_congr hactive).trans hat.active, fun place => ?_,
    fun {k} e place => ?_, by rw [hstart]; exact hat.start, ⟨y, hy, hp⟩⟩
  · rw [hs, storePut_store, hat.entries place]
    refine Eq.trans ?_ (ite_self _).symm
    split_ifs with h1 h2
    · rfl
    · exact absurd ⟨h2.1, rfl⟩ h1
    · rfl
  · cases e
    refine iff_of_false ?_ nofun
    rw [ht, sessionClean_sessions]
    by_cases hk : Keeps env pair.inst place
    · rw [if_pos ⟨hk, rfl⟩]
      exact fun h => h rfl
    · rw [if_neg fun h => hk h.1]
      exact fun h => hk ((hat.sessions rfl place).mp h).2.1

/-- A request of the end handler is served. -/
theorem At.end_serve (hw : PairInv pair w) (hat : At pair w stage) (session : Tenant.Setting) :
    ∃ stage', At pair (step env w (.serve pair.endHandler session)) stage' := by
  have hstart : (step env w (.serve pair.endHandler session)).handlers pair.startHandler =
      w.handlers pair.startHandler := handlers_other rfl fun e => pair.distinct (Option.some.inj e).symm
  rcases serve_cases env w pair.endHandler session with e | ⟨x, request, hx, hr⟩
  · rw [e]; exact ⟨stage, hat⟩
  have hcx := hw.mapping.creates hx
  have hans := hcx.unanswered (by rw [hr]; exact nofun)
  have hpay := (hw.roles.finish hx).2
  have hwait := hcx.waiting hr
  rcases endAt_cases (hx ▸ hat.finish) with ⟨hun, hkeep⟩ | ⟨c, f, rfl, hp, -⟩ | ⟨c, f, -, -, ha⟩ | ⟨c, hp⟩
  · rcases hun x rfl with ⟨hp, -⟩ | hp
    · obtain ⟨jobs, e⟩ := serve_recording hw.once hw.backed hx hp hcx.awaits (.inr (hpay ▸ pair.ends))
        (hpay ▸ hw.soleEnd) hr session
      rw [e] at hstart ⊢
      refine ⟨stage, hat.keep (elsewhere_of_eq rfl ⟨rfl, rfl, rfl, rfl, rfl⟩) (by rw [hstart]; exact hat.start)
        (hkeep _ fun y hy => ?_)⟩
      rw [setHandler_handlers] at hy
      cases hy
      exact .inl ⟨hp, fun _ e => (Option.some.inj e).symm⟩
    · rw [hp] at hwait; cases hwait
  · -- The call is open, so its row is active, and has not ended.
    obtain rfl := finalize_of_phase ((hcx.awaits hr).symm.trans hp)
    obtain ⟨r, hr'⟩ := hat.active.mpr rfl
    obtain rfl : c = r.callId := Option.some.inj (hat.rows.mp hr'.rowOf)
    have hopen : ¬ r.endedAt.isSome = true := by rw [hw.activeOpen r hr'.1 hr'.2.2]; decide
    have e := step_serve env hx hr session
    simp only [serveRequest, finalizeCall, Table.lookup_of_mem hr'.1, if_neg hopen] at e
    rw [e] at hstart ⊢
    exact ⟨_, hat.finalize hstart (setHandler_handlers _ _ _) hp rfl rfl ⟨rfl, rfl, rfl, rfl, rfl⟩⟩
  · rw [hans] at ha; cases ha
  · rw [hp] at hwait; cases hwait

/-- The end handler looks for the mapping before the start handler has returned,
or when the entry has expired. -/
def LooksInVain (pair : Pair env) (w : World) (a : Action) : Prop :=
  a = .receive pair.endHandler ∧
    (∃ x, w.handlers pair.endHandler = some x ∧ x.phase = .recording ∧ x.answer ≠ none) ∧
    (replyOf w pair.startHandler = none ∨ ¬ pair.entryLives w)

/-- The end event has been ignored. -/
def Ignored (pair : Pair env) (w : World) : Prop := replyOf w pair.endHandler = some (.ok .ignored "")

/-- Before its call is created the start handler has not returned. -/
theorem replyOf_starting (h : StartAt env .before (w.handlers pair.startHandler)) :
    replyOf w pair.startHandler = none := by
  cases hx : w.handlers pair.startHandler with
  | none => unfold replyOf; rw [hx]; rfl
  | some x =>
    refine replyOf_waiting hx ?_
    cases h x hx with
    | recording hp => rw [hp]; rfl
    | resolving hp => rw [hp]; rfl
    | creating hp => rw [hp]; rfl

/-- The mapping is found exactly if the call is open and the entry within its
time. -/
theorem At.storeGet (hw : PairInv pair w) (hat : At pair w stage) :
    w.storeGet env pair.inst pair.sid = if pair.entryLives w then stage.entry else none := by
  unfold World.storeGet
  rw [hat.entries, if_congr (and_iff_right rfl) rfl rfl]
  split
  swap
  · rfl
  cases he : stage.entry with
  | none => rfl
  | some c =>
    have hid : stage.callId = some c := by
      cases stage with
      | opened | ending => exact he
      | _ => cases he
    obtain ⟨r, hr, rfl, -⟩ := hat.rows.mpr hid
    obtain ⟨i, -, e⟩ := hw.backed.calls r hr
    exact Option.filter_some_pos (decide_eq_true (e ▸ (env.uuid4 i).2))

/-- The record of the end event is answered: the handler looks for the mapping. -/
theorem At.look (hw : PairInv pair w) (hat : At pair w stage) (hx : w.handlers pair.endHandler = some x)
    (hp : x.phase = .recording) (ha : x.answer = some (.recorded false)) :
    (∃ stage', At pair (step env w (.receive pair.endHandler)) stage') ∧
      (Ignored pair (step env w (.receive pair.endHandler)) ↔
        replyOf w pair.startHandler = none ∨ ¬ pair.entryLives w) := by
  have hstart : (step env w (.receive pair.endHandler)).handlers pair.startHandler =
      w.handlers pair.startHandler := handlers_other rfl fun e => pair.distinct (Option.some.inj e).symm
  obtain ⟨hinst, hpay⟩ := hw.roles.finish hx
  have e : step env w (.receive pair.endHandler) = newEvent env w pair.endHandler { x with answer := none } := by
    rw [step_receive env hx ha]
    simp only [resume, hp]
  have hends : env.eventType { x with answer := none }.payload ∈ endEvents := hpay ▸ pair.ends
  have hget : w.storeGet env x.inst x.payload.providerCallId = if pair.entryLives w then stage.entry else none := by
    rw [hinst, hpay, pair.same]; exact hat.storeGet hw
  -- With no mapping, the event is ignored and the stage stays.
  have hignored : (if pair.entryLives w then stage.entry else none) = none → (∀ o, Unmapped o → EndAt stage o) →
      At pair (step env w (.receive pair.endHandler)) stage ∧
        Ignored pair (step env w (.receive pair.endHandler)) := by
    intro hn hkeep
    rw [e, newEvent_unmapped hends (hget.trans hn)] at hstart ⊢
    refine ⟨hat.keep (elsewhere_of_eq rfl ⟨rfl, rfl, rfl, rfl, rfl⟩) (by rw [hstart]; exact hat.start)
      (hkeep _ fun y hy => ?_),
      replyOf_eq (setHandler_handlers _ _ _) rfl⟩
    rw [World.reply, setHandler_handlers] at hy
    cases hy
    exact .inr rfl
  have hfinish := hat.finish
  rw [hx] at hfinish
  cases stage with
  | before =>
    obtain ⟨hat', hi⟩ := hignored (ite_self _) fun _ h => h
    exact ⟨⟨_, hat'⟩, iff_of_true hi (.inl (replyOf_starting hat.start))⟩
  | created c =>
    obtain ⟨hat', hi⟩ := hignored (ite_self _) fun _ h => h
    obtain ⟨xs, call, hxs, hps, -⟩ := hat.start
    exact ⟨⟨_, hat'⟩, iff_of_true hi (.inl (replyOf_waiting hxs (by rw [hps]; rfl)))⟩
  | opened c =>
    by_cases hlives : pair.entryLives w
    · rw [if_pos hlives] at hget
      obtain ⟨w₁, f, hnew, hy, hc, hk⟩ := newEvent_mapped (h := pair.endHandler) hends hget
      obtain ⟨xs, hxs, hps⟩ := hat.start
      rw [e, hnew] at hstart ⊢
      refine ⟨⟨.opened c, hat.keep (elsewhere_of_eq hc hk) (by rw [hstart]; exact hat.start)
        (.inr ⟨_, f, hy, rfl, rfl⟩)⟩, iff_of_false ?_ ?_⟩
      · unfold Ignored replyOf
        rw [hy]
        exact fun e => by cases e
      · rw [replyOf_eq hxs hps]
        exact fun h => h.elim (Option.some_ne_none _) fun h => h hlives
    · -- The entry has expired.
      obtain ⟨hat', hi⟩ := hignored (if_neg hlives) fun _ => .inl
      exact ⟨⟨_, hat'⟩, iff_of_true hi (.inr hlives)⟩
  | ending c =>
    obtain ⟨_, f, hx', hp', -⟩ := hfinish
    cases hx'
    rw [hp] at hp'; cases hp'
  | closed c =>
    obtain ⟨_, hx', hp'⟩ := hfinish
    cases hx'
    rw [hp] at hp'; cases hp'

/-- An answer reaches the end handler. -/
theorem At.end_receive (hw : PairInv pair w) (hat : At pair w stage) :
    (∃ stage', At pair (step env w (.receive pair.endHandler)) stage') ∧
      (Ignored pair (step env w (.receive pair.endHandler)) ↔
        Ignored pair w ∨ LooksInVain pair w (.receive pair.endHandler)) := by
  have hstart : (step env w (.receive pair.endHandler)).handlers pair.startHandler =
      w.handlers pair.startHandler := handlers_other rfl fun e => pair.distinct (Option.some.inj e).symm
  -- Nothing happens.
  have hidle : step env w (.receive pair.endHandler) = w →
      (∀ x, w.handlers pair.endHandler = some x → x.phase = .recording → x.answer = none) →
      (∃ stage', At pair (step env w (.receive pair.endHandler)) stage') ∧
        (Ignored pair (step env w (.receive pair.endHandler)) ↔
          Ignored pair w ∨ LooksInVain pair w (.receive pair.endHandler)) := by
    intro e hn
    rw [e]
    refine ⟨⟨stage, hat⟩, (or_iff_left ?_).symm⟩
    rintro ⟨-, ⟨x, hx, hp, ha⟩, -⟩
    exact ha (hn x hx hp)
  rcases receive_cases env w pair.endHandler with ⟨e, hn⟩ | ⟨x, answer, hx, ha⟩
  · exact hidle e fun x hx _ => hn x hx
  have e := step_receive env hx ha
  obtain ⟨hinst, hpay⟩ := hw.roles.finish hx
  have hreturned : ∀ {reply}, x.phase = .returned reply → step env w (.receive pair.endHandler) = w ∧
      ∀ x', w.handlers pair.endHandler = some x' → x'.phase = .recording → x'.answer = none := by
    intro reply hp
    refine ⟨by rw [e]; simp only [resume, hp], fun x' hx' hp' => ?_⟩
    rw [← Option.some.inj (hx.symm.trans hx'), hp] at hp'
    cases hp'
  rcases endAt_cases (hx ▸ hat.finish) with ⟨hun, -⟩ | ⟨c, f, -, -, ha'⟩ | ⟨c, f, rfl, hp, ha'⟩ | ⟨c, hp⟩
  · rcases hun x rfl with ⟨hp, hans⟩ | hp
    · obtain rfl := hans answer ha
      obtain ⟨hstage, hi⟩ := hat.look hw hx hp ha
      have hnot : ¬ Ignored pair w := by
        unfold Ignored
        rw [replyOf_waiting hx (by rw [hp]; rfl)]
        exact fun e => by cases e
      refine ⟨hstage, hi.trans ((or_iff_right hnot).trans ?_).symm⟩
      exact ⟨fun h => h.2.2, fun h => ⟨rfl, ⟨x, hx, hp, by rw [ha]; exact Option.some_ne_none _⟩, h⟩⟩
    · exact hidle (hreturned hp).1 (hreturned hp).2
  · rw [ha'] at ha; cases ha
  · obtain rfl : answer = .finalized := Option.some.inj (ha.symm.trans ha')
    simp only [resume, hp] at e
    rw [sessionClean_only] at e
    rw [e] at hstart ⊢
    refine ⟨⟨_, hat.close hstart (setHandler_handlers _ _ _) rfl rfl ?_ ?_⟩, iff_of_false ?_ ?_⟩
    · rw [← hinst, Pair.sid, ← pair.same, ← hpay]; rfl
    · rw [← hinst]; rfl
    · unfold Ignored
      rw [World.reply, replyOf_eq (setHandler_handlers _ _ _) rfl]
      exact fun e => by cases e
    · rintro (hi | ⟨-, ⟨x', hx', hp', -⟩, -⟩)
      · unfold Ignored at hi
        rw [replyOf_waiting hx (by rw [hp]; rfl)] at hi
        cases hi
      · rw [← Option.some.inj (hx.symm.trans hx'), hp] at hp'
        cases hp'
  · exact hidle (hreturned hp).1 (hreturned hp).2

/-! ## Whole runs -/

theorem At.start_deliver (hat : At pair w stage) (inst : Nat) (payload : ExotelCallback) :
    At pair (step env w (.deliver pair.startHandler inst payload)) stage := by
  have hfinish : (step env w (.deliver pair.startHandler inst payload)).handlers pair.endHandler =
      w.handlers pair.endHandler := handlers_other rfl fun e => pair.distinct (Option.some.inj e)
  cases hx : w.handlers pair.startHandler with
  | some x => simpa only [step, hx] using hat
  | none =>
    obtain rfl := startAt_of_none (hx ▸ hat.start)
    simp only [step, hx] at hfinish ⊢
    refine hat.keep (elsewhere_of_eq rfl ⟨rfl, rfl, rfl, rfl, rfl⟩) ?_ (by rw [hfinish]; exact hat.finish)
    intro y hy
    rw [setHandler_handlers] at hy
    cases hy
    exact .recording rfl fun _ e => by cases e

theorem At.end_deliver (hat : At pair w stage) (inst : Nat) (payload : ExotelCallback) :
    At pair (step env w (.deliver pair.endHandler inst payload)) stage := by
  have hstart : (step env w (.deliver pair.endHandler inst payload)).handlers pair.startHandler =
      w.handlers pair.startHandler := handlers_other rfl fun e => pair.distinct (Option.some.inj e).symm
  cases hx : w.handlers pair.endHandler with
  | some x => simpa only [step, hx] using hat
  | none =>
    simp only [step, hx] at hstart ⊢
    refine hat.keep (elsewhere_of_eq rfl ⟨rfl, rfl, rfl, rfl, rfl⟩) (by rw [hstart]; exact hat.start)
      (endAt_of_none (hx ▸ hat.finish) fun y hy => ?_)
    rw [setHandler_handlers] at hy
    cases hy
    exact .inl ⟨rfl, fun _ e => by cases e⟩

/-- A step of a run of the pair: the call is at some stage after it, and the end
event has been ignored if it was before, or now looks for the mapping in vain. -/
theorem At.step (hw : PairInv pair w) (hat : At pair w stage) (ha : pair.allows a = true) :
    (∃ stage', At pair (step env w a) stage') ∧
      (Ignored pair (step env w a) ↔ Ignored pair w ∨ LooksInVain pair w a) := by
  have hwork := isWorking_of_allows ha
  by_cases hrec : a = .receive pair.endHandler
  · subst hrec
    exact hat.end_receive hw
  refine ⟨?_, ?_⟩
  · by_cases htick : ∃ d, a = .tick d
    · obtain ⟨d, rfl⟩ := htick
      exact ⟨stage, hat.tick d⟩
    by_cases hs : handlerOf a = some pair.startHandler
    · cases a with
      | deliver h inst payload =>
        obtain rfl : h = pair.startHandler := Option.some.inj hs
        exact ⟨stage, hat.start_deliver inst payload⟩
      | serve h session =>
        obtain rfl : h = pair.startHandler := Option.some.inj hs
        exact hat.start_serve hw session
      | receive h =>
        obtain rfl : h = pair.startHandler := Option.some.inj hs
        exact hat.start_receive hw
      | fail h => cases hwork
      | tick d => cases hs
      | restart inst => cases hs
    · by_cases he : handlerOf a = some pair.endHandler
      · cases a with
        | deliver h inst payload =>
          obtain rfl : h = pair.endHandler := Option.some.inj he
          exact ⟨stage, hat.end_deliver inst payload⟩
        | serve h session =>
          obtain rfl : h = pair.endHandler := Option.some.inj he
          exact hat.end_serve hw session
        | receive h => exact absurd (congrArg Action.receive (Option.some.inj he)) hrec
        | fail h => cases hwork
        | tick d => cases he
        | restart inst => cases he
      · exact ⟨stage, hat.other hw ha (fun d e => htick ⟨d, e⟩) hs he⟩
  · unfold Ignored
    rw [replyOf_of_ne_receive hwork hrec]
    exact (or_iff_left fun h => hrec h.1).symm

theorem at_init (pair : Pair env) (now : Time) : At pair (.init now) .before where
  rows := iff_of_false (fun ⟨_, h, _⟩ => absurd h List.not_mem_nil) nofun
  active := iff_of_false (fun ⟨_, h, _⟩ => absurd h List.not_mem_nil) nofun
  entries _ := (ite_self _).symm
  sessions h := by cases h
  start _ h := by cases h
  finish _ h := by cases h

/-- No call of the `CallSid` is active, and there is no session of a call of it
and no entry for it. -/
def Closed (pair : Pair env) (w : World) : Prop :=
  (∀ r, ¬ ActiveFor w pair.sid r) ∧ (∀ place, w.store place pair.sid = none) ∧
    ∀ c, RowOf w pair.sid c → ∀ place, w.sessions place c = none

/-- The end event has been ignored, and one call of the `CallSid` is active, with
its session and, until it expires, its entry. -/
def StaysOpen (pair : Pair env) (w : World) : Prop :=
  replyOf w pair.endHandler = some (.ok .ignored "") ∧
    ∃ r, (∀ r', ActiveFor w pair.sid r' ↔ r' = r) ∧
      (pair.entryLives w → w.storeGet env pair.inst pair.sid = some r.callId) ∧
      (w.sessionGet env pair.inst r.callId).2 ≠ none

theorem At.staysOpen {c : CallId} (hw : PairInv pair w) (hat : At pair w (.opened c)) (hi : Ignored pair w) :
    StaysOpen pair w := by
  obtain ⟨r, hr⟩ := hat.active.mpr rfl
  have hid : ∀ {r}, ActiveFor w pair.sid r → c = r.callId := fun hr => Option.some.inj (hat.rows.mp hr.rowOf)
  refine ⟨hi, r, fun r' => ⟨fun hr' => ?_, fun e => e ▸ hr⟩, fun hlives => ?_, ?_⟩
  · exact Table.eq_of_key_eq hr'.1 hr.1 ((hid hr').symm.trans (hid hr))
  · rw [hat.storeGet hw, if_pos hlives, ← hid hr]; rfl
  · rw [← hid hr, ne_eq, sessionGet_eq_none_iff]
    exact fun h => (hat.sessions rfl _).mpr ⟨rfl, .inl rfl, nofun⟩ (h _ (.inl rfl))

theorem At.isClosed {c : CallId} (hat : At pair w (.closed c)) : Closed pair w := by
  refine ⟨fun r hr => (nomatch hat.active.mp ⟨r, hr⟩), fun place => ?_, fun k hk place => ?_⟩
  · rw [hat.entries]
    split <;> rfl
  · exact not_not.mp fun h => nomatch ((hat.sessions (hat.rows.mp hk) place).mp h).1

/-- When both handlers have returned, the call is open and the end event was
ignored, or it is closed. -/
theorem At.returned (hw : PairInv pair w) (hat : At pair w stage) (hs : replyOf w pair.startHandler ≠ none)
    (he : replyOf w pair.endHandler ≠ none) :
    Ignored pair w ∧ StaysOpen pair w ∨ ¬ Ignored pair w ∧ Closed pair w := by
  have hfinalizing : ∀ {x c f}, w.handlers pair.endHandler = some x → x.phase ≠ .finalizing c f :=
    fun hx hp => he (replyOf_waiting hx (by rw [hp]; rfl))
  cases stage with
  | before => exact absurd (replyOf_starting hat.start) hs
  | created c =>
    obtain ⟨x, call, hx, hp, -⟩ := hat.start
    exact absurd (replyOf_waiting hx (by rw [hp]; rfl)) hs
  | opened c =>
    rcases hat.finish with hun | ⟨x, f, hx, hp, -⟩
    · cases hx : w.handlers pair.endHandler with
      | none => exact absurd (by unfold replyOf; rw [hx]; rfl) he
      | some x =>
        rcases hun x hx with ⟨hp, -⟩ | hp
        · exact absurd (replyOf_waiting hx (by rw [hp]; rfl)) he
        · exact .inl ⟨replyOf_eq hx hp, hat.staysOpen hw (replyOf_eq hx hp)⟩
    · exact absurd hp (hfinalizing hx)
  | ending c =>
    obtain ⟨x, f, hx, hp, -⟩ := hat.finish
    exact absurd hp (hfinalizing hx)
  | closed c =>
    obtain ⟨x, hx, hp⟩ := hat.finish
    refine .inr ⟨fun hi => ?_, hat.isClosed⟩
    unfold Ignored at hi
    rw [replyOf_eq hx hp] at hi
    cases hi

/-- A start event and an end event. A provider call receives one start event and
one end event, at one process, while every dependency works, in any order, with
the two handlers and those of any other callbacks interleaved in any way. Once
both handlers have returned: if, when the end handler looked for the mapping,
the start handler had returned and the entry had not expired, then no call of
the `CallSid` is active, it has no entry, and its call no session; if not, the
end event has been ignored, and the call stays active, with its session and,
until it expires, its entry. -/
theorem start_and_end (pair : Pair env) (now : Time) (as : List (PairAction pair))
    (hs : replyOf (run (pairStep pair) (.init now) as) pair.startHandler ≠ none)
    (he : replyOf (run (pairStep pair) (.init now) as) pair.endHandler ≠ none) :
    (AllSteps (pairStep pair) (fun w a => ¬ LooksInVain pair w a.1) (.init now) as →
      Closed pair (run (pairStep pair) (.init now) as)) ∧
    (¬ AllSteps (pairStep pair) (fun w a => ¬ LooksInVain pair w a.1) (.init now) as →
      StaysOpen pair (run (pairStep pair) (.init now) as)) := by
  have hinit : PairInv pair (.init now) ∧ ∃ stage, At pair (.init now) stage :=
    ⟨pairInv_init pair now, .before, at_init pair now⟩
  have hkeep : ∀ w (a : PairAction pair), PairInv pair w ∧ (∃ stage, At pair w stage) →
      PairInv pair (pairStep pair w a) ∧ ∃ stage, At pair (pairStep pair w a) stage :=
    fun w a ⟨hw, stage, hat⟩ => ⟨pairInv_step hw a.2, (hat.step hw a.2).1⟩
  obtain ⟨hw, stage, hat⟩ := run_inv (I := fun w => PairInv pair w ∧ ∃ stage, At pair w stage) hinit hkeep as
  have hearly := run_iff_not_allSteps (P := Ignored pair) hinit (fun h => by cases h) hkeep
    (fun w a ⟨hw, stage, hat⟩ => (hat.step hw a.2).2) as
  rcases hat.returned hw hs he with ⟨hi, hopen⟩ | ⟨hi, hclosed⟩
  · exact ⟨fun h => absurd h (hearly.mp hi), fun _ => hopen⟩
  · exact ⟨fun _ => hclosed, fun h => absurd (hearly.mpr h) hi⟩

/-! ## Both orders -/

/-- `Start` and `completed` of `CA1`. -/
def startAndCompleted : Pair (oneRoute true) where
  inst := 0
  startHandler := 0
  endHandler := 1
  start := startCallback
  finish := completedCallback
  distinct := by decide
  same := rfl
  starts := by decide
  routed := ⟨_, "+919", ("tenant", "agent"), rfl, by decide, by decide⟩
  ends := by decide

/-- The actions of a list that a run of the pair can have. -/
def Pair.actions (pair : Pair env) (as : List Action) : List (PairAction pair) :=
  as.filterMap fun a => if h : pair.allows a = true then some ⟨a, h⟩ else none

/-- The world after `Start` and then `completed`. -/
def startFirst : World :=
  run (pairStep startAndCompleted) (.init 0)
    (startAndCompleted.actions (handled 0 startCallback ++ handled 1 completedCallback))

/-- The world after `completed` and then `Start`. -/
def endFirst : World :=
  run (pairStep startAndCompleted) (.init 0)
    (startAndCompleted.actions (handled 1 completedCallback ++ handled 0 startCallback))

/-- `Start`, and `completed` when the entry has just expired. -/
def lateEnd : List Action := handled 0 startCallback ++ .tick 86400000001 :: handled 1 completedCallback

/-- The world after them. -/
def endLate : World := run (pairStep startAndCompleted) (.init 0) (startAndCompleted.actions lateEnd)

/-- `Start` at one process and then `completed` at another. -/
def twoProcesses : World :=
  run (step (oneRoute true)) (.init 0) (handled 0 startCallback ++ delivery 1 1 completedCallback fun _ => none)

theorem start_and_end_in_order :
    replyOf startFirst 0 = some (.ok .sessionStarted "uu") ∧
      replyOf startFirst 1 = some (.ok .sessionCleaned "uu") ∧ Closed startAndCompleted startFirst := by
  have hs : replyOf startFirst 0 = some (.ok .sessionStarted "uu") := by decide
  have he : replyOf startFirst 1 = some (.ok .sessionCleaned "uu") := by decide
  have hboth := start_and_end startAndCompleted 0
    (startAndCompleted.actions (handled 0 startCallback ++ handled 1 completedCallback))
    (fun e => nomatch hs.symm.trans e) (fun e => nomatch he.symm.trans e)
  refine ⟨hs, he, hboth.1 ?_⟩
  by_contra hn
  exact nomatch he.symm.trans (hboth.2 hn).1

/-- An end event that comes first is ignored, and the call stays active, with its
session and its entry; so is one that comes when the entry has expired; an end
event at another process than its start event leaves the session in the memory of
the first. -/
theorem start_and_end_do_not_commute :
    (replyOf endFirst 0 = some (.ok .sessionStarted "uuu") ∧ replyOf endFirst 1 = some (.ok .ignored "") ∧
      endFirst.calls.rows = [createdCall "uuu"] ∧ endFirst.store .redis "CA1" = some "uuu" ∧
      endFirst.sessions (.process 0) "uuu" ≠ none ∧ ¬ Closed startAndCompleted endFirst) ∧
    (replyOf endLate 0 = some (.ok .sessionStarted "uu") ∧ replyOf endLate 1 = some (.ok .ignored "") ∧
      endLate.calls.rows = [createdCall "uu"] ∧ ¬ Closed startAndCompleted endLate) ∧
    replyOf twoProcesses 1 = some (.ok .sessionCleaned "uu") ∧ twoProcesses.sessions (.process 0) "uu" ≠ none := by
  have hstore : endFirst.store .redis "CA1" = some "uuu" := by decide
  have hrows : endLate.calls.rows = [createdCall "uu"] := by decide
  refine ⟨⟨by decide, by decide, by decide, hstore, by decide, fun h => ?_⟩,
    ⟨by decide, by decide, hrows, fun h => ?_⟩, by decide, by decide⟩
  · exact nomatch hstore.symm.trans (h.2.1 .redis)
  · exact h.1 (createdCall "uu") ⟨hrows ▸ List.mem_singleton_self _, rfl, rfl⟩

end CallingAgent.Proof.Gateway
