import CallingAgent.Proof.Gateway.StartEnd
import CallingAgent.Spec.ProviderCall
import Mathlib.Logic.Equiv.Basic

/-!
# A provider call among others

A provider call whose start event is handled before its end event arrives has the
life of `Spec.ProviderCall`, whatever callbacks of other calls are handled
meanwhile: `Shows` says what the tables, the store, the sessions and the two
handlers have of it at each point, a step of its handlers is a move of its life
(`Shows.step`), and every other step changes nothing of it (`Shows.other`), but
that in Redis its entry and its session expire (`Shows.tick`). So a run leaves of
the call what the steps of its own two handlers leave, but for its id
(`calls_do_not_interfere`), as long as the end handler looks for the entry in its
time (`InTime`).
-/

namespace CallingAgent.Proof.Gateway

open CallingAgent.Framework CallingAgent.Impl CallingAgent.Impl.Calls CallingAgent.Impl.Exotel
open CallingAgent.Spec.ProviderCall

variable {env : Env} {w w' : World} {a : Action} {p : String}

/-! ## What there is of a `CallSid` -/

/-- The calls of `p`. -/
def callsOf (w : World) (p : String) : List Call := w.calls.rows.filter fun r => r.providerCallId = some p

/-- The requests to create or finalize a call of `p`, latest first. -/
def sentOf (w : World) (p : String) : List (Nat × String × String) := w.sent.filter fun e => e.2.1 = p

theorem mem_callsOf {r : Call} : r ∈ callsOf w p ↔ r ∈ w.calls.rows ∧ r.providerCallId = some p := by
  unfold callsOf
  rw [List.mem_filter, decide_eq_true_iff]

theorem callsOf_created {call : CallCreateRequest} {calls : CallTable}
    (hi : w.calls.insert (newCall call) = some calls) (hc : w'.calls = calls) :
    callsOf w' p = callsOf w p ++ if call.providerCallId = some p then [newCall call] else [] := by
  unfold callsOf
  rw [hc, (Table.insert_eq_some hi).2, List.filter_append, List.filter_singleton]
  congr 1
  by_cases hp : call.providerCallId = some p
  · rw [if_pos hp, show decide ((newCall call).providerCallId = some p) = true from decide_eq_true hp,
      Bool.cond_true]
  · rw [if_neg hp, show decide ((newCall call).providerCallId = some p) = false from decide_eq_false hp,
      Bool.cond_false]

theorem callsOf_finalized {k : CallId} {f : FinalizeRequest} (hc : w'.calls = w.calls.update (finalizeStmt k f)) :
    callsOf w' p = (callsOf w p).map (finalizeStmt k f).row := by
  have hrow : ∀ r : Call, ((finalizeStmt k f).row r).providerCallId = r.providerCallId := fun r => by
    rcases (finalizeStmt k f).row_cases r with e | ⟨-, e⟩
    · rw [e]
    · rw [e]; rfl
  unfold callsOf
  rw [hc]
  show (w.calls.rows.map (finalizeStmt k f).row).filter _ = _
  rw [List.filter_map]
  congr 2
  funext r
  show decide (((finalizeStmt k f).row r).providerCallId = some p) = _
  rw [hrow]

theorem sentOf_own {h : Nat} (payload : ExotelCallback) (hp : payload.providerCallId = p)
    (hs : w'.sent = (h, eventKey env payload) :: w.sent) :
    sentOf w' p = (h, eventKey env payload) :: sentOf w p := by
  unfold sentOf
  rw [hs]
  exact List.filter_cons_of_pos (decide_eq_true hp)

theorem sentOf_other {h : Nat} {payload : ExotelCallback} (hp : payload.providerCallId ≠ p)
    (hs : w'.sent = (h, eventKey env payload) :: w.sent) : sentOf w' p = sentOf w p := by
  unfold sentOf
  rw [hs]
  exact List.filter_cons_of_neg fun e => hp (of_decide_eq_true e)

/-- What a place has been given at `since` is there at `now`, Redis keeping it for
`ttl`. -/
def Kept (place : Place) (ttl since now : Time) : Prop := place = .redis → now ≤ since + ttl

instance (place : Place) (ttl since now : Time) : Decidable (Kept place ttl since now) :=
  inferInstanceAs (Decidable (_ → _))

/-- What is there of a value given at `since`, if any. -/
def kept (place : Place) (ttl now : Time) (since : Option Time) : Option Time :=
  since.filter fun since => Kept place ttl since now

theorem kept_some_of {place : Place} {ttl since now : Time} (h : Kept place ttl since now) :
    kept place ttl now (some since) = some since :=
  Option.filter_some_pos (decide_eq_true h)

theorem providerCallTtl_nonneg : 0 ≤ providerCallTtl := by decide

theorem sessionTtl_nonneg : 0 ≤ sessionTtl := by decide

theorem kept_now (place : Place) {ttl : Time} (h : 0 ≤ ttl) (now : Time) :
    kept place ttl now (some now) = some now :=
  kept_some_of fun _ => Int.le_add_of_nonneg_right h

theorem kept_none (place : Place) (ttl now : Time) : kept place ttl now none = none := rfl

/-- After a tick, what Redis has had for too long is gone. -/
theorem kept_tick {α : Type} {place : Place} {ttl now deadline : Time} {since : Option Time} (d : Nat)
    (h : ∀ {t}, since = some t → place = .redis → deadline = t + ttl) (f : Time → α) :
    (if place = .redis ∧ deadline < now + d then none else (kept place ttl now since).map f) =
      (kept place ttl (now + d) since).map f := by
  cases since with
  | none => simp only [kept_none, Option.map_none, ite_self]
  | some since =>
    replace h := h rfl
    by_cases hgone : place = .redis ∧ deadline < now + d
    · have hnot : ¬ Kept place ttl since (now + d) := fun hk => by
        exact Int.not_lt.mpr (hk hgone.1) (h hgone.1 ▸ hgone.2)
      rw [if_pos hgone, kept, Option.filter_some_neg (by simpa using hnot)]
      rfl
    · have hlater : Kept place ttl since (now + d) := fun hpl => by
        have := h hpl
        exact this ▸ Int.not_lt.mp fun hlt => hgone ⟨hpl, hlt⟩
      have hnow : Kept place ttl since now := fun hpl =>
        Int.le_trans (Int.le_add_of_nonneg_right (Int.natCast_nonneg d)) (hlater hpl)
      rw [if_neg hgone, kept_some_of hlater, kept_some_of hnow]

theorem if_kept {α : Type} (p : Prop) [Decidable p] (place : Place) (ttl since now : Time) (f : Time → α) :
    (if p then (kept place ttl now (some since)).map f else none) =
      if p ∧ Kept place ttl since now then some (f since) else none := by
  by_cases hk : Kept place ttl since now
  · rw [kept_some_of hk, if_congr (and_iff_left hk) rfl rfl]
    rfl
  · rw [kept, Option.filter_some_neg (by simpa using hk)]
    exact (ite_self _).trans (if_neg fun h => hk h.2).symm

/-- The entry for `p`, kept at one place, after it has been written there. -/
theorem store_written {place₀ : Place} {entry : Place → Option CallId} {entry' : Option CallId} {p' : String}
    (he : ∀ place, w.store place p = if place = place₀ then entry place else none) (hp : p' = p) (place : Place) :
    (w.storePut place₀ p' entry').store place p = if place = place₀ then entry' else none := by
  rw [storePut_store, he place]
  by_cases hpl : place = place₀
  · rw [if_pos ⟨hpl, hp.symm⟩, if_pos hpl]
  · rw [if_neg fun h => hpl h.1, if_neg hpl, if_neg hpl]

/-- The session of `c`, kept where a process keeps sessions, after it has been
written there. -/
theorem sessions_written {inst : Nat} {c : CallId} {session : Place → Option Session} {session' : Option Session}
    {f : Place → Option Session}
    (hs : ∀ place, w.sessions place c = if Keeps env inst place then session place else none)
    (hf : ∀ place, f place = if Keeps env inst place ∧ c = c then session' else w.sessions place c) (place : Place) :
    f place = if Keeps env inst place then session' else none := by
  rw [hf, hs]
  by_cases hk : Keeps env inst place
  · rw [if_pos ⟨hk, rfl⟩, if_pos hk]
  · rw [if_neg fun h => hk h.1, if_neg hk, if_neg hk]

/-- A step of a handler of another `CallSid`, or of no start or end event. -/
theorem elsewhere_rows (hm : Mapping env w) (hw : Provider env w) (hwork : isWorking a = true)
    (ha : ∀ {h x}, handlerOf a = some h → w.handlers h = some x →
      env.eventType x.payload ∈ startEvents ∨ env.eventType x.payload ∈ endEvents →
      x.payload.providerCallId ≠ p) :
    callsOf (step env w a) p = callsOf w p ∧ sentOf (step env w a) p = sentOf w p := by
  have hs := gStep env w a
  generalize step env w a = w' at hs
  cases hs with
  | @serve h session x _ _ _ hx hr hs =>
    have hphase := (hm.creates hx).awaits hr
    cases hs with
    | @created call calls hi =>
      have hne := ha rfl hx (.inl ((hw.handlers hx).creating hphase))
      refine ⟨(callsOf_created hi rfl).trans ?_, rfl⟩
      rw [if_neg fun e => hne (Option.some.inj (((hm.creates hx).own hphase).symm.trans e)), List.append_nil]
    | @finalized k f r hl =>
      obtain ⟨he, hk⟩ := (hw.handlers hx).finalizing hphase
      refine ⟨(callsOf_finalized rfl).trans ?_, rfl⟩
      -- The finalized call is of another `CallSid`.
      refine (List.map_congr_left fun r hr => Update.row_of_not_guard ?_).trans (List.map_id' _)
      obtain ⟨hr, hp⟩ := mem_callsOf.mp hr
      refine beq_false_of_ne fun e => ha rfl hx (.inr he) (hk.unique ?_)
      exact ⟨r, hr, e, hp⟩
    | _ => exact ⟨rfl, rfl⟩
  | create hx hp => exact ⟨rfl, sentOf_other (ha rfl hx (.inl ((hw.handlers hx).resolving hp))) rfl⟩
  | finalize hx _ _ he => exact ⟨rfl, sentOf_other (ha rfl hx (.inr he)) rfl⟩
  | restart => cases hwork
  | _ => exact ⟨rfl, rfl⟩

/-! ## The pair and its life -/

/-- Whom a handler of the pair serves. -/
def Pair.event (pair : Pair env) (h : Nat) : Option Event :=
  if h = pair.startHandler then some .start
  else if h = pair.endHandler then some .finish
  else none

/-- The move that an action makes in the life of the call. -/
def Pair.move (pair : Pair env) : Action → Option Move
  | .deliver h _ _ => (pair.event h).map .arrives
  | .serve h _ => (pair.event h).map .answered
  | .receive h => (pair.event h).map .goesOn
  | _ => none

/-- The clock and the handlers of the pair. -/
def Pair.concerns (pair : Pair env) : Action → Bool
  | .tick _ => true
  | a => (pair.move a).isSome

/-- The end event arrives only when the start event has been handled. -/
def InOrder (pair : Pair env) (w : World) : Action → Prop
  | .deliver h _ _ => h = pair.endHandler → replyOf w pair.startHandler ≠ none
  | _ => True

/-- The end handler looks for the mapping before it expires. -/
def InTime (pair : Pair env) (w : World) : Action → Prop
  | .receive h => h = pair.endHandler →
      (∃ x, w.handlers h = some x ∧ x.phase = .recording ∧ x.answer ≠ none) → pair.entryLives w
  | _ => True

/-- The same, of the point in the life of the call at which it does. -/
def looksInTime (env : Env) (now : Time) : Life → Prop
  | .recordingEnd _ openedAt true => env.redis = true → now ≤ openedAt + providerCallTtl
  | _ => True

/-- What the end handler asks for. -/
def Pair.finalization (pair : Pair env) (endedAt : Time) : FinalizeRequest := ⟨endedAt, env.endReason pair.finish⟩

/-- The requests to create and to finalize the call. -/
def Pair.sentAt (pair : Pair env) : Life → List (Nat × String × String)
  | .creating _ _ | .opened _ _ | .recordingEnd _ _ _ => [(pair.startHandler, eventKey env pair.start)]
  | .finalizing _ _ _ _ | .closed _ _ =>
    [(pair.endHandler, eventKey env pair.finish), (pair.startHandler, eventKey env pair.start)]
  | _ => []

/-- A handler of the pair with its request under way, or answered. -/
def Pair.waiting (pair : Pair env) (payload : ExotelCallback) (phase : Phase) (request : ApiRequest)
    (answer : ApiAnswer) : Bool → Handler
  | false => ⟨pair.inst, payload, phase, some request, none⟩
  | true => ⟨pair.inst, payload, phase, none, some answer⟩

/-- The end handler. -/
def Pair.endAt (pair : Pair env) (c : CallId) : Life → Option Handler
  | .recordingEnd _ _ answered =>
    some (pair.waiting pair.finish .recording (.record (env.recordBody pair.finish)) (.recorded false) answered)
  | .finalizing _ _ endedAt answered =>
    some (pair.waiting pair.finish (.finalizing c (pair.finalization endedAt))
      (.finalize c (pair.finalization endedAt)) .finalized answered)
  | .closed _ _ => some ⟨pair.inst, pair.finish, .returned (.ok .sessionCleaned c), none, none⟩
  | _ => none

/-- Where the dialed number leads. -/
structure Route (pair : Pair env) where
  number : String
  tenantId : String
  agentId : String
  number_eq : pair.start.number = some number
  routes : (env.routing.bind fun routes => routes number) = some (tenantId, agentId)

theorem Pair.exists_route (pair : Pair env) : Nonempty (Route pair) := by
  obtain ⟨routes, number, ⟨tenantId, agentId⟩, hr, hn, hd⟩ := pair.routed
  exact ⟨⟨number, tenantId, agentId, hn, by rw [hr]; exact hd⟩⟩

namespace Route

variable {pair : Pair env} (route : Route pair) (c : CallId)

/-- The call that the start handler creates. -/
def call (startedAt : Time) : CallCreateRequest where
  callId := c
  tenantId := route.tenantId
  agentId := route.agentId
  startedAt := startedAt
  providerCallId := some pair.sid

def session (openedAt : Time) : Session := ⟨c, route.tenantId, route.agentId, openedAt, .active⟩

/-- The row of the call, which has ended or not. -/
def row (startedAt : Time) : Option Time → Call
  | none => newCall (route.call c startedAt)
  | some endedAt => (finalizeStmt c (pair.finalization endedAt)).set (newCall (route.call c startedAt))

theorem row_callId (startedAt : Time) (endedAt : Option Time) : (route.row c startedAt endedAt).callId = c := by
  cases endedAt <;> rfl

/-- The start handler. -/
def startAt : Life → Option Handler
  | .unknown => none
  | .recordingStart answered =>
    some (pair.waiting pair.start .recording (.record (env.recordBody pair.start)) (.recorded false) answered)
  | .resolving answered =>
    some (pair.waiting pair.start (.resolving route.number) (.resolve route.number)
      (.resolved route.tenantId route.agentId) answered)
  | .creating startedAt answered =>
    some (pair.waiting pair.start (.creating (route.call c startedAt)) (.create (route.call c startedAt))
      .created answered)
  | _ => some ⟨pair.inst, pair.start, .returned (.ok .sessionStarted c), none, none⟩

end Route

/-- What there is of the call, with the id `c`, at a point of its life. -/
structure Shows {pair : Pair env} (route : Route pair) (c : CallId) (life : Life) (w : World) : Prop where
  start : w.handlers pair.startHandler = route.startAt c life
  finish : w.handlers pair.endHandler = pair.endAt c life
  rows : callsOf w pair.sid = (life.startedAt.map fun startedAt => route.row c startedAt life.endedAt).toList
  entries : ∀ place, w.store place pair.sid =
    if place = env.place pair.inst then (kept place providerCallTtl w.now life.openedAt).map fun _ => c else none
  sessions : life.startedAt ≠ none → ∀ place, w.sessions place c =
    if Keeps env pair.inst place then (kept place sessionTtl w.now life.openedAt).map (route.session c) else none
  times : ∀ {openedAt}, life.openedAt = some openedAt → env.redis = true →
    w.storeUntil pair.sid = openedAt + providerCallTtl ∧ w.sessionsUntil c = openedAt + sessionTtl
  sent : sentOf w pair.sid = pair.sentAt life

variable {pair : Pair env} {route : Route pair} {c : CallId} {life : Life} {h : Nat}

/-! ## The steps of others -/

theorem Pair.not_of_move (hwork : isWorking a = true) (hm : pair.move a = none) :
    handlerOf a ≠ some pair.startHandler ∧ handlerOf a ≠ some pair.endHandler := by
  have hevent : ∀ {h}, pair.event h = none → some h ≠ some pair.startHandler ∧ some h ≠ some pair.endHandler := by
    intro h e
    unfold Pair.event at e
    split_ifs at e with hs he
    exact ⟨fun e => hs (Option.some.inj e), fun e => he (Option.some.inj e)⟩
  cases a with
  | deliver h inst payload => exact hevent (Option.map_eq_none_iff.mp hm)
  | serve h session => exact hevent (Option.map_eq_none_iff.mp hm)
  | receive h => exact hevent (Option.map_eq_none_iff.mp hm)
  | tick d => exact ⟨nofun, nofun⟩
  | fail h => cases hwork
  | restart inst => cases hwork

/-- Once the call is created, its row has its id. -/
theorem Shows.rowOf (hat : Shows route c life w) (hne : life.startedAt ≠ none) : RowOf w pair.sid c := by
  obtain ⟨startedAt, hs⟩ := Option.ne_none_iff_exists'.mp hne
  have hr : route.row c startedAt life.endedAt ∈ callsOf w pair.sid := by
    rw [hat.rows, hs]
    exact List.mem_singleton_self _
  obtain ⟨hm, hp⟩ := mem_callsOf.mp hr
  exact ⟨_, hm, route.row_callId c _ _, hp⟩

theorem redis_of_place {inst : Nat} (h : env.place inst = .redis) : env.redis = true := by
  by_contra hr
  exact nomatch (if_neg hr).symm.trans h

theorem redis_of_keeps {inst : Nat} (h : Keeps env inst .redis) : env.redis = true :=
  (h.resolve_left fun e => by cases e).1

/-- A life that has a session has a row. -/
theorem Life.startedAt_ne_none {openedAt : Time} (h : life.openedAt = some openedAt) : life.startedAt ≠ none := by
  cases life with
  | opened | recordingEnd | finalizing => exact Option.some_ne_none _
  | _ => cases h

theorem Shows.tick (hat : Shows route c life w) (d : Nat) : Shows route c life (w.tick d) where
  start := hat.start
  finish := hat.finish
  rows := hat.rows
  entries place := by
    have hstore : (w.tick d).store place pair.sid =
        if place = .redis ∧ w.storeUntil pair.sid < w.now + d then none else w.store place pair.sid := rfl
    rw [hstore, hat.entries]
    by_cases hpl : place = env.place pair.inst
    · rw [if_pos hpl, if_pos hpl]
      exact kept_tick d (fun ho h => (hat.times ho (redis_of_place (hpl ▸ h))).1) _
    · rw [if_neg hpl, if_neg hpl, ite_self]
  sessions hne place := by
    have hsessions : (w.tick d).sessions place c =
        if place = .redis ∧ w.sessionsUntil c < w.now + d then none else w.sessions place c := rfl
    rw [hsessions, hat.sessions hne]
    by_cases hk : Keeps env pair.inst place
    · rw [if_pos hk, if_pos hk]
      exact kept_tick d (fun ho h => (hat.times ho (redis_of_keeps (h ▸ hk))).2) _
    · rw [if_neg hk, if_neg hk, ite_self]
  times := hat.times
  sent := hat.sent

theorem Shows.other (hw : PairInv pair w) (hat : Shows route c life w) (ha : pair.allows a = true)
    (hm : pair.move a = none) : Shows route c life (step env w a) := by
  by_cases htick : ∃ d, a = .tick d
  · obtain ⟨d, rfl⟩ := htick
    exact hat.tick d
  have hwork := isWorking_of_allows ha
  obtain ⟨hs, he⟩ := Pair.not_of_move hwork hm
  have hothers : ∀ {h x}, handlerOf a = some h → w.handlers h = some x →
      env.eventType x.payload ∈ startEvents ∨ env.eventType x.payload ∈ endEvents →
      x.payload.providerCallId ≠ pair.sid := fun hh hx hev =>
    hw.roles.other hx (fun e => hs (e ▸ hh)) (fun e => he (e ▸ hh)) hev
  have helse := elsewhere_step hw.mapping hw.provider hwork (fun d e => htick ⟨d, e⟩) hothers
  obtain ⟨hrows, hsent⟩ := elsewhere_rows hw.mapping hw.provider hwork hothers
  exact
    { start := (handlers_other hwork hs).trans hat.start
      finish := (handlers_other hwork he).trans hat.finish
      rows := hrows.trans hat.rows
      entries := fun place => by rw [helse.entries, helse.now]; exact hat.entries place
      sessions := fun hne place => by rw [helse.sessions (hat.rowOf hne), helse.now]; exact hat.sessions hne place
      times := fun ho hr => by
        rw [helse.entriesUntil, helse.sessionsUntil (hat.rowOf (Life.startedAt_ne_none ho))]
        exact hat.times ho hr
      sent := hsent.trans hat.sent }

/-! ## The start event -/

theorem serve_idle (hn : ∀ x, w.handlers h = some x → x.request = none) (session : Tenant.Setting) :
    step env w (.serve h session) = w := by
  rcases serve_cases env w h session with e | ⟨x, request, hx, hr⟩
  · exact e
  · rw [hn x hx] at hr
    cases hr

theorem receive_idle (hn : ∀ x, w.handlers h = some x → x.answer = none) : step env w (.receive h) = w := by
  rcases receive_cases env w h with ⟨e, -⟩ | ⟨x, answer, hx, ha⟩
  · exact e
  · rw [hn x hx] at ha
    cases ha

theorem deliver_idle {x : Handler} (hx : w.handlers h = some x) (inst : Nat) (payload : ExotelCallback) :
    step env w (.deliver h inst payload) = w := by
  simp only [step, hx]

theorem Route.startAt_of_hasStarted (h : life.hasStarted = true) :
    route.startAt c life = some ⟨pair.inst, pair.start, .returned (.ok .sessionStarted c), none, none⟩ := by
  cases life with
  | opened | recordingEnd | finalizing | closed => rfl
  | _ => cases h

theorem Pair.endAt_of_not_hasStarted (h : life.hasStarted = false) : pair.endAt c life = none := by
  cases life with
  | opened | recordingEnd | finalizing | closed => cases h
  | _ => rfl

theorem Shows.arrives_start (hat : Shows route c life w) :
    Shows route c (life.step w.now (.arrives .start)) (step env w (.deliver pair.startHandler pair.inst pair.start)) := by
  cases hs : life.hasStarted with
  | true =>
    rw [deliver_idle (hat.start.trans (Route.startAt_of_hasStarted hs)),
      life.step_of_hasStarted hs _ (.arrives .start) rfl]
    exact hat
  | false =>
    cases life with
    | unknown =>
      simp only [Exotel.step, hat.start, Route.startAt]
      refine ⟨setHandler_handlers _ _ _, ?_, hat.rows, hat.entries, hat.sessions, hat.times, hat.sent⟩
      exact (Function.update_of_ne (Ne.symm pair.distinct) _ _).trans hat.finish
    | recordingStart answered | resolving answered | creating _ answered =>
      rw [deliver_idle hat.start]
      cases answered <;> exact hat
    | opened | recordingEnd | finalizing | closed => cases hs

/-- The API creates the call. -/
theorem Shows.created {startedAt : Time} (hw : PairInv pair w) (hat : Shows route c (.creating startedAt false) w)
    {calls : CallTable} (hi : w.calls.insert (newCall (route.call c startedAt)) = some calls)
    (hstart : w'.handlers pair.startHandler = route.startAt c (.creating startedAt true))
    (hfinish : w'.handlers pair.endHandler = none) (hc : w'.calls = calls) (hk : SameKeys w w')
    (hsent : w'.sent = w.sent) : Shows route c (.creating startedAt true) w' where
  start := hstart
  finish := hfinish
  rows := by
    rw [callsOf_created hi hc, hat.rows]
    exact if_pos rfl
  entries place := by
    rw [hk.store, hk.now]
    exact hat.entries place
  sessions _ place := by
    -- The id is fresh, so no session has it.
    have hnone : w.sessions place c = none := by
      by_contra h
      obtain ⟨p, r, hr, e, -⟩ := hw.provider.sessions h
      exact Table.lookup_eq_none.mp (Table.insert_eq_some hi).1 r hr e
    rw [hk.sessions, hnone]
    exact (ite_self _).symm
  times h := by cases h
  sent := by
    unfold sentOf
    rw [hsent]
    exact hat.sent

/-- The API answers the start handler. -/
theorem Shows.answered_start (hw : PairInv pair w) (hat : Shows route c life w) (session : Tenant.Setting) :
    Shows route c (life.step w.now (.answered .start)) (step env w (.serve pair.startHandler session)) := by
  have hfinish : (step env w (.serve pair.startHandler session)).handlers pair.endHandler = pair.endAt c life :=
    (handlers_other (a := .serve pair.startHandler session) rfl fun e =>
      pair.distinct (Option.some.inj e)).trans hat.finish
  have hidle : (∀ x, route.startAt c life = some x → x.request = none) →
      step env w (.serve pair.startHandler session) = w := fun hn => serve_idle (hat.start ▸ hn) session
  cases hs : life.hasStarted with
  | true =>
    rw [hidle (Route.startAt_of_hasStarted hs ▸ fun x e => by cases e; rfl),
      life.step_of_hasStarted hs _ (.answered .start) rfl]
    exact hat
  | false =>
    cases life with
    | unknown =>
      rw [hidle fun x e => by cases e]
      exact hat
    | recordingStart answered =>
      cases answered with
      | false =>
        obtain ⟨jobs, e⟩ := serve_recording hw.once hw.backed hat.start rfl (fun e => by cases e; rfl)
          (.inl pair.starts) hw.soleStart rfl session
        rw [e] at hfinish ⊢
        exact ⟨setHandler_handlers _ _ _, hfinish, hat.rows, hat.entries, hat.sessions, hat.times, hat.sent⟩
      | true =>
        rw [hidle fun x e => by cases e; rfl]
        exact hat
    | resolving answered =>
      cases answered with
      | false =>
        have e := step_serve env hat.start rfl session
        simp only [serveRequest, route.routes] at e
        rw [e] at hfinish ⊢
        exact ⟨setHandler_handlers _ _ _, hfinish, hat.rows, hat.entries, hat.sessions, hat.times, hat.sent⟩
      | true =>
        rw [hidle fun x e => by cases e; rfl]
        exact hat
    | creating startedAt answered =>
      cases answered with
      | false =>
        have e := step_serve env hat.start rfl session
        obtain ⟨calls, hi, hserve⟩ := serveRequest_create env ((hw.mapping.creates hat.start).unborn rfl rfl) session
        rw [hserve] at e
        rw [e] at hfinish ⊢
        exact hat.created hw hi (setHandler_handlers _ _ _) hfinish rfl ⟨rfl, rfl, rfl, rfl, rfl⟩ rfl
      | true =>
        rw [hidle fun x e => by cases e; rfl]
        exact hat
    | opened | recordingEnd | finalizing | closed => cases hs

/-- The start handler goes on, with the id of its call from then on. -/
theorem Shows.goesOn_start (hat : Shows route c life w) :
    ∃ c', Shows route c' (life.step w.now (.goesOn .start)) (step env w (.receive pair.startHandler)) := by
  have hfinish : (step env w (.receive pair.startHandler)).handlers pair.endHandler = pair.endAt c life :=
    (handlers_other (a := .receive pair.startHandler) rfl fun e =>
      pair.distinct (Option.some.inj e)).trans hat.finish
  have hidle : (∀ x, route.startAt c life = some x → x.answer = none) →
      step env w (.receive pair.startHandler) = w := fun hn => receive_idle (hat.start ▸ hn)
  cases hs : life.hasStarted with
  | true =>
    rw [hidle (Route.startAt_of_hasStarted hs ▸ fun x e => by cases e; rfl),
      life.step_of_hasStarted hs _ (.goesOn .start) rfl]
    exact ⟨c, hat⟩
  | false =>
    cases life with
    | unknown =>
      rw [hidle fun x e => by cases e]
      exact ⟨c, hat⟩
    | recordingStart answered =>
      cases answered with
      | false =>
        rw [hidle fun x e => by cases e; rfl]
        exact ⟨c, hat⟩
      | true =>
        obtain ⟨routes, hroutes, -⟩ := Option.bind_eq_some_iff.mp route.routes
        have e := step_receive env hat.start rfl
        simp only [resume, Pair.waiting, newEvent, if_pos pair.starts, hroutes, route.number_eq] at e
        rw [e] at hfinish ⊢
        exact ⟨c, setHandler_handlers _ _ _, hfinish, hat.rows, hat.entries, hat.sessions, hat.times, hat.sent⟩
    | resolving answered =>
      cases answered with
      | false =>
        rw [hidle fun x e => by cases e; rfl]
        exact ⟨c, hat⟩
      | true =>
        have e := step_receive env hat.start rfl
        simp only [resume, Pair.waiting] at e
        rw [e] at hfinish ⊢
        refine ⟨(env.uuid4 w.issued).1, setHandler_handlers _ _ _, hfinish, hat.rows, hat.entries,
          fun hne => absurd rfl hne, fun h => (by cases h), ?_⟩
        exact (sentOf_own pair.start rfl rfl).trans (congrArg _ hat.sent)
    | creating startedAt answered =>
      cases answered with
      | false =>
        rw [hidle fun x e => by cases e; rfl]
        exact ⟨c, hat⟩
      | true =>
        have e := step_receive env hat.start rfl
        simp only [resume, Pair.waiting] at e
        rw [sessionCreate_only] at e
        rw [e] at hfinish ⊢
        refine ⟨c, setHandler_handlers _ _ _, hfinish, hat.rows, fun place => ?_, fun hne place => ?_,
          fun ho hr => ?_, hat.sent⟩
        · refine (store_written hat.entries rfl place).trans (if_congr Iff.rfl ?_ rfl)
          exact congrArg (Option.map fun _ => c) (kept_now place providerCallTtl_nonneg w.now).symm
        · have hwritten := sessions_written (hat.sessions hne)
            (fun place => sessionCreate_sessions w env pair.inst (route.session c w.now) place c) place
          refine hwritten.trans (if_congr Iff.rfl ?_ rfl)
          exact congrArg (Option.map (route.session c)) (kept_now place sessionTtl_nonneg w.now).symm
        · cases ho
          refine ⟨(storePut_storeUntil w (env.place pair.inst) pair.sid pair.sid (some c)).trans ?_,
            (sessionCreate_sessionsUntil w env pair.inst (route.session c w.now) c).trans ?_⟩
          · exact if_pos ⟨if_pos hr, rfl⟩
          · exact if_pos ⟨hr, rfl⟩
    | opened | recordingEnd | finalizing | closed => cases hs

/-! ## The end event -/

theorem Shows.arrives_finish (hat : Shows route c life w) (hs : life.hasStarted = true) :
    Shows route c (life.step w.now (.arrives .finish)) (step env w (.deliver pair.endHandler pair.inst pair.finish)) := by
  cases life with
  | opened =>
    simp only [Exotel.step, hat.finish, Pair.endAt]
    refine ⟨?_, setHandler_handlers _ _ _, hat.rows, hat.entries, hat.sessions, hat.times, hat.sent⟩
    exact (Function.update_of_ne pair.distinct _ _).trans hat.start
  | recordingEnd _ _ answered | finalizing _ _ _ answered =>
    rw [deliver_idle hat.finish]
    cases answered <;> exact hat
  | closed =>
    rw [deliver_idle hat.finish]
    exact hat
  | _ => cases hs

/-- The API finds the call. -/
theorem Shows.lookup_of_open {startedAt : Time} (hat : Shows route c life w) (hs : life.startedAt = some startedAt)
    (he : life.endedAt = none) : w.calls.lookup c = some (newCall (route.call c startedAt)) := by
  have hmem : newCall (route.call c startedAt) ∈ callsOf w pair.sid := by
    rw [hat.rows, hs, he]
    exact List.mem_singleton_self _
  exact Table.lookup_of_mem (mem_callsOf.mp hmem).1

/-- The end handler finds the call in the store. -/
theorem Shows.storeGet (hw : PairInv pair w) (hat : Shows route c life w) {openedAt : Time}
    (ho : life.openedAt = some openedAt) (ht : env.redis = true → w.now ≤ openedAt + providerCallTtl) :
    w.storeGet env pair.inst pair.finish.providerCallId = some c := by
  obtain ⟨r, hr, rfl, -⟩ := hat.rowOf (Life.startedAt_ne_none ho)
  obtain ⟨i, -, e⟩ := hw.backed.calls r hr
  have hkept : Kept (env.place pair.inst) providerCallTtl openedAt w.now := fun hpl => ht (redis_of_place hpl)
  unfold World.storeGet
  rw [pair.same, show pair.start.providerCallId = pair.sid from rfl, hat.entries, if_pos rfl, ho, kept_some_of hkept]
  exact Option.filter_some_pos (decide_eq_true (e ▸ (env.uuid4 i).2))

/-- The API answers the end handler. -/
theorem Shows.answered_finish (hw : PairInv pair w) (hat : Shows route c life w) (session : Tenant.Setting) :
    Shows route c (life.step w.now (.answered .finish)) (step env w (.serve pair.endHandler session)) := by
  have hstart : (step env w (.serve pair.endHandler session)).handlers pair.startHandler = route.startAt c life :=
    (handlers_other (a := .serve pair.endHandler session) rfl fun e =>
      pair.distinct (Option.some.inj e).symm).trans hat.start
  have hidle : (∀ x, pair.endAt c life = some x → x.request = none) →
      step env w (.serve pair.endHandler session) = w := fun hn => serve_idle (hat.finish ▸ hn) session
  cases hs : life.hasStarted with
  | false =>
    rw [hidle (Pair.endAt_of_not_hasStarted hs ▸ fun x e => by cases e),
      life.step_of_not_hasStarted hs _ (.answered .finish) rfl]
    exact hat
  | true =>
    cases life with
    | recordingEnd startedAt openedAt answered =>
      cases answered with
      | false =>
        obtain ⟨jobs, e⟩ := serve_recording hw.once hw.backed hat.finish rfl (fun e => by cases e; rfl)
          (.inr pair.ends) hw.soleEnd rfl session
        rw [e] at hstart ⊢
        exact ⟨hstart, setHandler_handlers _ _ _, hat.rows, hat.entries, hat.sessions, hat.times, hat.sent⟩
      | true =>
        rw [hidle fun x e => by cases e; rfl]
        exact hat
    | finalizing startedAt openedAt endedAt answered =>
      cases answered with
      | false =>
        have hlookup := hat.lookup_of_open rfl rfl
        have hopen : ¬ (newCall (route.call c startedAt)).endedAt.isSome = true := Bool.false_ne_true
        have e := step_serve env hat.finish rfl session
        simp only [serveRequest, finalizeCall, hlookup, if_neg hopen] at e
        rw [e] at hstart ⊢
        refine ⟨hstart, setHandler_handlers _ _ _, ?_, hat.entries, hat.sessions, hat.times, hat.sent⟩
        rw [callsOf_finalized rfl, hat.rows]
        exact congrArg (fun r => [r]) (Update.row_of_guard (decide_eq_true rfl))
      | true =>
        rw [hidle fun x e => by cases e; rfl]
        exact hat
    | closed =>
      rw [hidle fun x e => by cases e; rfl]
      exact hat
    | opened =>
      rw [hidle fun x e => by cases e]
      exact hat
    | unknown | recordingStart | resolving | creating => cases hs

/-- The end handler goes on, and finds an entry that has not expired. -/
theorem Shows.goesOn_finish (hw : PairInv pair w) (hat : Shows route c life w) (ht : looksInTime env w.now life) :
    Shows route c (life.step w.now (.goesOn .finish)) (step env w (.receive pair.endHandler)) := by
  have hstart : (step env w (.receive pair.endHandler)).handlers pair.startHandler = route.startAt c life :=
    (handlers_other (a := .receive pair.endHandler) rfl fun e =>
      pair.distinct (Option.some.inj e).symm).trans hat.start
  have hidle : (∀ x, pair.endAt c life = some x → x.answer = none) →
      step env w (.receive pair.endHandler) = w := fun hn => receive_idle (hat.finish ▸ hn)
  cases hs : life.hasStarted with
  | false =>
    rw [hidle (Pair.endAt_of_not_hasStarted hs ▸ fun x e => by cases e),
      life.step_of_not_hasStarted hs _ (.goesOn .finish) rfl]
    exact hat
  | true =>
    cases life with
    | recordingEnd startedAt openedAt answered =>
      cases answered with
      | false =>
        rw [hidle fun x e => by cases e; rfl]
        exact hat
      | true =>
        have hget := hat.storeGet hw rfl ht
        have e := step_receive env hat.finish rfl
        simp only [resume, Pair.waiting, newEvent, if_neg (not_start_of_end pair.ends), if_pos pair.ends, hget] at e
        rw [e] at hstart ⊢
        refine ⟨hstart, setHandler_handlers _ _ _, hat.rows, hat.entries, hat.sessions, hat.times, ?_⟩
        exact (sentOf_own pair.finish pair.same rfl).trans (congrArg _ hat.sent)
    | finalizing startedAt openedAt endedAt answered =>
      cases answered with
      | false =>
        rw [hidle fun x e => by cases e; rfl]
        exact hat
      | true =>
        have e := step_receive env hat.finish rfl
        simp only [resume, Pair.waiting] at e
        rw [sessionClean_only] at e
        rw [e] at hstart ⊢
        refine ⟨hstart, setHandler_handlers _ _ _, hat.rows, fun place => ?_, fun hne place => ?_,
          fun h => (by cases h), hat.sent⟩
        · exact store_written hat.entries pair.same place
        · exact sessions_written (hat.sessions hne)
            (fun place => sessionClean_sessions w env pair.inst place c c) place
    | closed =>
      rw [hidle fun x e => by cases e; rfl]
      exact hat
    | opened =>
      rw [hidle fun x e => by cases e]
      exact hat
    | unknown | recordingStart | resolving | creating => cases hs

/-! ## Steps of the life -/

theorem Pair.event_cases {e : Event} (h' : pair.event h = some e) :
    h = pair.startHandler ∧ e = .start ∨ h = pair.endHandler ∧ e = .finish := by
  unfold Pair.event at h'
  split_ifs at h' with hs hf
  · exact .inl ⟨hs, (Option.some.inj h').symm⟩
  · exact .inr ⟨hf, (Option.some.inj h').symm⟩

/-- A step of the pair's handlers is a move. -/
theorem Shows.step (hw : PairInv pair w) (hat : Shows route c life w) (ha : pair.allows a = true) {move : Move}
    (hm : pair.move a = some move) (ho : move = .arrives .finish → life.hasStarted = true)
    (ht : move = .goesOn .finish → looksInTime env w.now life) :
    ∃ c', Shows route c' (life.step w.now move) (step env w a) := by
  cases a with
  | deliver h inst payload =>
    obtain ⟨e, he, rfl⟩ := Option.map_eq_some_iff.mp hm
    rcases Pair.event_cases he with ⟨rfl, rfl⟩ | ⟨rfl, rfl⟩
    · rw [Pair.allows, if_pos rfl] at ha
      obtain ⟨rfl, rfl⟩ := of_decide_eq_true ha
      exact ⟨c, hat.arrives_start⟩
    · rw [Pair.allows, if_neg (Ne.symm pair.distinct), if_pos rfl] at ha
      obtain ⟨rfl, rfl⟩ := of_decide_eq_true ha
      exact ⟨c, hat.arrives_finish (ho rfl)⟩
  | serve h session =>
    obtain ⟨e, he, rfl⟩ := Option.map_eq_some_iff.mp hm
    rcases Pair.event_cases he with ⟨rfl, rfl⟩ | ⟨rfl, rfl⟩
    · exact ⟨c, hat.answered_start hw session⟩
    · exact ⟨c, hat.answered_finish hw session⟩
  | receive h =>
    obtain ⟨e, he, rfl⟩ := Option.map_eq_some_iff.mp hm
    rcases Pair.event_cases he with ⟨rfl, rfl⟩ | ⟨rfl, rfl⟩
    · exact hat.goesOn_start
    · exact ⟨c, hat.goesOn_finish hw (ht rfl)⟩
  | tick d => cases hm
  | fail h => cases hm
  | restart inst => cases hm

theorem shows_init (route : Route pair) (now : Time) : Shows route "" .unknown (.init now) where
  start := rfl
  finish := rfl
  rows := rfl
  entries _ := (ite_self _).symm
  sessions h := absurd rfl h
  times h := by cases h
  sent := rfl

/-- The start handler has returned exactly if the start event is handled. -/
theorem Shows.replyOf_start (hat : Shows route c life w) :
    replyOf w pair.startHandler = if life.hasStarted then some (.ok .sessionStarted c) else none := by
  cases hs : life.hasStarted with
  | true => exact replyOf_eq (hat.start.trans (Route.startAt_of_hasStarted hs)) rfl
  | false =>
    cases life with
    | unknown => unfold replyOf; rw [hat.start]; rfl
    | recordingStart answered | resolving answered | creating _ answered =>
      exact replyOf_waiting hat.start (by cases answered <;> rfl)
    | _ => cases hs

/-- The end handler has returned exactly if the call is closed. -/
theorem Shows.closed_of_replyOf_finish (hat : Shows route c life w) (h : replyOf w pair.endHandler ≠ none) :
    ∃ startedAt endedAt, life = .closed startedAt endedAt := by
  cases life with
  | closed startedAt endedAt => exact ⟨startedAt, endedAt, rfl⟩
  | recordingEnd _ _ answered | finalizing _ _ _ answered =>
    exact absurd (replyOf_waiting hat.finish (by cases answered <;> rfl)) h
  | _ => exact absurd (by unfold replyOf; rw [hat.finish]; rfl) h

theorem Shows.inOrder (hat : Shows route c life w) (ho : InOrder pair w a) {move : Move}
    (hm : pair.move a = some move) (he : move = .arrives .finish) : life.hasStarted = true := by
  subst he
  cases a with
  | deliver h inst payload =>
    obtain ⟨e, he, heq⟩ := Option.map_eq_some_iff.mp hm
    cases heq
    rcases Pair.event_cases he with ⟨-, e⟩ | ⟨rfl, -⟩
    · cases e
    · have hne := ho rfl
      rw [hat.replyOf_start] at hne
      by_contra hn
      exact hne (if_neg hn)
  | serve h session =>
    obtain ⟨e, -, heq⟩ := Option.map_eq_some_iff.mp hm
    cases heq
  | receive h =>
    obtain ⟨e, -, heq⟩ := Option.map_eq_some_iff.mp hm
    cases heq
  | tick d => cases hm
  | fail h => cases hm
  | restart inst => cases hm

/-- In both runs the end handler looks for the entry in its time. -/
theorem Shows.inTime (hat : Shows route c life w) (ht : InTime pair w a) {move : Move}
    (hm : pair.move a = some move) (he : move = .goesOn .finish) : looksInTime env w.now life := by
  subst he
  obtain rfl : a = .receive pair.endHandler := by
    cases a with
    | receive h =>
      obtain ⟨e, he, heq⟩ := Option.map_eq_some_iff.mp hm
      cases heq
      rcases Pair.event_cases he with ⟨-, e⟩ | ⟨rfl, -⟩
      · cases e
      · rfl
    | deliver h inst payload | serve h session =>
      obtain ⟨e, -, heq⟩ := Option.map_eq_some_iff.mp hm
      cases heq
    | _ => cases hm
  cases life with
  | recordingEnd startedAt openedAt answered =>
    cases answered with
    | false => trivial
    | true =>
      intro hr
      have hlives := ht rfl ⟨_, hat.finish, rfl, Option.some_ne_none _⟩ hr
      rwa [(hat.times rfl hr).1] at hlives
  | _ => trivial

/-! ## Two runs -/

/-- Only a tick moves the clock. -/
theorem now_step (env : Env) (w : World) (ha : ∀ d, a ≠ .tick d) : (step env w a).now = w.now := by
  have hs := gStep env w a
  generalize step env w a = w' at hs
  cases hs with
  | @tick d => exact absurd rfl (ha d)
  | serve _ _ hs => cases hs <;> rfl
  | _ => rfl

/-- At one time, both worlds show the call at one point of its life. -/
structure Alike (route : Route pair) (w w' : World) : Prop where
  now : w'.now = w.now
  inv : PairInv pair w
  inv' : PairInv pair w'
  shows : ∃ life c c', Shows route c life w ∧ Shows route c' life w'

theorem move_ne_tick {move : Move} (hm : pair.move a = some move) (d : Nat) : a ≠ .tick d := fun e => by
  subst e
  cases hm

/-- The pair's own step, in both worlds. -/
theorem Alike.own (hr : Alike route w w') (ha : pair.allows a = true ∧ InOrder pair w a ∧ InTime pair w a)
    (hown : pair.concerns a = true) : Alike route (step env w a) (step env w' a) := by
  obtain ⟨life, c, c', h, h'⟩ := hr.shows
  have hinv := pairInv_step hr.inv ha.1
  have hinv' := pairInv_step hr.inv' ha.1
  cases hm : pair.move a with
  | some move =>
    have ho := h.inOrder ha.2.1 hm
    have ht := h.inTime ha.2.2 hm
    obtain ⟨k, hk⟩ := h.step hr.inv ha.1 hm ho ht
    obtain ⟨k', hk'⟩ := h'.step hr.inv' ha.1 hm ho (hr.now ▸ ht)
    rw [hr.now] at hk'
    have htick := move_ne_tick hm
    refine ⟨?_, hinv, hinv', _, k, k', hk, hk'⟩
    rw [now_step env w htick, now_step env w' htick, hr.now]
  | none =>
    cases a with
    | tick d =>
      refine ⟨?_, hinv, hinv', life, c, c', h.other hr.inv ha.1 hm, h'.other hr.inv' ha.1 hm⟩
      exact congrArg (· + (d : Time)) hr.now
    | _ =>
      simp only [Pair.concerns, hm] at hown
      cases hown

/-- A step of others, in the first. -/
theorem Alike.other (hr : Alike route w w') (ha : pair.allows a = true) (hown : pair.concerns a = false) :
    Alike route (step env w a) w' := by
  obtain ⟨life, c, c', h, h'⟩ := hr.shows
  have hm : pair.move a = none := by
    cases a with
    | tick d => cases hown
    | _ => exact Option.not_isSome_iff_eq_none.mp (Bool.eq_false_iff.mp hown)
  have htick : ∀ d, a ≠ .tick d := fun d e => by
    subst e
    cases hown
  exact ⟨by rw [now_step env w htick, hr.now], pairInv_step hr.inv ha, hr.inv', life, c, c', h.other hr.inv ha hm, h'⟩

theorem alike_init (route : Route pair) (now : Time) : Alike route (.init now) (.init now) :=
  ⟨rfl, pairInv_init pair now, pairInv_init pair now, .unknown, "", "", shows_init route now, shows_init route now⟩

/-- `w'` has of the provider call `p` what `w` has, with its ids renamed. -/
structure Renamed (f : CallId ≃ CallId) (p : String) (w w' : World) : Prop where
  rows : callsOf w' p = (callsOf w p).map fun r => { r with callId := f r.callId }
  entries : ∀ place, w'.store place p = (w.store place p).map f
  sessions : ∀ r ∈ callsOf w p, ∀ place,
    w'.sessions place (f r.callId) = (w.sessions place r.callId).map fun s => { s with callId := f s.callId }

theorem Shows.renamed {c' : CallId} (h : Shows route c life w) (h' : Shows route c' life w') (hnow : w'.now = w.now) :
    Renamed (Equiv.swap c c') pair.sid w w' where
  rows := by
    rw [h.rows, h'.rows]
    cases life.startedAt with
    | none => rfl
    | some startedAt =>
      cases life.endedAt <;> simp [Route.row, finalizeStmt, newCall, Route.call]
  entries place := by
    rw [h.entries, h'.entries, hnow]
    split
    · rw [Option.map_map]
      simp [Function.comp_def]
    · rfl
  sessions r hr place := by
    rw [h.rows] at hr
    cases hs : life.startedAt with
    | none =>
      rw [hs] at hr
      cases hr
    | some startedAt =>
      rw [hs] at hr
      obtain rfl := List.mem_singleton.mp hr
      have hne : life.startedAt ≠ none := hs ▸ Option.some_ne_none _
      rw [route.row_callId, Equiv.swap_apply_left, h.sessions hne, h'.sessions hne, hnow]
      split
      · rw [Option.map_map]
        congr 1
        funext openedAt
        simp [Route.session]
      · rfl

/-! ## After the two events -/

/-- The provider says that the call has failed. -/
def Pair.fails (pair : Pair env) : Bool :=
  env.eventType pair.finish = "failed" ∨
    env.lower (pair.finish.callStatus.getD "") ∈ ["failed", "busy", "no-answer"]

/-- There is one call, active, with the tenant and the agent of the dialed number,
and since `openedAt` its session and its entry, in Redis for their times to live,
and the start handler has returned its id. -/
def Opened (pair : Pair env) (w : World) : Prop :=
  ∃ (route : Route pair) (c : CallId) (startedAt openedAt : Time),
    callsOf w pair.sid =
      [{ callId := c
         tenantId := route.tenantId
         agentId := route.agentId
         providerCallId := some pair.sid
         status := .active
         connectionStatus := .connected
         isSimulation := false
         startedAt := startedAt
         endedAt := none
         endReason := none }] ∧
    (∀ place, w.store place pair.sid =
      if place = env.place pair.inst ∧ Kept place providerCallTtl openedAt w.now then some c else none) ∧
    (∀ place, w.sessions place c =
      if Keeps env pair.inst place ∧ Kept place sessionTtl openedAt w.now then
        some ⟨c, route.tenantId, route.agentId, openedAt, .active⟩
      else none) ∧
    replyOf w pair.startHandler = some (.ok .sessionStarted c)

/-- That call has been finalized, with one request, and there is no session of it
and no entry, and the end handler has returned its id. -/
def Finished (pair : Pair env) (w : World) : Prop :=
  ∃ (route : Route pair) (c : CallId) (startedAt endedAt : Time),
    callsOf w pair.sid =
      [{ callId := c
         tenantId := route.tenantId
         agentId := route.agentId
         providerCallId := some pair.sid
         status := if pair.fails then .failed else .completed
         connectionStatus := if pair.fails then .failedPreConnect else .connected
         isSimulation := false
         startedAt := startedAt
         endedAt := some endedAt
         endReason := some (if pair.fails then "provider_failure" else "caller_hangup") }] ∧
    sentOf w pair.sid = [(pair.endHandler, eventKey env pair.finish), (pair.startHandler, eventKey env pair.start)] ∧
    (∀ place, w.store place pair.sid = none) ∧
    (∀ place, w.sessions place c = none) ∧
    replyOf w pair.endHandler = some (.ok .sessionCleaned c)

theorem endReason_eq (pair : Pair env) :
    env.endReason pair.finish = if pair.fails then "provider_failure" else "caller_hangup" := by
  simp only [Env.endReason, Pair.fails, decide_eq_true_eq]

theorem Shows.opened (hat : Shows route c life w) (hs : replyOf w pair.startHandler ≠ none)
    (hf : w.handlers pair.endHandler = none) : Opened pair w := by
  rw [hat.replyOf_start] at hs
  have hstarted : life.hasStarted = true := by
    by_contra hn
    exact hs (if_neg hn)
  have hreply := hat.replyOf_start
  rw [if_pos hstarted] at hreply
  rw [hat.finish] at hf
  cases life with
  | opened startedAt openedAt =>
    refine ⟨route, c, startedAt, openedAt, hat.rows, fun place => ?_, fun place => ?_, hreply⟩
    · rw [hat.entries]
      exact if_kept _ place providerCallTtl openedAt w.now fun _ => c
    · rw [hat.sessions (Option.some_ne_none _)]
      exact if_kept _ place sessionTtl openedAt w.now (route.session c)
  | recordingEnd | finalizing | closed => cases hf
  | _ => cases hstarted

theorem Shows.finished (hat : Shows route c life w) (hf : replyOf w pair.endHandler ≠ none) : Finished pair w := by
  obtain ⟨startedAt, endedAt, rfl⟩ := hat.closed_of_replyOf_finish hf
  refine ⟨route, c, startedAt, endedAt, hat.rows.trans (congrArg (fun r => [r]) ?_), hat.sent, fun place => ?_,
    fun place => ?_, replyOf_eq hat.finish rfl⟩
  · show (finalizeStmt c (pair.finalization endedAt)).set (newCall (route.call c startedAt)) = _
    unfold Pair.finalization
    rw [endReason_eq]
    cases pair.fails <;> rfl
  · exact (hat.entries place).trans (ite_self _)
  · exact (hat.sessions (Option.some_ne_none _) place).trans (ite_self _)

/-- Both events are handled when every move of a life has been made. -/
theorem replyOf_of_script (route : Route pair) (now : Time) {as : List Action}
    (hC : AllSteps (step env) (fun w a => pair.allows a = true ∧ InOrder pair w a ∧ InTime pair w a) (.init now) as)
    (hscript : script.Sublist (as.filterMap pair.move)) :
    replyOf (run (step env) (.init now) as) pair.endHandler ≠ none := by
  have hinit : PairInv pair (.init now) ∧ ∃ life c, Shows route c life (.init now) ∧ life.progress = 0 :=
    ⟨pairInv_init pair now, .unknown, "", shows_init route now, rfl⟩
  obtain ⟨n, ⟨-, life, c, hat, rfl⟩, hn⟩ :
      ∃ n, (PairInv pair (run (step env) (.init now) as) ∧
          ∃ life c, Shows route c life (run (step env) (.init now) as) ∧ life.progress = n) ∧
        ∀ l, l <+: script → l.Sublist (as.filterMap pair.move) → l.length ≤ n := by
    refine exists_progress (P := fun w n => PairInv pair w ∧ ∃ life c, Shows route c life w ∧ life.progress = n)
      hinit (fun w a move n h hC hm => ?_) (fun w a n h hC hm => ?_) hC
    · obtain ⟨hw, life, c, hat, rfl⟩ := h
      obtain ⟨c', hat'⟩ := hat.step hw hC.1 hm (hat.inOrder hC.2.1 hm) (hat.inTime hC.2.2 hm)
      exact ⟨pairInv_step hw hC.1, _, c', hat', life.progress_step _ move⟩
    · obtain ⟨hw, life, c, hat, rfl⟩ := h
      exact ⟨pairInv_step hw hC.1, life, c, hat.other hw hC.1 hm, rfl⟩
  obtain ⟨startedAt, endedAt, rfl⟩ := Life.eq_closed (hn script (List.prefix_refl _) hscript)
  rw [replyOf_eq hat.finish rfl]
  exact Option.some_ne_none _

/-- Calls do not interfere. In a run in which every dependency works, with any
callbacks of any calls interleaved in any way, let a provider call receive one
start event and one end event, which arrives when the first has been handled, and
whose handler looks for the entry before it expires. Then what there is of the
call at every moment is, but for the id that the call has been given, what the
same steps of its own two handlers leave when nothing else is going on. After its
start event that is one active call, its session and its entry; after its end
event the call is finalized, and there is no session and no entry; and the two
handlers get there as soon as their requests have been served and answered, in
order. -/
theorem calls_do_not_interfere (pair : Pair env) (now : Time) (as : List Action)
    (ha : ∀ a ∈ as, pair.allows a = true) (ho : AllSteps (step env) (InOrder pair) (.init now) as)
    (ht : AllSteps (step env) (InTime pair) (.init now) as) :
    (∃ f, Renamed f pair.sid (run (step env) (.init now) as)
      (run (step env) (.init now) (as.filter pair.concerns))) ∧
    (replyOf (run (step env) (.init now) as) pair.startHandler ≠ none →
      (run (step env) (.init now) as).handlers pair.endHandler = none →
      Opened pair (run (step env) (.init now) as)) ∧
    (replyOf (run (step env) (.init now) as) pair.endHandler ≠ none →
      Finished pair (run (step env) (.init now) as)) ∧
    (script.Sublist (as.filterMap pair.move) →
      replyOf (run (step env) (.init now) as) pair.endHandler ≠ none) := by
  obtain ⟨route⟩ := pair.exists_route
  have hsteps : AllSteps (step env) (fun w a => pair.allows a = true ∧ InOrder pair w a ∧ InTime pair w a)
      (.init now) as :=
    fun p a hp => ⟨ha a (hp.subset (List.mem_append_right _ (List.mem_singleton_self a))), ho p a hp, ht p a hp⟩
  have hown : ∀ w w' a, Alike route w w' → pair.allows a = true ∧ InOrder pair w a ∧ InTime pair w a →
      pair.concerns a = true → Alike route (step env w a) (step env w' a) := fun _ _ _ hr hC hown => hr.own hC hown
  have hother : ∀ w w' a, Alike route w w' → pair.allows a = true ∧ InOrder pair w a ∧ InTime pair w a →
      pair.concerns a = false → Alike route (step env w a) w' := fun _ _ _ hr hC hown => hr.other hC.1 hown
  have halike := run_filter (alike_init route now) hown hother hsteps
  obtain ⟨life, c, c', h, h'⟩ := halike.shows
  exact ⟨⟨_, h.renamed h' halike.now⟩, h.opened, h.finished, replyOf_of_script route now hsteps⟩

/-- An end event whose handler looks for the entry after that has expired is
ignored, and the call stays active. -/
theorem late_end_event_ignored :
    (∀ a ∈ lateEnd, startAndCompleted.allows a = true) ∧
      AllSteps (step (oneRoute true)) (InOrder startAndCompleted) (.init 0) lateEnd ∧
      replyOf (run (step (oneRoute true)) (.init 0) lateEnd) 0 = some (.ok .sessionStarted "uu") ∧
      replyOf (run (step (oneRoute true)) (.init 0) lateEnd) 1 = some (.ok .ignored "") ∧
      callsOf (run (step (oneRoute true)) (.init 0) lateEnd) "CA1" = [createdCall "uu"] ∧
      ¬ Finished startAndCompleted (run (step (oneRoute true)) (.init 0) lateEnd) := by
  have hreply : replyOf (run (step (oneRoute true)) (.init 0) lateEnd) 1 = some (.ok .ignored "") := by decide
  refine ⟨by decide, ?_, by decide, hreply, by decide, fun ⟨_, _, _, _, _, _, _, _, h⟩ => ?_⟩
  · simp only [lateEnd, handled, delivery, List.cons_append, List.nil_append, allSteps_cons, allSteps_nil, InOrder]
    decide
  · exact nomatch hreply.symm.trans h

/-! ## Two calls -/

def secondStartCallback : ExotelCallback where
  providerCallId := "CA2"
  event := "connected"
  dialedNumber := some "+919"

def secondFailedCallback : ExotelCallback where
  providerCallId := "CA2"
  event := "failed"

/-- `connected` and `failed` of `CA2`, with the handlers `2` and `3`. -/
def startAndFailed : Pair (oneRoute true) where
  inst := 0
  startHandler := 2
  endHandler := 3
  start := secondStartCallback
  finish := secondFailedCallback
  distinct := by decide
  same := rfl
  starts := by decide
  routed := ⟨_, "+919", ("tenant", "agent"), rfl, by decide, by decide⟩
  ends := by decide

/-- Both calls, each step of the one followed by one of the other. -/
def twoCalls : List Action :=
  [.deliver 0 0 startCallback, .deliver 2 0 secondStartCallback, .serve 0 none, .serve 2 none,
    .receive 2, .receive 0, .serve 0 none, .serve 2 none, .receive 0, .receive 2, .serve 2 none, .serve 0 none,
    .receive 0, .receive 2, .tick 5, .deliver 1 0 completedCallback, .deliver 3 0 secondFailedCallback,
    .serve 1 none, .serve 3 none, .receive 3, .receive 1, .serve 3 none, .serve 1 none, .receive 1, .receive 3]

theorem calls_do_not_interfere_two :
    Finished startAndCompleted (run (step (oneRoute true)) (.init 0) twoCalls) ∧
      Finished startAndFailed (run (step (oneRoute true)) (.init 0) twoCalls) := by
  have hfirst := calls_do_not_interfere startAndCompleted 0 twoCalls (by decide)
    (by simp only [twoCalls, allSteps_cons, allSteps_nil, InOrder]; decide)
    (by
      simp only [twoCalls, allSteps_cons, allSteps_nil, InTime]
      and_intros <;> first | trivial | exact fun _ _ => by decide)
  have hsecond := calls_do_not_interfere startAndFailed 0 twoCalls (by decide)
    (by simp only [twoCalls, allSteps_cons, allSteps_nil, InOrder]; decide)
    (by
      simp only [twoCalls, allSteps_cons, allSteps_nil, InTime]
      and_intros <;> first | trivial | exact fun _ _ => by decide)
  exact ⟨hfirst.2.2.1 (hfirst.2.2.2 (by decide)), hsecond.2.2.1 (hsecond.2.2.2 (by decide))⟩

end CallingAgent.Proof.Gateway
