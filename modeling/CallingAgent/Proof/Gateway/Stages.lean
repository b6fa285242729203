import CallingAgent.Proof.Gateway.Provider

/-!
# The stages of a provider call

A provider call with one start event and one end event (`Pair`) goes through the
stages of `Stage`: its call is created, opened (with session and mapping) and, if
the end event finds the mapping, ended and closed. `At` says what there is of it
at each stage, in the tables, in the call store, among the sessions and in the
two handlers; `PairInv` collects what every run keeps besides, with who serves
which event (`Roles`) and that nobody else records the two (`Sole`).
-/

namespace CallingAgent.Proof.Gateway

open CallingAgent.Framework CallingAgent.Impl CallingAgent.Impl.Calls CallingAgent.Impl.Exotel

/-! ## The two events -/

/-- A start and an end event of one provider call, handled by one process. -/
structure Pair (env : Env) where
  inst : Nat
  startHandler : Nat
  endHandler : Nat
  start : ExotelCallback
  finish : ExotelCallback
  distinct : startHandler ≠ endHandler
  same : finish.providerCallId = start.providerCallId
  starts : env.eventType start ∈ startEvents
  routed : Routed env start
  ends : env.eventType finish ∈ endEvents

variable {env : Env}

/-- The `CallSid`. -/
def Pair.sid (pair : Pair env) : String := pair.start.providerCallId

/-- Every dependency works, and the two events are the only start and end events
of their `CallSid`. -/
def Pair.allows (pair : Pair env) : Action → Bool
  | .deliver h inst payload =>
    if h = pair.startHandler then inst = pair.inst ∧ payload = pair.start
    else if h = pair.endHandler then inst = pair.inst ∧ payload = pair.finish
    else
      env.eventType payload ∈ startEvents ∨ env.eventType payload ∈ endEvents →
        payload.providerCallId ≠ pair.sid
  | a => isWorking a

abbrev PairAction (pair : Pair env) := { a : Action // pair.allows a = true }

def pairStep (pair : Pair env) (w : World) (a : PairAction pair) : World := step env w a.1

/-! ## The stages of the call -/

inductive Stage
  | before
  | created (c : CallId)
  | opened (c : CallId)
  | ending (c : CallId)
  | closed (c : CallId)

def Stage.callId : Stage → Option CallId
  | .before => none
  | .created c | .opened c | .ending c | .closed c => some c

/-- The call is active. -/
def Stage.isActive : Stage → Bool
  | .created _ | .opened _ => true
  | _ => false

/-- The call is mapped, and has its session. -/
def Stage.entry : Stage → Option CallId
  | .opened c | .ending c => some c
  | _ => none

/-- The start handler before its call is created. -/
inductive Starting (env : Env) (x : Handler) : Prop
  | recording (hp : x.phase = .recording) (ha : ∀ answer, x.answer = some answer → answer = .recorded false)
  | resolving {number : String} (hp : x.phase = .resolving number) (hn : Resolves env number)
      (ha : ∀ answer, x.answer = some answer → ∃ tenantId agentId, answer = .resolved tenantId agentId)
  | creating {call : CallCreateRequest} (hp : x.phase = .creating call) (ha : x.answer = none)

def StartAt (env : Env) : Stage → Option Handler → Prop
  | .before, o => ∀ x, o = some x → Starting env x
  | .created c, o => ∃ x call, o = some x ∧ x.phase = .creating call ∧ call.callId = c ∧ x.answer = some .created
  | .opened c, o | .ending c, o | .closed c, o => ∃ x, o = some x ∧ x.phase = .returned (.ok .sessionStarted c)

/-- The end handler has not looked for the mapping yet, or has found none. -/
def Unmapped (o : Option Handler) : Prop :=
  ∀ x, o = some x →
    x.phase = .recording ∧ (∀ answer, x.answer = some answer → answer = .recorded false) ∨
      x.phase = .returned (.ok .ignored "")

def EndAt : Stage → Option Handler → Prop
  | .before, o | .created _, o => Unmapped o
  | .opened c, o => Unmapped o ∨ ∃ x f, o = some x ∧ x.phase = .finalizing c f ∧ x.answer = none
  | .ending c, o => ∃ x f, o = some x ∧ x.phase = .finalizing c f ∧ x.answer = some .finalized
  | .closed c, o => ∃ x, o = some x ∧ x.phase = .returned (.ok .sessionCleaned c)

/-- The entry has not expired: a Redis keeps it for 24 hours from its writing. -/
def Pair.entryLives (pair : Pair env) (w : World) : Prop := env.redis = true → w.now ≤ w.storeUntil pair.sid

instance (pair : Pair env) (w : World) : Decidable (pair.entryLives w) := inferInstanceAs (Decidable (_ → _))

/-- What there is of the provider call at a stage. -/
structure At (pair : Pair env) (w : World) (stage : Stage) : Prop where
  rows : ∀ {c}, RowOf w pair.sid c ↔ stage.callId = some c
  active : (∃ r, ActiveFor w pair.sid r) ↔ stage.isActive = true
  entries : ∀ place, w.store place pair.sid =
    if place = env.place pair.inst ∧ pair.entryLives w then stage.entry else none
  sessions : ∀ {c}, stage.callId = some c → ∀ place, w.sessions place c ≠ none ↔
    stage.entry = some c ∧ Keeps env pair.inst place ∧ (place = .redis → w.now ≤ w.sessionsUntil c)
  start : StartAt env stage (w.handlers pair.startHandler)
  finish : EndAt stage (w.handlers pair.endHandler)

variable {pair : Pair env} {w w' : World} {h : Nat} {x y : Handler} {a : Action} {stage : Stage}

theorem Elsewhere.entryLives (he : Elsewhere pair.sid w w') : pair.entryLives w' ↔ pair.entryLives w := by
  unfold Pair.entryLives
  rw [he.now, he.entriesUntil]

/-- A step that changes the two handlers at most. -/
theorem At.keep (hat : At pair w stage) (he : Elsewhere pair.sid w w')
    (hs : StartAt env stage (w'.handlers pair.startHandler)) (hf : EndAt stage (w'.handlers pair.endHandler)) :
    At pair w' stage where
  rows := he.rows.trans hat.rows
  active := (exists_congr fun _ => he.active).trans hat.active
  entries place := by
    rw [he.entries, hat.entries]
    exact if_congr (and_congr_right' he.entryLives.symm) rfl rfl
  sessions hc place := by
    have hrow := hat.rows.mpr hc
    rw [he.sessions hrow, he.now, he.sessionsUntil hrow]
    exact hat.sessions hc place
  start := hs
  finish := hf

/-- Time goes on: the entry and the session in Redis expire. -/
theorem At.tick (hat : At pair w stage) (d : Nat) : At pair (w.tick d) stage where
  rows := hat.rows
  active := hat.active
  entries place := by
    have hstore : (w.tick d).store place pair.sid =
        if place = .redis ∧ w.storeUntil pair.sid < w.now + d then none else w.store place pair.sid := rfl
    have hlives : pair.entryLives (w.tick d) ↔ (env.redis = true → w.now + d ≤ w.storeUntil pair.sid) := Iff.rfl
    rw [hstore, hat.entries, Env.place]
    unfold Pair.entryLives at hlives ⊢
    by_cases hr : env.redis = true <;> grind
  sessions {c} hc place := by
    have hsessions : (w.tick d).sessions place c =
        if place = .redis ∧ w.sessionsUntil c < w.now + d then none else w.sessions place c := rfl
    have hnow : (w.tick d).now = w.now + d := rfl
    have huntil : (w.tick d).sessionsUntil c = w.sessionsUntil c := rfl
    rw [hsessions, hnow, huntil]
    have := hat.sessions hc place
    grind
  start := hat.start
  finish := hat.finish

theorem startAt_cases (h : StartAt env stage (some x)) :
    stage = .before ∧ Starting env x ∨
      (∃ call, stage = .created call.callId ∧ x.phase = .creating call ∧ x.answer = some .created) ∨
      ∃ c, x.phase = .returned (.ok .sessionStarted c) := by
  cases stage with
  | before => exact .inl ⟨rfl, h x rfl⟩
  | created c =>
    obtain ⟨_, call, e, hp, rfl, ha⟩ := h
    cases e
    exact .inr (.inl ⟨call, rfl, hp, ha⟩)
  | opened c | ending c | closed c =>
    obtain ⟨_, e, hp⟩ := h
    cases e
    exact .inr (.inr ⟨c, hp⟩)

theorem endAt_cases (h : EndAt stage (some x)) :
    Unmapped (some x) ∧ (∀ o, Unmapped o → EndAt stage o) ∨
      (∃ c f, stage = .opened c ∧ x.phase = .finalizing c f ∧ x.answer = none) ∨
      (∃ c f, stage = .ending c ∧ x.phase = .finalizing c f ∧ x.answer = some .finalized) ∨
      ∃ c, x.phase = .returned (.ok .sessionCleaned c) := by
  cases stage with
  | before | created c => exact .inl ⟨h, fun _ ho => ho⟩
  | opened c =>
    rcases h with h | ⟨_, f, e, hp, ha⟩
    · exact .inl ⟨h, fun _ => .inl⟩
    · cases e
      exact .inr (.inl ⟨c, f, rfl, hp, ha⟩)
  | ending c =>
    obtain ⟨_, f, e, hp, ha⟩ := h
    cases e
    exact .inr (.inr (.inl ⟨c, f, rfl, hp, ha⟩))
  | closed c =>
    obtain ⟨_, e, hp⟩ := h
    cases e
    exact .inr (.inr (.inr ⟨c, hp⟩))

/-- Before its delivery the end handler can be given any callback. -/
theorem endAt_of_none (h : EndAt stage none) {o : Option Handler} (ho : Unmapped o) : EndAt stage o := by
  cases stage with
  | before | created c => exact ho
  | opened c => exact .inl ho
  | ending c => obtain ⟨_, _, e, -⟩ := h; cases e
  | closed c => obtain ⟨_, e, -⟩ := h; cases e

theorem startAt_of_none (h : StartAt env stage none) : stage = .before := by
  cases stage with
  | before => rfl
  | created c => obtain ⟨_, _, e, -⟩ := h; cases e
  | opened c | ending c | closed c => obtain ⟨_, e, -⟩ := h; cases e

/-! ## Who serves the events -/

/-- If an event is recorded, then by this handler, which has no request to record
it any more. -/
def Sole (env : Env) (w : World) (h : Nat) (payload : ExotelCallback) : Prop :=
  Recorded w (eventKey env payload) → ∃ x, w.handlers h = some x ∧ ∀ body, x.request ≠ some (.record body)

theorem sole_step (ho : Once env w) (hb : Backed env w) {payload : ExotelCallback} (hw : Sole env w h payload)
    (hu : ∀ h' x, w.handlers h' = some x → eventKey env x.payload = eventKey env payload → h' = h)
    (a : Action) : Sole env (step env w a) h payload := by
  intro hr
  rcases (recorded_step ho hb a _).mp hr with hr | ⟨h', session, x, body, rfl, hx, hreq, hkey⟩
  · obtain ⟨x, hx, hn⟩ := hw hr
    obtain ⟨y, hy, -, -, hc⟩ := handler_kept env hx a
    exact ⟨y, hy, fun body e => hn body (hc body e)⟩
  · obtain rfl := hu h' x hx hkey
    rw [step_serve env hx hreq]
    exact ⟨_, setHandler_handlers _ _ _, nofun⟩

/-- Whom a handler serves. -/
def Role (pair : Pair env) (h : Nat) (x : Handler) : Prop :=
  if h = pair.startHandler then x.inst = pair.inst ∧ x.payload = pair.start
  else if h = pair.endHandler then x.inst = pair.inst ∧ x.payload = pair.finish
  else
    env.eventType x.payload ∈ startEvents ∨ env.eventType x.payload ∈ endEvents →
      x.payload.providerCallId ≠ pair.sid

def Roles (pair : Pair env) (w : World) : Prop := ∀ h x, w.handlers h = some x → Role pair h x

theorem isWorking_of_allows (h : pair.allows a = true) : isWorking a = true := by
  cases a with
  | deliver => rfl
  | _ => exact h

theorem roles_step (hw : Roles pair w) (ha : pair.allows a = true) : Roles pair (step env w a) := by
  intro h y hy
  cases hx : w.handlers h with
  | none =>
    obtain rfl := handler_new hx hy
    unfold Role
    simp only [Pair.allows] at ha
    split_ifs at ha ⊢ with h1 h2
    · exact of_decide_eq_true ha
    · exact of_decide_eq_true ha
    · exact of_decide_eq_true ha
  | some x =>
    obtain ⟨z, hz, hi, hp, -⟩ := handler_kept env hx a
    obtain rfl : y = z := Option.some.inj (hy.symm.trans hz)
    have hrole := hw h x hx
    unfold Role at hrole ⊢
    rwa [hi, hp]

theorem Roles.start (hw : Roles pair w) (hx : w.handlers pair.startHandler = some x) :
    x.inst = pair.inst ∧ x.payload = pair.start := by
  have := hw _ _ hx
  rwa [Role, if_pos rfl] at this

theorem Roles.finish (hw : Roles pair w) (hx : w.handlers pair.endHandler = some x) :
    x.inst = pair.inst ∧ x.payload = pair.finish := by
  have := hw _ _ hx
  rwa [Role, if_neg (Ne.symm pair.distinct), if_pos rfl] at this

theorem Roles.other (hw : Roles pair w) (hx : w.handlers h = some x) (hs : h ≠ pair.startHandler)
    (he : h ≠ pair.endHandler)
    (hev : env.eventType x.payload ∈ startEvents ∨ env.eventType x.payload ∈ endEvents) :
    x.payload.providerCallId ≠ pair.sid := by
  have := hw _ _ hx
  rw [Role, if_neg hs, if_neg he] at this
  exact this hev

/-- Only the start handler serves the start event. -/
theorem Roles.startKey (hw : Roles pair w) (hx : w.handlers h = some x)
    (hk : eventKey env x.payload = eventKey env pair.start) : h = pair.startHandler := by
  obtain ⟨hp, he⟩ := Prod.mk.inj hk
  by_contra hs
  by_cases hh : h = pair.endHandler
  · subst hh
    rw [(hw.finish hx).2] at he
    exact not_start_of_end pair.ends (he ▸ pair.starts)
  · exact hw.other hx hs hh (.inl (he ▸ pair.starts)) hp

/-- Only the end handler serves the end event. -/
theorem Roles.endKey (hw : Roles pair w) (hx : w.handlers h = some x)
    (hk : eventKey env x.payload = eventKey env pair.finish) : h = pair.endHandler := by
  obtain ⟨hp, he⟩ := Prod.mk.inj hk
  by_contra hs
  by_cases hh : h = pair.startHandler
  · subst hh
    rw [(hw.start hx).2] at he
    exact not_start_of_end pair.ends (he ▸ pair.starts)
  · exact hw.other hx hh hs (.inr (he ▸ pair.ends)) (hp.trans pair.same)

/-- What every run of the pair keeps, besides its stage. -/
structure PairInv (pair : Pair env) (w : World) : Prop where
  once : Once env w
  backed : Backed env w
  mapping : Mapping env w
  provider : Provider env w
  activeOpen : ActiveOpen w
  roles : Roles pair w
  soleStart : Sole env w pair.startHandler pair.start
  soleEnd : Sole env w pair.endHandler pair.finish

theorem pairInv_step (hw : PairInv pair w) (ha : pair.allows a = true) : PairInv pair (step env w a) where
  once := once_step hw.once a
  backed := backed_step hw.backed a
  mapping := mapping_step hw.backed hw.mapping (isWorking_of_allows ha)
  provider := provider_step hw.mapping hw.provider (isWorking_of_allows ha)
  activeOpen := activeOpen_step hw.activeOpen a
  roles := roles_step hw.roles ha
  soleStart := sole_step hw.once hw.backed hw.soleStart (fun _ _ => hw.roles.startKey) a
  soleEnd := sole_step hw.once hw.backed hw.soleEnd (fun _ _ => hw.roles.endKey) a

theorem pairInv_init (pair : Pair env) (now : Time) : PairInv pair (.init now) where
  once := once_init env now
  backed := backed_init env now
  mapping := mapping_init env now
  provider := provider_init env now
  activeOpen _ h := absurd h List.not_mem_nil
  roles _ _ h := by cases h
  soleStart := fun ⟨_, h, _⟩ => absurd h List.not_mem_nil
  soleEnd := fun ⟨_, h, _⟩ => absurd h List.not_mem_nil

end CallingAgent.Proof.Gateway
