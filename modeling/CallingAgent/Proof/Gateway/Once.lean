import CallingAgent.Proof.Gateway.Handlers

/-!
# At most one effect per event

The API inserts an event before its handler does anything, and answers that it
is new to one handler only: the partial unique index lets no second insert
through. That answer is what a handler must hold to go on (`Fresh`), and it
gives it up when it sends its `calls.create` or `calls.finalize`. So in every
run each event has at most one holder or one such request (`Once`), whatever is
lost, and however many processes there are and are restarted.
-/

namespace CallingAgent.Proof.Gateway

open CallingAgent.Framework CallingAgent.Impl CallingAgent.Impl.Calls CallingAgent.Impl.Exotel
open CallingAgent.Impl.Jobs (CallJobs EventCreateRequest insertJob newJob hasPair)
open CallingAgent.Proof.Jobs (insertJob_eq_some)

/-- An event is recorded. -/
def Recorded (w : World) (key : String × String) : Prop :=
  ∃ r ∈ w.jobs.rows, hasPair key.1 key.2 r = true

/-- The handler has been told that its event is new, and has not sent its
request yet. -/
def IsFresh (env : Env) (x : Handler) (key : String × String) : Prop :=
  eventKey env x.payload = key ∧
    (x.phase = .recording ∧ x.answer = some (.recorded false) ∨ ∃ number, x.phase = .resolving number)

def Fresh (env : Env) (w : World) (h : Nat) (key : String × String) : Prop :=
  ∃ x, w.handlers h = some x ∧ IsFresh env x key

/-- A handler records its own event, and an answer comes after its request. -/
structure Asks (env : Env) (x : Handler) : Prop where
  own : ∀ body, x.request = some (.record body) → body = env.recordBody x.payload
  unanswered : x.request ≠ none → x.answer = none

structure Once (env : Env) (w : World) : Prop where
  asks : ∀ {h x}, w.handlers h = some x → Asks env x
  recorded : ∀ {h key}, Fresh env w h key → Recorded w key
  sent_recorded : ∀ {key}, key ∈ w.sent.map Prod.snd → Recorded w key
  one : ∀ {h h' key}, Fresh env w h key → Fresh env w h' key → h = h'
  spent : ∀ {h key}, Fresh env w h key → key ∉ w.sent.map Prod.snd
  nodup : (w.sent.map Prod.snd).Nodup

theorem recordBody_key {env : Env} {payload : ExotelCallback} {body : EventCreateRequest}
    (h : env.recordBody payload = some body) :
    body.providerCallId = some payload.providerCallId ∧ body.eventType = env.eventType payload ∧
      body.callId = none := by
  unfold Env.recordBody at h
  split at h
  · cases h; exact ⟨rfl, rfl, rfl⟩
  · cases h

/-- A new event is recorded, and the others are as before. -/
theorem recorded_new {env : Env} {w w' : World} {payload : ExotelCallback} {body : EventCreateRequest}
    {calls : List CallId} {jobs : CallJobs} {jobId : JobId} {now : Time}
    (hb : env.recordBody payload = some body) (hi : insertJob calls w.jobs (newJob body jobId now) = some jobs)
    (hj : w'.jobs = jobs) {key : String × String} :
    Recorded w' key ↔ Recorded w key ∨ eventKey env payload = key := by
  obtain ⟨hp, ht, -⟩ := recordBody_key hb
  have hnew : hasPair key.1 key.2 (newJob body jobId now) = true ↔ eventKey env payload = key := by
    simp [hasPair, newJob, eventKey, hp, ht, Prod.ext_iff]
  unfold Recorded
  rw [hj, ← hnew]
  simp only [Table.mem_insert (insertJob_eq_some hi).1, or_and_right, exists_or, exists_eq_left]

variable {env : Env} {w w' : World} {h : Nat} {x y : Handler}

theorem asks_of_none (hr : x.request = none) : Asks env x :=
  ⟨fun _ e => (by rw [hr] at e; cases e), fun hn => absurd hr hn⟩

/-- A request that records nothing. -/
theorem asks_of_await {request : ApiRequest} (hr : x.request = some request) (hn : ∀ body, request ≠ .record body)
    (ha : x.answer = none) : Asks env x :=
  ⟨fun body e => absurd (Option.some.inj (hr.symm.trans e)) (hn body), fun _ => ha⟩

/-- A change that tells no handler anything new and keeps what is recorded and
sent. -/
theorem Once.mono (hw : Once env w)
    (hh : ∀ {h y}, w'.handlers h = some y → Asks env y ∧ ∀ key, IsFresh env y key → Fresh env w h key)
    (hj : ∀ {key}, Recorded w key → Recorded w' key) (hs : w'.sent = w.sent) : Once env w' := by
  have hf : ∀ {h key}, Fresh env w' h key → Fresh env w h key := fun ⟨y, hy, hk⟩ => (hh hy).2 _ hk
  refine ⟨fun hy => (hh hy).1, fun h => hj (hw.recorded (hf h)), fun h => ?_, fun h h' => hw.one (hf h) (hf h'),
    fun h => ?_, ?_⟩
  · rw [hs] at h; exact hj (hw.sent_recorded h)
  · rw [hs]; exact hw.spent (hf h)
  · rw [hs]; exact hw.nodup

/-- The same, for a change of one handler. -/
theorem Once.set (hw : Once env w) (e : w'.handlers = Function.update w.handlers h (some y))
    (hy : Asks env y) (hf : ∀ key, IsFresh env y key → Fresh env w h key)
    (hj : ∀ {key}, Recorded w key → Recorded w' key) (hs : w'.sent = w.sent) : Once env w' := by
  refine hw.mono (fun {h' z} hz => ?_) hj hs
  rw [e] at hz
  rcases update_cases hz with ⟨rfl, rfl⟩ | ⟨-, hz⟩
  · exact ⟨hy, hf⟩
  · exact ⟨hw.asks hz, fun key hk => ⟨z, hz, hk⟩⟩

/-- A new event: before, nobody held it and nothing was sent for it. -/
theorem Once.new (hw : Once env w) {body : EventCreateRequest} {jobs : CallJobs} {calls : List CallId}
    {jobId : JobId} {now : Time} (hx : w.handlers h = some x) (hr : x.request = some (.record (some body)))
    (hi : insertJob calls w.jobs (newJob body jobId now) = some jobs)
    (e : w'.handlers = Function.update w.handlers h
      (some { x with request := none, answer := some (.recorded false) }))
    (hj : w'.jobs = jobs) (hs : w'.sent = w.sent) : Once env w' := by
  have hbody : env.recordBody x.payload = some body := ((hw.asks hx).own _ hr).symm
  obtain ⟨hp, ht, -⟩ := recordBody_key hbody
  have hkeep : ∀ {key}, Recorded w key → Recorded w' key := fun h => (recorded_new hbody hi hj).mpr (.inl h)
  have hrec : Recorded w' (eventKey env x.payload) := (recorded_new hbody hi hj).mpr (.inr rfl)
  have hnot : ¬ Recorded w (eventKey env x.payload) := by
    rintro ⟨r, hr, hk⟩
    have := (insertJob_eq_some hi).2 x.payload.providerCallId hp r hr
    rw [show (newJob body jobId now).eventType = env.eventType x.payload from ht] at this
    exact Bool.false_ne_true (this.symm.trans hk)
  -- Only `h` can hold the event of its handler.
  have hf : ∀ {h' key}, Fresh env w' h' key →
      h' = h ∧ key = eventKey env x.payload ∨ Fresh env w h' key ∧ key ≠ eventKey env x.payload := by
    rintro h' key ⟨z, hz, hk⟩
    rw [e] at hz
    rcases update_cases hz with ⟨rfl, rfl⟩ | ⟨-, hz⟩
    · exact .inl ⟨rfl, hk.1.symm⟩
    · refine .inr ⟨⟨z, hz, hk⟩, fun e => hnot ?_⟩
      rw [← e]; exact hw.recorded ⟨z, hz, hk⟩
  refine ⟨fun {h' z} hz => ?_, fun hk => ?_, fun hk => ?_, fun hk hk' => ?_, fun hk => ?_, ?_⟩
  · rw [e] at hz
    rcases update_cases hz with ⟨rfl, rfl⟩ | ⟨-, hz⟩
    · exact asks_of_none rfl
    · exact hw.asks hz
  · rcases hf hk with ⟨-, rfl⟩ | ⟨hk, -⟩
    · exact hrec
    · exact hkeep (hw.recorded hk)
  · rw [hs] at hk; exact hkeep (hw.sent_recorded hk)
  · rcases hf hk with ⟨rfl, rfl⟩ | ⟨hk, hne⟩
    · rcases hf hk' with ⟨rfl, -⟩ | ⟨-, hne⟩
      · rfl
      · exact absurd rfl hne
    · rcases hf hk' with ⟨-, rfl⟩ | ⟨hk', -⟩
      · exact absurd rfl hne
      · exact hw.one hk hk'
  · rw [hs]
    rcases hf hk with ⟨-, rfl⟩ | ⟨hk, -⟩
    · exact fun hm => hnot (hw.sent_recorded hm)
    · exact hw.spent hk
  · rw [hs]; exact hw.nodup

/-- A holder sends its request, and holds the event no longer. -/
theorem Once.send (hw : Once env w) (hx : w.handlers h = some x)
    (hf : IsFresh env x (eventKey env x.payload))
    (e : w'.handlers = Function.update w.handlers h (some y)) (hy : Asks env y)
    (hn : ∀ key, ¬ IsFresh env y key) (hj : w'.jobs = w.jobs)
    (hs : w'.sent = (h, eventKey env x.payload) :: w.sent) : Once env w' := by
  have hfresh : Fresh env w h (eventKey env x.payload) := ⟨x, hx, hf⟩
  have hkeep : ∀ {key}, Recorded w key → Recorded w' key := fun ⟨r, hr, hk⟩ => ⟨r, by rw [hj]; exact hr, hk⟩
  have hold : ∀ {h' key}, Fresh env w' h' key → h' ≠ h ∧ Fresh env w h' key := by
    rintro h' key ⟨z, hz, hk⟩
    rw [e] at hz
    rcases update_cases hz with ⟨rfl, rfl⟩ | ⟨hne, hz⟩
    · exact absurd hk (hn key)
    · exact ⟨hne, z, hz, hk⟩
  refine ⟨fun {h' z} hz => ?_, fun hk => hkeep (hw.recorded (hold hk).2), fun {key} hk => ?_,
    fun hk hk' => hw.one (hold hk).2 (hold hk').2, fun hk hm => ?_, ?_⟩
  · rw [e] at hz
    rcases update_cases hz with ⟨rfl, rfl⟩ | ⟨-, hz⟩
    · exact hy
    · exact hw.asks hz
  · rw [hs] at hk
    rcases List.mem_cons.mp hk with rfl | hk
    · exact hkeep (hw.recorded hfresh)
    · exact hkeep (hw.sent_recorded hk)
  · rw [hs] at hm
    obtain ⟨hne, hk⟩ := hold hk
    rcases List.mem_cons.mp hm with rfl | hm
    · exact hne (hw.one hk hfresh)
    · exact hw.spent hk hm
  · rw [hs]
    exact List.nodup_cons.mpr ⟨hw.spent hfresh, hw.nodup⟩

/-- The API answers, but not that an event is new. -/
theorem Once.answered (hw : Once env w) {answer : ApiAnswer} (hx : w.handlers h = some x)
    (ha : answer ≠ .recorded false) (hh : w'.handlers = w.handlers) (hj : w'.jobs = w.jobs)
    (hs : w'.sent = w.sent) :
    Once env (w'.setHandler h { x with request := none, answer := some answer }) := by
  refine hw.set (by rw [← hh]; rfl) (asks_of_none rfl) (fun key hk => ?_)
    (fun ⟨r, hr, hk⟩ => ⟨r, by rw [← hj] at hr; exact hr, hk⟩) hs
  obtain ⟨e, ⟨-, hr⟩ | hn⟩ := hk
  · exact absurd (Option.some.inj hr) ha
  · exact ⟨x, hx, e, .inr hn⟩

theorem not_isFresh (hp : y.phase ≠ .recording) (hn : ∀ number, y.phase ≠ .resolving number)
    (key : String × String) : ¬ IsFresh env y key := by
  rintro ⟨-, ⟨e, -⟩ | ⟨number, e⟩⟩
  · exact hp e
  · exact hn number e

/-- A handler returns, or is gone. -/
theorem Once.silent (hw : Once env w) (e : w'.handlers = Function.update w.handlers h (some y))
    (hy : Asks env y) (hp : isWaiting y.phase = false) (hj : w'.jobs = w.jobs) (hs : w'.sent = w.sent) :
    Once env w' := by
  refine hw.set e hy (fun key hk => ?_) (fun ⟨r, hr, hk⟩ => ⟨r, by rw [hj]; exact hr, hk⟩) hs
  refine absurd hk (not_isFresh (fun e => ?_) (fun number e => ?_) key) <;> rw [e] at hp <;> cases hp

theorem Asks.restart (hx : Asks env x) (inst : Nat) : Asks env (x.restart inst) := by
  unfold Handler.restart
  split
  · exact hx
  · split
    · exact ⟨hx.own, hx.unanswered⟩
    · exact hx

theorem IsFresh.of_restart {inst : Nat} {key : String × String} (hk : IsFresh env (x.restart inst) key) :
    IsFresh env x key := by
  unfold Handler.restart at hk
  split at hk
  · exact hk
  · split at hk
    · obtain ⟨-, ⟨e, -⟩ | ⟨number, e⟩⟩ := hk <;> cases e
    · exact hk

theorem once_step (hw : Once env w) (a : Action) : Once env (step env w a) := by
  have hs := gStep env w a
  generalize step env w a = w' at hs
  cases hs with
  | skip => exact hw
  | tick => exact hw.mono (fun hy => ⟨hw.asks hy, fun _ hk => ⟨_, hy, hk⟩⟩) id rfl
  | deliver hx =>
    refine hw.set rfl ⟨fun body e => ?_, fun _ => rfl⟩ (fun key hk => ?_) id rfl
    · cases e; rfl
    · obtain ⟨-, ⟨-, e⟩ | ⟨number, e⟩⟩ := hk <;> cases e
  | serve hx hr hs =>
    cases hs with
    | rejected => exact hw.answered hx (by decide) rfl rfl rfl
    | new hi => exact hw.new hx hr hi rfl rfl rfl
    | conflict _ ha => exact hw.answered hx (by rcases ha with rfl | rfl <;> decide) rfl rfl rfl
    | resolved => exact hw.answered hx nofun rfl rfl rfl
    | unresolved => exact hw.answered hx (by decide) rfl rfl rfl
    | created => exact hw.answered hx (by decide) rfl rfl rfl
    | taken => exact hw.answered hx (by decide) rfl rfl rfl
    | finalized => exact hw.answered hx (by decide) rfl rfl rfl
    | again => exact hw.answered hx (by decide) rfl rfl rfl
    | missing => exact hw.answered hx (by decide) rfl rfl rfl
  | reply ha hx =>
    refine hw.silent rfl ⟨(hw.asks hx).own, fun hn => ?_⟩ rfl rfl rfl
    rcases ha with ⟨-, ha, -⟩ | ⟨-, ha⟩
    · exact ha
    · exact ha.trans ((hw.asks hx).unanswered hn)
  | @resolve h x number hx hp ha =>
    exact hw.set rfl (asks_of_await rfl (fun _ e => by cases e) rfl) (fun key hk => ⟨x, hx, hk.1, .inl ⟨hp, ha⟩⟩) id rfl
  | create hx hp =>
    exact hw.send hx ⟨rfl, .inr ⟨_, hp⟩⟩ rfl (asks_of_await rfl (fun _ e => by cases e) rfl) (not_isFresh nofun nofun) rfl rfl
  | finalize hx hp ha =>
    exact hw.send hx ⟨rfl, .inl ⟨hp, ha⟩⟩ rfl (asks_of_await rfl (fun _ e => by cases e) rfl) (not_isFresh nofun nofun) rfl rfl
  | started hx _ ha =>
    have hr := request_eq_none (hw.asks hx).unanswered ha
    exact hw.silent rfl (asks_of_none hr) rfl rfl rfl
  | cleaned hx _ ha =>
    have hr := request_eq_none (hw.asks hx).unanswered ha
    exact hw.silent rfl (asks_of_none hr) rfl rfl rfl
  | restart =>
    refine hw.mono (fun {h y} hy => ?_) id rfl
    obtain ⟨x, hx, rfl⟩ := Option.map_eq_some_iff.mp hy
    exact ⟨(hw.asks hx).restart _, fun key hk => ⟨x, hx, hk.of_restart⟩⟩

theorem once_init (env : Env) (now : Time) : Once env (.init now) where
  asks hx := by cases hx
  recorded := fun ⟨_, hx, _⟩ => by cases hx
  sent_recorded hk := by cases hk
  one := fun ⟨_, hx, _⟩ => by cases hx
  spent := fun ⟨_, hx, _⟩ => by cases hx
  nodup := List.nodup_nil

theorem once_run (env : Env) (now : Time) (as : List Action) : Once env (run (step env) (.init now) as) :=
  run_inv (once_init env now) (fun _ a h => once_step h a) as

/-! ## What the other deliveries do -/

/-- The handler has gone on to change calls. -/
def hasActed (x : Handler) : Bool :=
  (match x.phase with
    | .creating _ => true
    | .finalizing _ _ => true
    | .returned reply => !isQuiet reply
    | _ => false) ||
  match x.request with
    | some (.create _) => true
    | some (.finalize _ _) => true
    | _ => false

/-- A handler that has gone on has sent its request. -/
def Acted (w : World) : Prop :=
  ∀ h x, w.handlers h = some x → hasActed x = true → h ∈ w.sent.map Prod.fst

theorem Acted.set (hw : Acted w) (e : w'.handlers = Function.update w.handlers h (some y))
    (hy : hasActed y = true → h ∈ w'.sent.map Prod.fst) (hs : w.sent <:+ w'.sent) : Acted w' := by
  intro h' z hz ha
  rw [e] at hz
  rcases update_cases hz with ⟨rfl, rfl⟩ | ⟨-, hz⟩
  · exact hy ha
  · exact (hs.sublist.map Prod.fst).subset (hw h' z hz ha)

theorem acted_step (hw : Acted w) (a : Action) : Acted (step env w a) := by
  have hs := gStep env w a
  generalize step env w a = w' at hs
  cases hs with
  | skip => exact hw
  | tick => exact hw
  | deliver hx => exact hw.set rfl (fun ha => by cases ha) (List.suffix_refl _)
  | @serve h session x request w' answer hx hr hs =>
    obtain ⟨hh, hsent, -⟩ := hs.frame
    have hy : hasActed { x with request := none, answer := some answer } = true → hasActed x = true := by
      unfold hasActed
      dsimp only
      intro ha
      rw [Bool.or_false] at ha
      rw [ha, Bool.true_or]
    refine hw.set (by rw [← hh]; rfl) (fun ha => ?_) (by rw [← hsent]; exact List.suffix_refl _)
    show h ∈ w'.sent.map Prod.fst
    rw [hsent]; exact hw h x hx (hy ha)
  | @reply _ h x answer reply ha hx hp hr =>
    refine hw.set rfl (fun ha => hw h x hx ?_) (List.suffix_refl _)
    unfold hasActed at ha ⊢
    dsimp only at ha
    rw [hr, Bool.not_true, Bool.false_or] at ha
    rw [ha, Bool.or_true]
  | resolve => exact hw.set rfl (fun ha => by cases ha) (List.suffix_refl _)
  | create => exact hw.set rfl (fun _ => List.mem_cons_self) (List.suffix_cons _ _)
  | finalize => exact hw.set rfl (fun _ => List.mem_cons_self) (List.suffix_cons _ _)
  | @started h x call hx hp =>
    refine hw.set rfl (fun _ => hw h x hx ?_) (List.suffix_refl _)
    unfold hasActed; rw [hp]; rfl
  | @cleaned h x callId finalization hx hp =>
    refine hw.set rfl (fun _ => hw h x hx ?_) (List.suffix_refl _)
    unfold hasActed; rw [hp]; rfl
  | @restart inst =>
    intro h y hy ha
    obtain ⟨x, hx, rfl⟩ := Option.map_eq_some_iff.mp hy
    refine hw h x hx ?_
    unfold Handler.restart at ha
    split at ha
    · exact ha
    · split at ha
      · unfold hasActed at ha ⊢
        dsimp only at ha
        rw [Bool.false_or] at ha
        rw [ha, Bool.or_true]
      · exact ha

theorem acted_run (env : Env) (now : Time) (as : List Action) : Acted (run (step env) (.init now) as) :=
  run_inv (I := Acted) (fun _ _ hx _ => by cases hx) (fun _ a h => acted_step h a) as

/-- Nothing that has been sent is forgotten. -/
theorem sent_step (env : Env) (w : World) (a : Action) : w.sent <:+ (step env w a).sent := by
  have hs := gStep env w a
  generalize step env w a = w' at hs
  cases hs with
  | create => exact List.suffix_cons _ _
  | finalize => exact List.suffix_cons _ _
  | serve _ _ hs => rw [World.setHandler, hs.frame.2.1]
  | _ => exact List.suffix_refl _

theorem sent_run (env : Env) (w : World) (as : List Action) : w.sent <:+ (run (step env) w as).sent := by
  induction as using List.reverseRecOn with
  | nil => exact List.suffix_refl _
  | append_singleton as a ih => rw [run_concat]; exact ih.trans (sent_step env _ a)

/-- A step of a handler that has sent nothing changes no call, session or
mapping. -/
theorem unchanged_step (hw : Acted w) {a : Action} (ha : handlerOf a = some h)
    (hn : h ∉ (step env w a).sent.map Prod.fst) :
    (step env w a).calls = w.calls ∧ (step env w a).store = w.store ∧ (step env w a).sessions = w.sessions := by
  have hold : h ∉ w.sent.map Prod.fst := fun hm =>
    hn (((sent_step env w a).sublist.map Prod.fst).subset hm)
  have hs := gStep env w a
  generalize step env w a = w' at hs hn
  cases hs with
  | @serve _ _ x _ _ _ hx hr hs =>
    cases ha
    -- A request that changes calls is one that has been sent.
    have hact : (∀ call, x.request ≠ some (.create call)) ∧ ∀ c f, x.request ≠ some (.finalize c f) := by
      refine ⟨fun call e => hold (hw h x hx ?_), fun c f e => hold (hw h x hx ?_)⟩ <;>
        unfold hasActed <;> rw [e, Bool.or_true]
    cases hs with
    | created => exact absurd hr (hact.1 _)
    | finalized => exact absurd hr (hact.2 _ _)
    | _ => exact ⟨rfl, rfl, rfl⟩
  | create => cases ha; exact absurd List.mem_cons_self hn
  | finalize => cases ha; exact absurd List.mem_cons_self hn
  | started hx hp =>
    cases ha
    exact absurd (hw h _ hx (by unfold hasActed; rw [hp]; rfl)) hold
  | cleaned hx hp =>
    cases ha
    exact absurd (hw h _ hx (by unfold hasActed; rw [hp]; rfl)) hold
  | restart | tick => cases ha
  | _ => exact ⟨rfl, rfl, rfl⟩

theorem quiet_reply {reply : Reply} (hr : isQuiet reply = true) :
    (∃ callId, reply = .ok .duplicate callId) ∨ (∃ callId, reply = .ok .ignored callId) ∨
      ∃ code detail, reply = .httpException code detail := by
  cases reply with
  | ok status callId =>
    cases status with
    | sessionStarted => cases hr
    | sessionCleaned => cases hr
    | duplicate => exact .inl ⟨callId, rfl⟩
    | ignored => exact .inr (.inl ⟨callId, rfl⟩)
  | httpException code detail => exact .inr (.inr ⟨code, detail, rfl⟩)

/-- At most one effect per event. In every run of any number of gateway
processes, with failures and restarts anywhere, at most one request of
`calls.create` or `calls.finalize` is sent for a `(CallSid, EventType)`; a
delivery that has sent none is answered as duplicate or ignored or with an
error, and no step of it changes a call, a session or a mapping. -/
theorem at_most_one_effect (env : Env) (now : Time) (as : List Action) :
    (∀ key, ((run (step env) (.init now) as).sent.map Prod.snd).count key ≤ 1) ∧
    ∀ h, h ∉ (run (step env) (.init now) as).sent.map Prod.fst →
      (∀ x reply, (run (step env) (.init now) as).handlers h = some x → x.phase = .returned reply →
        (∃ callId, reply = .ok .duplicate callId) ∨ (∃ callId, reply = .ok .ignored callId) ∨
          ∃ code detail, reply = .httpException code detail) ∧
      ∀ p a, p ++ [a] <+: as → handlerOf a = some h →
        (step env (run (step env) (.init now) p) a).calls = (run (step env) (.init now) p).calls ∧
        (step env (run (step env) (.init now) p) a).store = (run (step env) (.init now) p).store ∧
        (step env (run (step env) (.init now) p) a).sessions = (run (step env) (.init now) p).sessions := by
  refine ⟨List.nodup_iff_count_le_one.mp (once_run env now as).nodup, fun h hn => ⟨fun x reply hx hp => ?_,
    fun p a hp ha => ?_⟩⟩
  · refine quiet_reply ?_
    cases hr : isQuiet reply with
    | true => rfl
    | false =>
      refine absurd (acted_run env now as h x hx ?_) hn
      unfold hasActed
      rw [hp]
      dsimp only
      rw [hr]; rfl
  · refine unchanged_step (acted_run env now p) ha fun hm => hn ?_
    obtain ⟨q, rfl⟩ := hp
    rw [run_append, run_concat]
    exact ((sent_run env _ q).sublist.map Prod.fst).subset hm

end CallingAgent.Proof.Gateway
