import CallingAgent.Proof.Gateway.Once

/-!
# Ids and what stands behind them

Facts of every run, whatever fails or is restarted: the ids of jobs and calls
are ids that `uuid4` has given out, so the next one is new; a call that is
mapped in a call store is in the table (`Backed`); and an event is recorded
exactly if a request to record it has been served (`recorded_iff`).
-/

namespace CallingAgent.Proof.Gateway

open CallingAgent.Framework CallingAgent.Impl CallingAgent.Impl.Calls CallingAgent.Impl.Exotel
open CallingAgent.Impl.Jobs (CallJobs EventCreateRequest insertJob newJob hasPair)
open CallingAgent.Proof.Jobs (insertJob_eq_some)

/-- `c` is an id that `uuid4` has given out. -/
def Issued (env : Env) (w : World) (c : String) : Prop := ∃ i < w.issued, (env.uuid4 i).1 = c

/-- The phase of a handler that waits for a request. -/
def requestPhase : ApiRequest → Phase
  | .record _ => .recording
  | .resolve number => .resolving number
  | .create call => .creating call
  | .finalize c f => .finalizing c f

theorem resolve_of_phase {request : ApiRequest} {number : String} (h : requestPhase request = .resolving number) :
    request = .resolve number := by
  cases request with
  | resolve => rw [Phase.resolving.inj h]
  | _ => cases h

theorem create_of_phase {request : ApiRequest} {call : CallCreateRequest}
    (h : requestPhase request = .creating call) : request = .create call := by
  cases request with
  | create => rw [Phase.creating.inj h]
  | _ => cases h

theorem finalize_of_phase {request : ApiRequest} {c : CallId} {f : FinalizeRequest}
    (h : requestPhase request = .finalizing c f) : request = .finalize c f := by
  cases request with
  | finalize => rw [(Phase.finalizing.inj h).1, (Phase.finalizing.inj h).2]
  | _ => cases h

/-- What stands behind a handler: its request asks for an id that was given out
and is the one it waits for, and a call that it has created is there. -/
structure HandlerBacked (env : Env) (w : World) (x : Handler) : Prop where
  issued : ∀ {call}, x.request = some (.create call) → Issued env w call.callId
  awaits : isWaiting x.phase = true → ∀ {request}, x.request = some request → x.phase = requestPhase request
  born : ∀ {call}, x.phase = .creating call → x.answer = some .created → w.calls.lookup call.callId ≠ none

structure Backed (env : Env) (w : World) : Prop where
  jobs : ∀ r ∈ w.jobs.rows, Issued env w r.jobId
  calls : ∀ r ∈ w.calls.rows, Issued env w r.callId
  entries : ∀ {place p c}, w.store place p = some c → w.calls.lookup c ≠ none
  handlers : ∀ {h x}, w.handlers h = some x → HandlerBacked env w x

variable {env : Env} {w w' : World} {h : Nat} {x y : Handler}

/-- The id that `uuid4` gives out next is new. -/
theorem not_issued (env : Env) (w : World) : ¬ Issued env w (env.uuid4 w.issued).1 := by
  rintro ⟨i, hi, e⟩
  have := env.uuid4_injective (Subtype.ext e)
  omega

theorem Issued.mono {c : String} (hc : Issued env w c) (hi : w.issued ≤ w'.issued) : Issued env w' c := by
  obtain ⟨i, hlt, e⟩ := hc
  exact ⟨i, by omega, e⟩

theorem Backed.jobs_of_eq (hw : Backed env w) (hj : w'.jobs = w.jobs) (hi : w.issued ≤ w'.issued) :
    ∀ r ∈ w'.jobs.rows, Issued env w' r.jobId := fun r hr => by
  rw [hj] at hr
  exact (hw.jobs r hr).mono hi

theorem Backed.calls_of_eq (hw : Backed env w) (hc : w'.calls = w.calls) (hi : w.issued ≤ w'.issued) :
    ∀ r ∈ w'.calls.rows, Issued env w' r.callId := fun r hr => by
  rw [hc] at hr
  exact (hw.calls r hr).mono hi

theorem Backed.next (hw : Backed env w) (hi : w.issued ≤ w'.issued)
    (hj : ∀ r ∈ w'.jobs.rows, Issued env w' r.jobId) (hc : ∀ r ∈ w'.calls.rows, Issued env w' r.callId)
    (hl : ∀ {c}, w.calls.lookup c ≠ none → w'.calls.lookup c ≠ none)
    (hs : ∀ {place p c}, w'.store place p = some c → w.store place p = some c ∨ w'.calls.lookup c ≠ none)
    (hh : ∀ {h y}, w'.handlers h = some y → w.handlers h = some y ∨ HandlerBacked env w' y) : Backed env w' := by
  refine ⟨hj, hc, fun h => ?_, fun h => ?_⟩
  · rcases hs h with h | h
    · exact hl (hw.entries h)
    · exact h
  · rcases hh h with h | h
    · obtain ⟨h1, h2, h3⟩ := hw.handlers h
      exact ⟨fun e => (h1 e).mono hi, h2, fun e ha => hl (h3 e ha)⟩
    · exact h

/-- A step of one handler that keeps the tables. -/
theorem Backed.set (hw : Backed env w) (e : w'.handlers = Function.update w.handlers h (some y))
    (hj : w'.jobs = w.jobs) (hc : w'.calls = w.calls) (hi : w.issued ≤ w'.issued)
    (hs : ∀ {place p c}, w'.store place p = some c → w.store place p = some c ∨ w.calls.lookup c ≠ none)
    (hy : HandlerBacked env w' y) : Backed env w' := by
  refine hw.next hi (hw.jobs_of_eq hj hi) (hw.calls_of_eq hc hi) (fun h => by rw [hc]; exact h)
    (fun h => by rw [hc]; exact hs h) fun {h' z} hz => ?_
  rw [e] at hz
  rcases update_cases hz with ⟨rfl, rfl⟩ | ⟨-, hz⟩
  · exact .inr hy
  · exact .inl hz

/-- A handler that creates no call. -/
theorem backed_of_phase (hr : ∀ call, x.request ≠ some (.create call)) (hp : ∀ call, x.phase ≠ .creating call)
    (ha : ∀ {request}, x.request = some request → x.phase = requestPhase request) : HandlerBacked env w x :=
  ⟨fun e => absurd e (hr _), fun _ _ e => ha e, fun e => absurd e (hp _)⟩

/-- A handler that has returned or is gone. -/
theorem HandlerBacked.done (hx : HandlerBacked env w x) (hi : w.issued ≤ w'.issued) (hr : y.request = x.request)
    (hp : isWaiting y.phase = false) : HandlerBacked env w' y := by
  refine ⟨fun e => (hx.issued (by rw [← hr]; exact e)).mono hi, fun h => ?_, fun e => ?_⟩
  · rw [hp] at h; cases h
  · rw [e] at hp; cases hp

/-- A handler whose request has been served. -/
theorem HandlerBacked.served (hx : HandlerBacked env w x) {request : ApiRequest} {answer : ApiAnswer}
    (hr : x.request = some request)
    (hb : ∀ call, request = .create call → answer = .created → w'.calls.lookup call.callId ≠ none)
    (ha : answer = .created → ∃ call, request = .create call) :
    HandlerBacked env w' { x with request := none, answer := some answer } := by
  refine ⟨fun e => (by cases e), fun _ _ e => (by cases e), fun {call} hp e => ?_⟩
  obtain rfl := Option.some.inj e
  obtain ⟨call', rfl⟩ := ha rfl
  have hq := hx.awaits (by rw [show x.phase = _ from hp]; rfl) hr
  obtain rfl : call = call' := Phase.creating.inj (hp.symm.trans hq)
  exact hb call rfl rfl

/-- The API answers, and keeps the calls. -/
theorem Backed.answered (hw : Backed env w) (hx : w.handlers h = some x) {request : ApiRequest}
    {answer : ApiAnswer} (hr : x.request = some request)
    (e : w'.handlers = Function.update w.handlers h (some { x with request := none, answer := some answer }))
    (hj : ∀ r ∈ w'.jobs.rows, Issued env w' r.jobId) (hc : w'.calls = w.calls) (hs : w'.store = w.store)
    (hi : w.issued ≤ w'.issued) (ha : answer ≠ .created) : Backed env w' := by
  refine hw.next hi hj (hw.calls_of_eq hc hi) (fun h => by rw [hc]; exact h)
    (fun h => .inl (by rw [← hs]; exact h)) fun {h' z} hz => ?_
  rw [e] at hz
  rcases update_cases hz with ⟨rfl, rfl⟩ | ⟨-, hz⟩
  · exact .inr ((hw.handlers hx).served hr (fun _ _ h => absurd h ha) fun h => absurd h ha)
  · exact .inl hz

/-- The API has created a call. -/
theorem Backed.created (hw : Backed env w) (hx : w.handlers h = some x) {call : CallCreateRequest}
    {calls : CallTable} (hr : x.request = some (.create call)) (hi : w.calls.insert (newCall call) = some calls)
    (e : w'.handlers = Function.update w.handlers h (some { x with request := none, answer := some .created }))
    (hj : w'.jobs = w.jobs) (hc : w'.calls = calls) (hs : w'.store = w.store) (hissued : w'.issued = w.issued) :
    Backed env w' := by
  have hle : w.issued ≤ w'.issued := le_of_eq hissued.symm
  have hlookup : ∀ c, w'.calls.lookup c = if call.callId = c then some (newCall call) else w.calls.lookup c :=
    fun c => by rw [hc]; exact Table.lookup_insert hi c
  refine hw.next hle (hw.jobs_of_eq hj hle) (fun r hr => ?_) (fun {c} h => ?_)
    (fun h => .inl (by rw [← hs]; exact h)) fun {h' z} hz => ?_
  · rw [hc] at hr
    rcases (Table.mem_insert hi).mp hr with hr | rfl
    · exact (hw.calls r hr).mono hle
    · exact ((hw.handlers hx).issued (by assumption)).mono hle
  · rw [hlookup]
    split
    · exact Option.some_ne_none _
    · exact h
  · rw [e] at hz
    rcases update_cases hz with ⟨rfl, rfl⟩ | ⟨-, hz⟩
    · refine .inr ((hw.handlers hx).served hr (fun call' e' _ => ?_) fun _ => ⟨call, rfl⟩)
      cases e'
      rw [hlookup, if_pos rfl]; exact Option.some_ne_none _
    · exact .inl hz

/-- The API has finalized a call. -/
theorem Backed.finalized (hw : Backed env w) (hx : w.handlers h = some x) {c : CallId} {f : FinalizeRequest}
    {u : Update Call.callId} (hr : x.request = some (.finalize c f))
    (e : w'.handlers = Function.update w.handlers h (some { x with request := none, answer := some .finalized }))
    (hj : w'.jobs = w.jobs) (hc : w'.calls = w.calls.update u) (hs : w'.store = w.store)
    (hissued : w'.issued = w.issued) : Backed env w' := by
  have hle : w.issued ≤ w'.issued := le_of_eq hissued.symm
  refine hw.next hle (hw.jobs_of_eq hj hle) (fun r hr => ?_) (fun h => ?_)
    (fun h => .inl (by rw [← hs]; exact h)) fun {h' z} hz => ?_
  · rw [hc] at hr
    obtain ⟨r₀, hr₀, rfl⟩ := List.mem_map.mp hr
    rw [u.row_key r₀]; exact (hw.calls r₀ hr₀).mono hle
  · rw [hc, Table.lookup_update]
    exact fun e => h (Option.map_eq_none_iff.mp e)
  · rw [e] at hz
    rcases update_cases hz with ⟨rfl, rfl⟩ | ⟨-, hz⟩
    · exact .inr ((hw.handlers hx).served hr (fun _ e' => by cases e') nofun)
    · exact .inl hz

theorem storeGet_store {inst : Nat} {p : String} {c : CallId} (h : w.storeGet env inst p = some c) :
    w.store (env.place inst) p = some c := (Option.filter_eq_some_iff.mp h).1

theorem backed_step (hw : Backed env w) (a : Action) : Backed env (step env w a) := by
  have hs := gStep env w a
  generalize step env w a = w' at hs
  cases hs with
  | skip => exact hw
  | tick =>
    exact hw.next (le_refl _) (hw.jobs_of_eq rfl (le_refl _)) (hw.calls_of_eq rfl (le_refl _)) id
      (fun h => .inl (tick_store h)) .inl
  | deliver hx =>
    exact hw.set rfl rfl rfl (le_refl _) .inl (backed_of_phase nofun nofun fun e => by cases e; rfl)
  | serve hx hr hs =>
    have hle : ∀ r ∈ w.jobs.rows, Issued env { w with issued := w.issued + 1 } r.jobId := fun r hr =>
      (hw.jobs r hr).mono (Nat.le_succ _)
    cases hs with
    | rejected => exact hw.answered hx hr rfl (hw.jobs_of_eq rfl (le_refl _)) rfl rfl (le_refl _) (by decide)
    | @new _ jobs hi =>
      refine hw.answered hx hr rfl (fun r hr => ?_) rfl rfl (Nat.le_succ _) (by decide)
      rcases (Table.mem_insert (insertJob_eq_some hi).1).mp hr with hr | rfl
      · exact hle r hr
      · exact ⟨w.issued, Nat.lt_succ_self _, rfl⟩
    | conflict _ ha =>
      exact hw.answered hx hr rfl hle rfl rfl (Nat.le_succ _) (by rcases ha with rfl | rfl <;> decide)
    | resolved => exact hw.answered hx hr rfl (hw.jobs_of_eq rfl (le_refl _)) rfl rfl (le_refl _) nofun
    | unresolved => exact hw.answered hx hr rfl (hw.jobs_of_eq rfl (le_refl _)) rfl rfl (le_refl _) (by decide)
    | created hi => exact hw.created hx hr hi rfl rfl rfl rfl rfl
    | taken => exact hw.answered hx hr rfl (hw.jobs_of_eq rfl (le_refl _)) rfl rfl (le_refl _) (by decide)
    | finalized => exact hw.finalized hx hr rfl rfl rfl rfl rfl
    | again => exact hw.answered hx hr rfl (hw.jobs_of_eq rfl (le_refl _)) rfl rfl (le_refl _) (by decide)
    | missing => exact hw.answered hx hr rfl (hw.jobs_of_eq rfl (le_refl _)) rfl rfl (le_refl _) (by decide)
  | reply _ hx =>
    exact hw.set rfl rfl rfl (le_refl _) .inl ((hw.handlers hx).done (le_refl _) rfl rfl)
  | resolve =>
    exact hw.set rfl rfl rfl (le_refl _) .inl (backed_of_phase nofun nofun fun e => by cases e; rfl)
  | create =>
    refine hw.set rfl rfl rfl (Nat.le_succ _) .inl ⟨fun e => ?_, fun _ _ e => ?_, fun _ e => ?_⟩
    · cases e; exact ⟨w.issued, Nat.lt_succ_self _, rfl⟩
    · cases e; rfl
    · cases e
  | finalize =>
    exact hw.set rfl rfl rfl (le_refl _) .inl (backed_of_phase nofun nofun fun e => by cases e; rfl)
  | started hx hp ha =>
    refine hw.set rfl rfl rfl (le_refl _) (fun h => ?_) ((hw.handlers hx).done (le_refl _) rfl rfl)
    rw [show World.store (World.setHandler _ _ _) = (w.storePut _ _ _).store from rfl, storePut_store] at h
    split at h
    · obtain rfl := Option.some.inj h
      exact .inr ((hw.handlers hx).born hp ha)
    · exact .inl h
  | cleaned hx =>
    refine hw.set rfl rfl rfl (le_refl _) (fun h => ?_) ((hw.handlers hx).done (le_refl _) rfl rfl)
    rw [show World.store (World.setHandler _ _ _) = (w.storePut _ _ _).store from rfl, storePut_store] at h
    split at h
    · cases h
    · exact .inl h
  | @restart inst =>
    refine hw.next (le_refl _) (hw.jobs_of_eq rfl (le_refl _)) (hw.calls_of_eq rfl (le_refl _)) id
      (fun {place p c} h => .inl ?_) fun {h y} hy => ?_
    · have hs : Function.update w.store (.process inst) (fun _ => none) place p = some c := h
      by_cases hpl : place = .process inst
      · subst hpl; rw [Function.update_self] at hs; cases hs
      · rwa [Function.update_of_ne hpl] at hs
    · obtain ⟨x, hx, rfl⟩ := Option.map_eq_some_iff.mp hy
      rcases restart_cases inst x with e | e <;> rw [e]
      · exact .inl hx
      · exact .inr ((hw.handlers hx).done (le_refl _) rfl rfl)

theorem backed_init (env : Env) (now : Time) : Backed env (.init now) where
  jobs r hr := by cases hr
  calls r hr := by cases hr
  entries h := by cases h
  handlers h := by cases h

theorem backed_run (env : Env) (now : Time) (as : List Action) : Backed env (run (step env) (.init now) as) :=
  run_inv (backed_init env now) (fun _ a h => backed_step h a) as

/-! ## What is recorded -/

/-- A step serves a request to record an event. -/
def Records (env : Env) (w : World) (a : Action) (key : String × String) : Prop :=
  ∃ h session x body, a = .serve h session ∧ w.handlers h = some x ∧
    x.request = some (.record (some body)) ∧ eventKey env x.payload = key

/-- An event of a callback is not inserted exactly if it is recorded. -/
theorem insertJob_eq_none_iff (hw : Backed env w) {payload : ExotelCallback} {body : EventCreateRequest}
    (hb : env.recordBody payload = some body) (calls : List CallId) :
    insertJob calls w.jobs (newJob body (env.uuid4 w.issued).1 w.now) = none ↔
      Recorded w (eventKey env payload) := by
  obtain ⟨hp, ht, hc⟩ := recordBody_key hb
  have hnew : w.jobs.lookup (env.uuid4 w.issued).1 = none :=
    Table.lookup_eq_none.mpr fun r hr e => not_issued env w (e ▸ hw.jobs r hr)
  obtain ⟨jobs, hi⟩ := Table.exists_insert (r := newJob body (env.uuid4 w.issued).1 w.now) hnew
  have hany : w.jobs.rows.any (hasPair payload.providerCallId (env.eventType payload)) = true ↔
      Recorded w (eventKey env payload) := List.any_eq_true
  unfold insertJob
  rw [show (newJob body (env.uuid4 w.issued).1 w.now).providerCallId = some payload.providerCallId from hp,
    show (newJob body (env.uuid4 w.issued).1 w.now).callId = none from hc,
    show (newJob body (env.uuid4 w.issued).1 w.now).eventType = env.eventType payload from ht, hi,
    Option.any_some, Option.any_none, ← hany]
  cases w.jobs.rows.any (hasPair payload.providerCallId (env.eventType payload)) <;> simp

theorem recorded_congr (hj : w'.jobs = w.jobs) {key : String × String} :
    Recorded w' key ↔ Recorded w key := by
  unfold Recorded
  rw [hj]

/-- An event is recorded after a step if it was before or the step records it. -/
theorem recorded_step (ho : Once env w) (hb : Backed env w) (a : Action) (key : String × String) :
    Recorded (step env w a) key ↔ Recorded w key ∨ Records env w a key := by
  have hs := gStep env w a
  generalize step env w a = w' at hs
  have hno : (∀ h session, a ≠ .serve h session) → ¬ Records env w a key := by
    rintro hn ⟨h, session, -, -, rfl, -⟩
    exact hn h session rfl
  cases hs with
  | skip hidle =>
    refine (or_iff_left ?_).symm
    rintro ⟨h, session, x, body, rfl, hx, hr, -⟩
    rw [hidle h session x rfl hx] at hr; cases hr
  | @serve h session x request w' answer hx hr hs =>
    rw [show Recorded (w'.setHandler h _) key ↔ Recorded w' key from Iff.rfl]
    -- Serving anything else records nothing.
    have hother : (∀ body, request ≠ .record (some body)) → w'.jobs = w.jobs →
        (Recorded w' key ↔ Recorded w key ∨ Records env w (.serve h session) key) := fun hn hj => by
      rw [recorded_congr hj]
      refine (or_iff_left ?_).symm
      rintro ⟨h', session', x', body, e, hx', hr', -⟩
      cases e
      rw [hx] at hx'; cases hx'
      exact hn body (Option.some.inj (hr.symm.trans hr'))
    have hthis : ∀ body, request = .record (some body) → env.recordBody x.payload = some body := fun body e =>
      ((ho.asks hx).own _ (e ▸ hr)).symm
    cases hs with
    | @new body jobs hi =>
      rw [recorded_new (hthis body rfl) hi rfl]
      refine or_congr_right ⟨fun e => ⟨h, session, x, body, rfl, hx, hr, e⟩, ?_⟩
      rintro ⟨h', session', x', body', e, hx', -, hk⟩
      cases e
      rw [hx] at hx'; cases hx'
      exact hk
    | @conflict body answer hi ha =>
      have hrec := (insertJob_eq_none_iff hb (hthis body rfl) _).mp hi
      rw [show Recorded { w with issued := w.issued + 1 } key ↔ Recorded w key from Iff.rfl]
      refine ⟨.inl, ?_⟩
      rintro (hk | ⟨h', session', x', body', e, hx', hr', rfl⟩)
      · exact hk
      · cases e
        rw [hx] at hx'; cases hx'
        exact hrec
    | _ => exact hother (fun _ e => by cases e) rfl
  | reply ha =>
    refine (or_iff_left (hno fun h session e => ?_)).symm
    rcases ha with ⟨rfl, -⟩ | ⟨rfl, -⟩ <;> cases e
  | _ => exact (or_iff_left (hno nofun)).symm

/-- An event is recorded exactly if a request to record it has been served. -/
theorem recorded_iff (env : Env) (now : Time) (as : List Action) (key : String × String) :
    Recorded (run (step env) (.init now) as) key ↔
      ¬ AllSteps (step env) (fun w a => ¬ Records env w a key) (.init now) as :=
  run_iff_not_allSteps (I := fun w => Once env w ∧ Backed env w) (P := fun w => Recorded w key)
    ⟨once_init env now, backed_init env now⟩ (fun ⟨_, hr, _⟩ => by cases hr)
    (fun _ a h => ⟨once_step h.1 a, backed_step h.2 a⟩) (fun _ a h => recorded_step h.1 h.2 a key) as

end CallingAgent.Proof.Gateway
