import CallingAgent.Impl.IntegrationService
import CallingAgent.Proof.Jobs.Creation
import CallingAgent.Proof.Worker.Acknowledge

/-!
# What is delivered

An event passes through a row of `call_jobs`, the answer to a claim and the request of
a worker before the integration service has it. None of them changes what the event
says: whatever is lost or repeated on the way, `integration.process` is called with the
tenant, the call, the type and the payload of the `create_event` that made the job
(`faithful_delivery`). So what the integration service takes or refuses is the event
itself, and every `completed` job is one that it takes (`completed_accepted`).

A worker knows of a job only what its latest reply has granted (`meets_iteration`),
and that is a row as it was (`Unaltered`).
-/

namespace CallingAgent.Proof.Faithful

open CallingAgent.Framework CallingAgent.Impl CallingAgent.Impl.RunLoop CallingAgent.Impl.Workers
open CallingAgent.Proof.Jobs CallingAgent.Proof.Workers

/-! ## The loop -/

/-- What a worker sends to the integration service of a job. -/
def requestOf (job : Job) : ProcessEventRequest := ⟨job.jobId, job.tenantId, job.callId, job.eventType, job.payload⟩

/-- `integration.process` is called for the job that the latest reply has granted, as
that reply had it. -/
def Delivers (g : Option Job) : Query → Prop
  | .process body => g.map requestOf = some body
  | _ => True

def latest (_ : Option Job) (q : Query) (r : Reply q) : Option Job := granted q r

def NotProcess : Query → Prop
  | .process _ => False
  | _ => True

/-- A program of the worker whose calls are in order, whatever has been granted. -/
abbrev Sound {α : Type} (p : Worker α) : Prop := Prog.Safe Delivers latest p

theorem sound_ask (q : Query) (h : NotProcess q) : Sound (Prog.ask q : Worker (Reply q)) := by
  refine Prog.safe_ask fun g => ?_
  cases q with
  | process body => exact h.elim
  | _ => trivial

theorem sound_request {α : Type} (method path : String) (r : Http α) : Sound (request method path r) := by
  cases r with
  | none => exact Prog.safe_throw _
  | some response => exact Prog.safe_pure response

theorem sound_raiseForStatus {α : Type} (response : Response α) (message : String) :
    Sound (response.raiseForStatus message) := by
  unfold Response.raiseForStatus
  split
  · exact Prog.safe_pure ()
  · exact Prog.safe_throw _

theorem sound_validate {α : Type} (response : Response α) : Sound response.validate := by
  unfold Response.validate
  split
  · exact Prog.safe_pure _
  · exact Prog.safe_throw _

theorem sound_complete (jobId : JobId) : Sound (complete jobId) :=
  (sound_ask (.complete jobId) trivial).bind fun r =>
    (sound_request _ _ r).bind fun response => sound_raiseForStatus response _

theorem sound_fail (jobId : JobId) (error : String) (retry : Bool) : Sound (fail jobId error retry) :=
  (sound_ask (.fail jobId error retry) trivial).bind fun r => (sound_request _ _ r).bind fun response =>
    (sound_raiseForStatus response _).bind fun _ => sound_validate response

theorem sound_listEligible (statuses : List String) (limit : Nat) : Sound (listEligible statuses limit) :=
  (sound_ask (.list statuses limit) trivial).bind fun r => (sound_request _ _ r).bind fun response =>
    (sound_raiseForStatus response _).bind fun _ => sound_validate response

theorem sound_reap : Sound reap :=
  (sound_ask .reap trivial).bind fun r => (sound_request _ _ r).bind fun response =>
    (sound_raiseForStatus response _).bind fun _ => sound_validate response

theorem sound_exceptJobsApiError {p handler : Worker Unit} (hp : Sound p) (hh : Sound handler) :
    Sound (exceptJobsApiError p handler) := by
  refine hp.tryCatch fun e => ?_
  split
  · exact hh
  · exact Prog.safe_throw e

/-- The job that `jobs.claim` returns is the one that its answer had. -/
theorem meets_claim (jobId : JobId) (g : Option Job) :
    (claim jobId).Meets Delivers latest (fun g x => ∀ job, x = .ok (some job) → g = some job) g := by
  unfold claim
  rw [Prog.meets_ask_bind]
  refine ⟨trivial, fun r => ?_⟩
  rw [Prog.meets_bind]
  cases r with
  | none => intro job h; cases h
  | some response =>
    show Prog.Meets Delivers latest _
      (if response.statusCode = 404 ∨ response.statusCode = 409 then pure none else _) _
    split
    · intro job h; cases h
    · unfold Response.raiseForStatus
      split
      · rename_i hs
        unfold Response.validate
        split
        · rename_i job hb
          intro job' h
          cases h
          show granted (.claim jobId) (some response) = some job
          simp only [granted, hs, and_self, if_true, hb]
        · intro job h; cases h
      · intro job h; cases h

/-- One call, which is in order, and then a program that is. -/
theorem meets_process {job : Job} {g : Option Job} (hg : g = some job) :
    (process (requestOf job)).Meets Delivers latest (fun _ _ => True) g := by
  unfold process
  rw [Prog.meets_ask_bind]
  refine ⟨by rw [hg]; rfl, fun r => ?_⟩
  cases r with
  | none => trivial
  | some response =>
    dsimp only
    split
    · trivial
    · split
      · trivial
      · exact sound_validate response _

theorem meets_integrationError? {p : Worker ProcessResult} {g : Option Job}
    (hp : p.Meets Delivers latest (fun _ _ => True) g) :
    (integrationError? p).Meets Delivers latest (fun _ _ => True) g := by
  unfold integrationError?
  rw [Prog.meets_tryCatch, Prog.meets_bind]
  refine hp.mono fun g x _ => ?_
  cases x with
  | ok result => trivial
  | error e => cases e <;> trivial

theorem sound_processOne (jobId : JobId) : Sound (processOne jobId) := by
  intro g
  unfold processOne
  rw [Prog.meets_bind]
  refine (meets_claim jobId g).mono fun g x hx => ?_
  cases x with
  | error e => trivial
  | ok job =>
    cases job with
    | none => trivial
    | some job =>
      dsimp only
      rw [Prog.meets_bind]
      refine (meets_integrationError? (meets_process (hx job rfl))).mono fun g x _ => ?_
      cases x with
      | error e => trivial
      | ok exc =>
        cases exc with
        | none => exact sound_exceptJobsApiError (sound_complete _) (Prog.safe_pure ()) g
        | some exc =>
          exact sound_exceptJobsApiError ((sound_fail _ _ _).bind fun _ => Prog.safe_pure ()) (Prog.safe_pure ()) g

theorem sound_processEligible (jobs : List Job) : Sound (processEligible jobs) := by
  induction jobs with
  | nil => exact Prog.safe_pure ()
  | cons eligible rest ih =>
    refine (sound_ask .shutdown trivial).bind fun shutdown => ?_
    split
    · exact Prog.safe_pure ()
    · exact (sound_processOne _).bind fun _ => ih

theorem sound_poll : Sound poll :=
  sound_exceptJobsApiError ((sound_listEligible _ _).bind sound_processEligible) (sound_ask .sleep trivial)

theorem sound_work (popped : Except Unit (Option JobId)) : Sound (work popped) := by
  unfold work
  split
  · exact sound_exceptJobsApiError (sound_processOne _) (Prog.safe_pure ())
  · exact sound_poll
  · exact (sound_ask .sleep trivial).bind fun _ => sound_poll

theorem sound_reapIfDue (cfg : Config) (lastReap now : Time) : Sound (reapIfDue cfg lastReap now) := by
  unfold reapIfDue
  split
  · exact (sound_exceptJobsApiError (sound_reap.bind fun _ => Prog.safe_pure ()) (Prog.safe_pure ())).bind
      fun _ => Prog.safe_pure now
  · exact Prog.safe_pure lastReap

theorem sound_iteration (cfg : Config) (lastReap : Time) : Sound (iteration cfg lastReap) := by
  refine (sound_ask .shutdown trivial).bind fun shutdown => ?_
  split
  · exact Prog.safe_pure none
  · exact (sound_ask .monotonic trivial).bind fun now => (sound_reapIfDue cfg lastReap now).bind fun lastReap =>
      (sound_ask .blpop trivial).bind fun popped => (sound_work popped).bind fun _ => Prog.safe_pure (some lastReap)

/-- A worker that has its program in order, with what its latest reply granted. -/
def Holding (P : Job → Prop) (p : Worker (Option Time)) : Prop :=
  ∃ g, p.Meets Delivers latest (fun _ _ => True) g ∧ ∀ job, g = some job → P job

theorem Holding.mono {P P' : Job → Prop} {p : Worker (Option Time)} (h : Holding P p) (hP : ∀ job, P job → P' job) :
    Holding P' p := by
  obtain ⟨g, hp, hg⟩ := h
  exact ⟨g, hp, fun job e => hP job (hg job e)⟩

theorem Holding.loop (cfg : Config) {P : Job → Prop} {p : Worker (Option Time)} (h : Holding P p) :
    Holding P (loop cfg p) := by
  obtain ⟨g, hp, hg⟩ := h
  refine ⟨g, ?_, hg⟩
  unfold RunLoop.loop
  split
  · exact sound_iteration cfg _ g
  · exact hp

/-- What a worker sends is what it holds. -/
theorem Holding.process {P : Job → Prop} {body : ProcessEventRequest} {k : Http ProcessResult → Worker (Option Time)}
    (h : Holding P (.call (.process body) k)) : ∃ job, P job ∧ body = requestOf job := by
  obtain ⟨g, hp, hg⟩ := h
  obtain ⟨job, rfl, e⟩ := Option.map_eq_some_iff.mp hp.1
  exact ⟨job, hg job rfl, e.symm⟩

/-! ## Steps -/

/-- A row that is, but for its progress, still the row of its job. -/
def Kept (s : Jobs.State) (row : CallJob) : Prop := ∃ r, s.job row.jobId = some r ∧ SameJob row r

theorem Kept.after {s : Jobs.State} {row : CallJob} (h : Kept s row) (b : Jobs.Action) : Kept (Jobs.step s b) row := by
  obtain ⟨r, hr, hs⟩ := h
  obtain ⟨r', hr', hstep⟩ := rowStep hr b
  exact ⟨r', hr', hs.trans hstep.same⟩

/-- A step of the API creates a job only if that is the action. -/
theorem api_step (cfg : Config) (w : World) (a : Action) :
    (step cfg w a).api = w.api ∨ ∃ b, (step cfg w a).api = Jobs.step w.api b ∧
      ∀ jobId body, b = .create jobId body → a = .create jobId body := by
  cases a with
  | tick d => exact .inr ⟨.tick d, rfl, fun _ _ e => by cases e⟩
  | addCall callId => exact .inr ⟨.addCall callId, rfl, fun _ _ e => by cases e⟩
  | create jobId body => exact .inr ⟨.create jobId body, rfl, fun _ _ e => by cases e; rfl⟩
  | update k => exact .inr ⟨.update k, rfl, fun _ _ e => by cases e⟩
  | request q => simp only [step]; split <;> exact .inl rfl
  | call i => simp only [step]; split <;> exact .inl rfl
  | reply i answer =>
    simp only [step]
    split
    · split <;> exact .inl rfl
    · exact .inl rfl
  | receive i text =>
    simp only [step]
    split
    · split <;> exact .inl rfl
    · exact .inl rfl
  | refresh k =>
    simp only [step]
    split
    · split <;> exact .inl rfl
    · exact .inl rfl
  | serve k =>
    simp only [step, World.serve]
    split
    · split
      · exact .inl rfl
      · rename_i jobId _ _; exact .inr ⟨.claim jobId, rfl, fun _ _ e => by cases e⟩
    · rename_i jobId _; exact .inr ⟨.completeRead k jobId, rfl, fun _ _ e => by cases e⟩
    · split
      · exact .inr ⟨.failRead k _ _, rfl, fun _ _ e => by cases e⟩
      · exact .inl rfl
    · exact .inr ⟨.reap, rfl, fun _ _ e => by cases e⟩
    · exact .inl rfl

theorem Kept.world {w : World} {row : CallJob} (h : Kept w.api row) (cfg : Config) (a : Action) :
    Kept (step cfg w a).api row := by
  rcases api_step cfg w a with e | ⟨b, e, -⟩
  · rw [e]; exact h
  · rw [e]; exact h.after b

/-- A row that answers a claim was read in some state. -/
theorem answered_step {cfg : Config} {w w' : World} (h : Moves cfg w w') {k : Nat} {q : Query} {row : CallJob}
    (hk : w'.exchanges[k]? = some { query := q, stage := .answered row }) :
    w.exchanges[k]? = some { query := q, stage := .answered row } ∨ ∃ jobId, w.api.job jobId = some row := by
  -- what is sent, or not yet answered, has no row
  have hset : ∀ {n : Nat} {q' : Query} {stage : Stage}, stage ≠ .answered row →
      (w.exchanges.set n { query := q', stage := stage })[k]? = some { query := q, stage := .answered row } →
      w.exchanges[k]? = some { query := q, stage := .answered row } := by
    intro n q' stage hne h
    rcases getElem?_set_cases h with ⟨-, e⟩ | ⟨-, h⟩
    · cases e; exact absurd rfl hne
    · exact h
  have hnew : ∀ {q' : Query}, (w.exchanges ++ [{ query := q', stage := .sent }])[k]? =
      some { query := q, stage := .answered row } →
      w.exchanges[k]? = some { query := q, stage := .answered row } := by
    intro q' h
    rcases getElem?_concat_cases h with h | ⟨-, e⟩
    · exact h
    · cases e
  cases h with
  | skip => exact .inl hk
  | api => exact .inl hk
  | request => exact .inl (hnew hk)
  | call => exact .inl (hnew hk)
  | resume => exact .inl hk
  | serve => exact .inl (hset (fun e => by cases e) hk)
  | claim => exact .inl (hset (fun e => by cases e) hk)
  | @refresh n jobId row' hn hr =>
    rcases getElem?_set_cases hk with ⟨-, e⟩ | ⟨-, hk⟩
    · cases e; exact .inr ⟨jobId, hr⟩
    · exact .inl hk

/-- A worker goes on with a reply that grants no job, or the row that answers its
claim. -/
def Granted (w : World) (q : Query) (r : Reply q) : Prop :=
  ∀ job, granted q r = some job → ∃ (k : Nat) (q' : Query) (row : CallJob),
    w.exchanges[k]? = some { query := q', stage := .answered row } ∧ job = jobOf row

theorem resume_prog (cfg : Config) (w : World) {i j : Nat} {q : Query} (r : Reply q)
    (k : Reply q → Worker (Option Time)) :
    ((w.resume cfg i q r k).workers j).prog = if j = i then loop cfg (k r) else (w.workers j).prog := by
  show (Function.update w.workers i _ j).prog = _
  by_cases e : j = i
  · subst e; rw [Function.update_self, if_pos rfl]
  · rw [Function.update_of_ne e, if_neg e]

theorem prog_step (cfg : Config) (w : World) (a : Action) (j : Nat) :
    ((step cfg w a).workers j).prog = (w.workers j).prog ∨
      ∃ (q : Query) (k : Reply q → Worker (Option Time)) (r : Reply q), (w.workers j).prog = .call q k ∧
        ((step cfg w a).workers j).prog = loop cfg (k r) ∧ Granted w q r := by
  have hresume : ∀ {i : Nat} {q : Query} {k : Reply q → Worker (Option Time)} {n : Option Nat} (r : Reply q),
      w.workers i = { prog := .call q k, request := n, waiting := true } → Granted w q r →
      ((w.resume cfg i q r k).workers j).prog = (w.workers j).prog ∨
        ∃ (q : Query) (k' : Reply q → Worker (Option Time)) (r' : Reply q), (w.workers j).prog = .call q k' ∧
          ((w.resume cfg i _ r k).workers j).prog = loop cfg (k' r') ∧ Granted w q r' := by
    intro i q k n r hi hr
    rw [resume_prog]
    split
    · rename_i e
      subst e
      exact .inr ⟨q, k, r, by rw [hi], rfl, hr⟩
    · exact .inl rfl
  cases a with
  | tick d => exact .inl rfl
  | addCall callId => exact .inl rfl
  | create jobId body => exact .inl rfl
  | update k => exact .inl rfl
  | request q => simp only [step]; split <;> exact .inl rfl
  | serve k =>
    simp only [step, World.serve]
    split
    · split <;> exact .inl rfl
    · exact .inl rfl
    · split <;> exact .inl rfl
    · exact .inl rfl
    · exact .inl rfl
  | refresh k =>
    simp only [step]
    split
    · split <;> exact .inl rfl
    · exact .inl rfl
  | call i =>
    simp only [step]
    split
    · rename_i q k n hi
      refine .inl ?_
      dsimp only
      by_cases e : j = i
      · subst e; rw [Function.update_self, hi]
      · rw [Function.update_of_ne e]
    · exact .inl rfl
  | reply i answer =>
    simp only [step]
    split
    · rename_i q k n hi
      split
      · exact .inl rfl
      · rename_i hg
        exact hresume _ hi fun job e => absurd (by rw [e]; rfl) hg
    · exact .inl rfl
  | receive i text =>
    simp only [step]
    split
    · rename_i jobId k n hi
      split
      · rename_i q row hn
        refine hresume _ hi fun job e => ⟨n, q, row, hn, ?_⟩
        simp only [granted, Nat.reduceLeDiff, and_self, if_true, Option.some.injEq] at e
        exact e.symm
      · exact .inl rfl
    · exact .inl rfl

/-- What the answers to claims and the workers have of a job is its row. -/
structure Unaltered (w : World) : Prop where
  answered : ∀ {k : Nat} {q : Query} {row : CallJob},
    w.exchanges[k]? = some { query := q, stage := .answered row } → Kept w.api row
  workers : ∀ i, Holding (fun job => ∃ row, job = jobOf row ∧ Kept w.api row) (w.workers i).prog

theorem unaltered_step {cfg : Config} {w : World} (h : Unaltered w) (a : Action) : Unaltered (step cfg w a) where
  answered hk := by
    rcases answered_step (moves cfg w a) hk with hk | ⟨jobId, hr⟩
    · exact (h.answered hk).world cfg a
    · have hkept : Kept w.api _ := ⟨_, Table.lookup_key hr ▸ hr, .refl _⟩
      exact hkept.world cfg a
  workers i := by
    have hmono : ∀ job, (∃ row, job = jobOf row ∧ Kept w.api row) →
        ∃ row, job = jobOf row ∧ Kept (step cfg w a).api row := fun job ⟨row, e, hk⟩ => ⟨row, e, hk.world cfg a⟩
    rcases prog_step cfg w a i with e | ⟨q, k, r, e, e', hr⟩
    · rw [e]; exact (h.workers i).mono hmono
    · obtain ⟨g, hp, -⟩ := h.workers i
      rw [e] at hp
      rw [e']
      refine Holding.loop cfg ⟨granted q r, hp.2 r, fun job hg => ?_⟩
      obtain ⟨n, q', row, hn, rfl⟩ := hr job hg
      exact hmono _ ⟨row, rfl, h.answered hn⟩

theorem unaltered_init (cfg : Config) (now : Time) : Unaltered (.init cfg now) where
  answered h := by simp [World.init] at h
  workers _ := ⟨none, sound_iteration cfg 0 none, fun _ h => by cases h⟩

/-- A row is the one that a `create_event` of the run has added, but for its progress. -/
theorem row_created {cfg : Config} {now : Time} {as : List Action} {jobId : JobId} {r : CallJob}
    (h : (run (step cfg) (.init cfg now) as).api.job jobId = some r) :
    ∃ p event, p ++ [.create jobId event] <+: as ∧
      (run (step cfg) (.init cfg now) p).api.job jobId = none ∧
      (run (step cfg) (.init cfg now) (p ++ [.create jobId event])).api.job jobId =
        some (Jobs.newJob event jobId (run (step cfg) (.init cfg now) p).api.now) ∧
      SameJob (Jobs.newJob event jobId (run (step cfg) (.init cfg now) p).api.now) r := by
  induction as using List.reverseRecOn generalizing r with
  | nil => cases h
  | append_singleton as a ih =>
    rw [run_concat] at h
    cases hs : (run (step cfg) (.init cfg now) as).api.job jobId with
    | some x =>
      obtain ⟨p, event, hp, hn, hc, hsame⟩ := ih hs
      refine ⟨p, event, hp.trans (List.prefix_append _ _), hn, hc, ?_⟩
      rcases api_step cfg (run (step cfg) (.init cfg now) as) a with e | ⟨b, e, -⟩
      · rw [e, hs] at h
        cases h
        exact hsame
      · obtain ⟨r', hr', hstep⟩ := rowStep hs b
        rw [e, hr'] at h
        cases h
        exact hsame.trans hstep.same
    | none =>
      rcases api_step cfg (run (step cfg) (.init cfg now) as) a with e | ⟨b, e, hb⟩
      · rw [e, hs] at h; cases h
      · rw [e] at h
        obtain ⟨event, rfl, rfl⟩ := job_create hs h
        obtain rfl := hb jobId event rfl
        refine ⟨as, event, List.prefix_refl _, hs, ?_, .refl _⟩
        rw [run_concat, e]
        exact h

theorem requestOf_created {event : Jobs.EventCreateRequest} {jobId : JobId} {now : Time} {r row : CallJob}
    (hborn : SameJob (Jobs.newJob event jobId now) r) (hsame : SameJob row r) :
    requestOf (jobOf row) =
      { jobId := jobId, tenantId := event.tenantId, callId := event.callId
        eventType := event.eventType, payload := event.payload } := by
  have hid : row.jobId = jobId := hsame.jobId.symm.trans hborn.jobId
  have ht : row.tenantId = event.tenantId := hsame.tenantId.symm.trans hborn.tenantId
  have hc : row.callId = event.callId := hsame.callId.symm.trans hborn.callId
  have he : row.eventType = event.eventType := hsame.eventType.symm.trans hborn.eventType
  have hp : row.payload = event.payload := hsame.payload.symm.trans hborn.payload
  rw [← hid, ← ht, ← hc, ← he, ← hp]
  rfl

/-- Faithful delivery. In every run of the workers, the job API and its other clients,
whenever a worker calls `integration.process`, it is with the job of a `create_event`
of the run that has added a row, and with the tenant, the call, the type and the
payload of that request. -/
theorem faithful_delivery (cfg : Config) (now : Time) (as : List Action) (i : Nat) (body : ProcessEventRequest)
    (h : ((run (step cfg) (.init cfg now) as).workers i).prog.next? = some (.process body)) :
    ∃ p event, p ++ [.create body.jobId event] <+: as ∧
      (run (step cfg) (.init cfg now) p).api.job body.jobId = none ∧
      ((run (step cfg) (.init cfg now) (p ++ [.create body.jobId event])).api.job body.jobId).isSome = true ∧
      body = { jobId := body.jobId, tenantId := event.tenantId, callId := event.callId
               eventType := event.eventType, payload := event.payload } := by
  have hinv : Unaltered (run (step cfg) (.init cfg now) as) :=
    run_inv (unaltered_init cfg now) (fun _ a h => unaltered_step h a) as
  obtain ⟨k, hprog⟩ := Prog.next?_eq_some.mp h
  have hw := hinv.workers i
  rw [hprog] at hw
  obtain ⟨_, ⟨row, rfl, r, hr, hsame⟩, rfl⟩ := hw.process
  obtain ⟨p, event, hp, hn, hc, hborn⟩ := row_created hr
  exact ⟨p, event, hp, hn, by rw [show (requestOf (jobOf row)).jobId = row.jobId from rfl, hc]; rfl,
    requestOf_created hborn hsame⟩

/-- An event of a tenant, with a payload. -/
def greeted : Jobs.EventCreateRequest where
  eventType := "greeted"
  tenantId := some "clinic"
  payload := some "{}"
  maxAttempts_range := Jobs.maxAttempts_range_none

theorem faithful_delivery_greeted :
    let as := .create "job" greeted :: completingRun.tail.take 10
    ((run (step ⟨60000000⟩) (.init ⟨60000000⟩ 0) as).workers 0).prog.next? =
        some (.process ⟨"job", some "clinic", none, "greeted", some "{}"⟩) ∧
      ∃ p event, p ++ [.create "job" event] <+: as ∧ event.tenantId = some "clinic" := by
  intro as
  have hnext : ((run (step ⟨60000000⟩) (.init ⟨60000000⟩ 0) as).workers 0).prog.next? =
      some (.process ⟨"job", some "clinic", none, "greeted", some "{}"⟩) := by decide
  obtain ⟨p, event, hp, -, -, e⟩ := faithful_delivery ⟨60000000⟩ 0 as 0 _ hnext
  exact ⟨hnext, p, event, hp, (congrArg ProcessEventRequest.tenantId e).symm⟩

/-! ## What is completed -/

section

open CallingAgent.Impl.IntegrationService CallingAgent.Impl.SharedSecret CallingAgent.Impl.Text

/-- The integration service takes the event of a request that has the worker's token. -/
structure Accepts (env : IntegrationService.Env) (body : ProcessEventRequest) : Prop where
  configured : env.internalApiToken ≠ ""
  token : env.workerToken = env.internalApiToken
  unforced : body.payload.any env.forcesFailure = false
  eventType : ∃ c ∈ body.eventType.toList, CallerRequest.isSpace c = false

/-- The guard lets through exactly a worker that has the token. -/
theorem guard_ok (env : IntegrationService.Env) :
    IntegrationService.verifyInternalToken env.internalApiToken env.header = .ok () ↔
      env.internalApiToken ≠ "" ∧ env.workerToken = env.internalApiToken := by
  unfold IntegrationService.verifyInternalToken internalGuard
  by_cases hs : env.internalApiToken = ""
  · simp [hs]
  · by_cases ht : env.workerToken = ""
    · simp [hs, ht, IntegrationService.Env.header, falsy, Ne.symm hs]
    · have hascii : isAscii env.internalApiToken = true ∨ env.workerToken ≠ env.internalApiToken := by
        by_cases e : env.workerToken = env.internalApiToken
        · exact .inl (e ▸ env.workerToken_ascii)
        · exact .inr e
      by_cases e : env.workerToken = env.internalApiToken
      · have ha := hascii.resolve_right (not_not.mpr e)
        simp [hs, IntegrationService.Env.header, falsy, e, requireEqual, compareDigest, ha, Answer.bind]
      · cases ha : isAscii env.internalApiToken <;>
          simp [hs, ht, IntegrationService.Env.header, falsy, e, requireEqual, compareDigest, ha, Answer.bind,
            env.workerToken_ascii]

theorem strip_ne_empty {s : String} : strip s ≠ "" ↔ ∃ c ∈ s.toList, CallerRequest.isSpace c = false := by
  rw [Ne, strip_eq_empty]
  simp

/-- The service answers without an error exactly what it takes. -/
theorem process_ok {env : IntegrationService.Env} {body : ProcessEventRequest} :
    (∃ result, IntegrationService.process env env.header body = .ok result) ↔ Accepts env body := by
  unfold IntegrationService.process
  constructor
  · rintro ⟨result, h⟩
    cases hg : IntegrationService.verifyInternalToken env.internalApiToken env.header with
    | ok =>
      obtain ⟨hs, ht⟩ := (guard_ok env).mp hg
      rw [hg] at h
      simp only [Answer.bind, processEvent] at h
      split at h
      · cases h
      · rename_i hf
        split at h
        · cases h
        · rename_i he
          exact ⟨hs, ht, by simpa using hf, strip_ne_empty.mp he⟩
    | httpException => rw [hg] at h; cases h
    | raised => rw [hg] at h; cases h
  · intro h
    rw [(guard_ok env).mpr ⟨h.configured, h.token⟩]
    simp only [Answer.bind, processEvent, h.unforced, Bool.false_eq_true, if_false, strip_ne_empty.mpr h.eventType]
    exact ⟨_, rfl⟩

/-- `integration.process` returns exactly for what the service takes. -/
theorem processed_respond {env : IntegrationService.Env} {body : ProcessEventRequest} {jobId : JobId} :
    processed (.process body) (some (respond env body)) = some jobId ↔ Accepts env body ∧ body.jobId = jobId := by
  rw [← process_ok]
  unfold respond
  cases hp : IntegrationService.process env env.header body with
  | ok result => simp [processed, IntegrationService.Env.response]
  | httpException statusCode detail => simp [processed, IntegrationService.Env.response]
  | raised => simp [processed, IntegrationService.Env.response]

/-- What comes of a request to the integration service: nothing, or its response. -/
def Answers (env : IntegrationService.Env) : Action → Prop
  | .reply _ answer => ∀ body, answer (.process body) = none ∨ answer (.process body) = some (respond env body)
  | _ => True

/-- An integration succeeds by a reply to its call. -/
theorem succeeded_step {cfg : Config} {w : World} {a : Action} {jobId : JobId}
    (h : .succeeded jobId ∈ (step cfg w a).log) :
    .succeeded jobId ∈ w.log ∨ ∃ i answer body, a = .reply i answer ∧
      (w.workers i).prog.next? = some (.process body) ∧
      processed (.process body) (answer (.process body)) = some jobId := by
  cases a with
  | tick d => exact .inl h
  | addCall callId => exact .inl h
  | create jobId body => exact .inl h
  | update k => exact .inl h
  | request q => simp only [step] at h; split at h <;> exact .inl h
  | serve k =>
    simp only [step, World.serve] at h
    split at h
    · split at h
      · exact .inl h
      · exact .inl (List.mem_of_ne_of_mem (by simp) h)
    · exact .inl h
    · split at h <;> exact .inl h
    · exact .inl h
    · exact .inl h
  | refresh k =>
    simp only [step] at h
    split at h
    · split at h <;> exact .inl h
    · exact .inl h
  | call i =>
    simp only [step] at h
    split at h
    · rename_i q k n hi
      rcases List.mem_append.mp h with h | h
      · cases q <;> simp [calledBy] at h
      · exact .inl h
    · exact .inl h
  | receive i text =>
    simp only [step] at h
    split at h
    · split at h
      · rcases List.mem_append.mp h with h | h
        · simp [processed] at h
        · exact .inl h
      · exact .inl h
    · exact .inl h
  | reply i answer =>
    simp only [step] at h
    split at h
    · rename_i q k n hi
      split at h
      · exact .inl h
      · rcases List.mem_append.mp h with h | h
        · have hp : processed q (answer q) = some jobId := by simpa using h
          cases q with
          | process body => exact .inr ⟨i, answer, body, rfl, by rw [hi]; rfl, hp⟩
          | _ => simp [processed] at hp
        · exact .inl h
    · exact .inl h

/-- What has succeeded is what the service takes. -/
def Taken (env : IntegrationService.Env) (w : World) : Prop :=
  ∀ jobId, .succeeded jobId ∈ w.log → ∃ r, w.api.job jobId = some r ∧ Accepts env (requestOf (jobOf r))

theorem SameJob.request {row r : CallJob} (h : SameJob row r) : requestOf (jobOf r) = requestOf (jobOf row) := by
  show (⟨r.jobId, r.tenantId, r.callId, r.eventType, r.payload⟩ : ProcessEventRequest) = _
  rw [h.jobId, h.tenantId, h.callId, h.eventType, h.payload]
  rfl

theorem taken_step {env : IntegrationService.Env} {cfg : Config} {w : World} {a : Action} (h : Taken env w)
    (hu : Unaltered w) (ha : Answers env a) : Taken env (step cfg w a) := by
  -- a row of the table keeps what it asks for
  have hkeep : ∀ {jobId row}, Kept w.api row → row.jobId = jobId → Accepts env (requestOf (jobOf row)) →
      ∃ r, (step cfg w a).api.job jobId = some r ∧ Accepts env (requestOf (jobOf r)) := by
    rintro jobId row hk rfl hacc
    obtain ⟨r, hr, hs⟩ := hk.world cfg a
    exact ⟨r, hr, by rw [SameJob.request hs]; exact hacc⟩
  intro jobId hj
  rcases succeeded_step hj with hj | ⟨i, answer, body, rfl, hnext, hp⟩
  · obtain ⟨r, hr, hacc⟩ := h jobId hj
    have hid := Table.lookup_key hr
    exact hkeep ⟨r, by rw [hid]; exact hr, .refl r⟩ hid hacc
  · obtain ⟨k, hprog⟩ := Prog.next?_eq_some.mp hnext
    have hw := hu.workers i
    rw [hprog] at hw
    obtain ⟨_, ⟨row, rfl, hk⟩, rfl⟩ := hw.process
    rcases ha (requestOf (jobOf row)) with e | e
    · rw [e] at hp; cases hp
    · rw [e] at hp
      obtain ⟨hacc, hid⟩ := processed_respond.mp hp
      exact hkeep hk hid hacc

/-- Nothing is completed that the integration service does not take. In every run in
which a request to the service comes to nothing or gets its response, a `completed` job
is one of a configured service that has the worker's token, and its event is one that
the service neither refuses nor was told to fail. -/
theorem completed_accepted (env : IntegrationService.Env) (cfg : Config) (now : Time) (as : List Action)
    (h : ∀ a ∈ as, Answers env a) (jobId : JobId) (r : CallJob)
    (hr : (run (step cfg) (.init cfg now) as).api.job jobId = some r) (hs : r.status = .completed) :
    Accepts env { jobId := r.jobId, tenantId := r.tenantId, callId := r.callId
                  eventType := r.eventType, payload := r.payload } := by
  have hack : Acknowledged (run (step cfg) (.init cfg now) as) :=
    run_inv (acknowledged_init cfg now) (fun w a h => h.moves (moves cfg w a)) as
  have hinit : Taken env (.init cfg now) := fun _ h => by cases h
  have htaken : Always (step cfg) (fun w => Taken env w ∧ Unaltered w) (.init cfg now) as :=
    always_of_step ⟨hinit, unaltered_init cfg now⟩
      (fun _ a h ha => ⟨taken_step h.1 h.2 ha, unaltered_step h.2 a⟩) (allSteps_iff_forall_mem.mpr h)
  obtain ⟨r', hr', hacc⟩ := htaken.last.1 jobId (hack.api.completed hr hs)
  rw [hr] at hr'
  cases hr'
  exact hacc

/-- The services share a token. -/
def sharing : IntegrationService.Env where
  internalApiToken := "token"
  workerToken := "token"
  workerToken_ascii := by decide
  forcesFailure _ := false
  repr s := "'" ++ s ++ "'"
  resultText _ := ""
  errorText detail := detail

/-- Redis has the job's id, and the integration service gives its response. -/
def served : (q : Query) → Reply q
  | .process body => some (respond sharing body)
  | q => answers q

/-- One job, from its creation to its completion. -/
def servedRun : List Action :=
  [.create "job" greeted, .call 0, .reply 0 served, .call 0, .reply 0 served, .call 0, .reply 0 served,
    .call 0, .serve 3, .refresh 3, .receive 0 "", .call 0, .reply 0 served, .call 0, .serve 5, .update 5]

theorem completed_accepted_served :
    ∃ r, (run (step ⟨60000000⟩) (.init ⟨60000000⟩ 0) servedRun).api.job "job" = some r ∧ r.status = .completed ∧
      Accepts sharing
        { jobId := r.jobId, tenantId := r.tenantId, callId := r.callId, eventType := r.eventType, payload := r.payload } := by
  have hserved : ∀ body, served (.process body) = none ∨ served (.process body) = some (respond sharing body) :=
    fun _ => .inr rfl
  have hall : ∀ a ∈ servedRun, Answers sharing a := by
    simp only [servedRun, List.forall_mem_cons, Answers, hserved, implies_true, List.not_mem_nil,
      false_implies, and_self]
  have hjob : ((run (step ⟨60000000⟩) (.init ⟨60000000⟩ 0) servedRun).api.job "job").map (·.status) =
      some .completed := by decide
  obtain ⟨r, hr, hs⟩ := Option.map_eq_some_iff.mp hjob
  exact ⟨r, hr, hs, completed_accepted sharing ⟨60000000⟩ 0 servedRun hall "job" r hr hs⟩

end

end CallingAgent.Proof.Faithful
