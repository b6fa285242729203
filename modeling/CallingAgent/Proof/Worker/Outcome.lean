import CallingAgent.Proof.Worker.Drain
import CallingAgent.Proof.Worker.Faithful

/-!
# What comes of a backlog

With fair passes alone, a job that waits is completed at its next attempt if the
integration service takes its event, and otherwise uses up the attempts that it has and
is failed (`backlog_outcome`). A fair run of `process_one` moves one row, twice
(`processOne_jobs`).
-/

namespace CallingAgent.Proof.Deployment

open CallingAgent.Framework CallingAgent.Impl CallingAgent.Impl.RunLoop
open CallingAgent.Impl.Jobs hiding step Action
open CallingAgent.Impl.Deployment CallingAgent.Proof.Jobs CallingAgent.Proof.Faithful

/-! ## One job -/

/-- A program that calls nothing. -/
def Quiet {α : Type} (p : Worker α) : Prop := ∀ (env : Env) s, (p.serve (answer env) s).1 = s

theorem Quiet.bind {α β : Type} {p : Worker α} {f : α → Worker β} (hp : Quiet p) (hf : ∀ a, Quiet (f a)) :
    Quiet (p >>= f) := by
  intro env s
  rw [Prog.serve_bind]
  split
  · rw [hf, hp]
  · exact hp env s

theorem quiet_request {α : Type} (method path : String) (r : Http α) : Quiet (request method path r) := by
  intro env s
  cases r <;> rfl

theorem quiet_raiseForStatus {α : Type} (response : Response α) (message : String) :
    Quiet (response.raiseForStatus message) := by
  intro env s
  unfold Response.raiseForStatus
  split <;> rfl

theorem quiet_validate {α : Type} (response : Response α) : Quiet response.validate := by
  intro env s
  unfold Response.validate
  split <;> rfl

/-- `complete` is one call. -/
theorem complete_server (env : Env) (s : Server) (jobId : JobId) :
    ((RunLoop.complete jobId).serve (answer env) s).1 = (answer env s (.complete jobId)).1 := by
  unfold RunLoop.complete
  rw [Prog.serve_ask_bind]
  exact (quiet_request _ _ _).bind (fun response => quiet_raiseForStatus response _) env _

theorem fail_server (env : Env) (s : Server) (jobId : JobId) (error : String) (retry : Bool) :
    ((RunLoop.fail jobId error retry).serve (answer env) s).1 = (answer env s (.fail jobId error retry)).1 := by
  unfold RunLoop.fail
  rw [Prog.serve_ask_bind]
  exact (quiet_request _ _ _).bind
    (fun response => (quiet_raiseForStatus response _).bind fun _ => quiet_validate response) env _

/-- A report that is given up has no effect beyond that of its calls. -/
theorem exceptJobsApiError_server (env : Env) (p : Worker Unit) (s : Server) :
    ((exceptJobsApiError p (pure ())).serve (answer env) s).1 = (p.serve (answer env) s).1 := by
  rw [serve_exceptJobsApiError]
  split <;> rfl

theorem answer_process (env : Env) {s : Server} (h : FairServer s) (body : ProcessEventRequest) :
    answer env s (.process body) = (s.next, some (IntegrationService.respond env.integration body)) := by
  show s.next.http (s.fates 0) _ = _
  rw [http_fair (h 0)]
  rfl

theorem bind_pure_server {α : Type} (env : Env) (p : Worker α) (s : Server) :
    ((p >>= fun _ => pure () : Worker Unit).serve (answer env) s).1 = (p.serve (answer env) s).1 := by
  rw [Prog.serve_bind]
  split <;> rfl

/-- The service takes the event: `integration.process` returns. -/
theorem serve_accepted (env : Env) {s : Server} (h : FairServer s) {body : ProcessEventRequest}
    (ha : Accepts env.integration body) :
    (integrationError? (RunLoop.process body)).serve (answer env) s = (s.next, .ok none) := by
  obtain ⟨result, hresult⟩ := process_ok.mpr ha
  have hprocess : (RunLoop.process body).serve (answer env) s = (s.next, .ok result) := by
    unfold RunLoop.process
    rw [Prog.serve_ask_bind, answer_process env h, IntegrationService.respond, hresult]
    rfl
  unfold integrationError?
  rw [Prog.serve_tryCatch, Prog.serve_bind, hprocess]
  rfl

/-- The service refuses the event: `integration.process` raises, with a text. -/
theorem serve_refused (env : Env) {s : Server} (h : FairServer s) {body : ProcessEventRequest}
    (hn : ¬Accepts env.integration body) :
    ∃ exc : String, 1 ≤ exc.length ∧
      (integrationError? (RunLoop.process body)).serve (answer env) s = (s.next, .ok (some exc)) := by
  have hcode : 400 ≤ (IntegrationService.respond env.integration body).statusCode := by
    unfold IntegrationService.respond
    cases hp : IntegrationService.process env.integration env.integration.header body with
    | ok result => exact absurd (process_ok.mp ⟨result, hp⟩) hn
    | httpException code detail => exact refuses_process _ _ _ code detail hp
    | raised => exact (by decide : 400 ≤ 500)
  obtain ⟨exc, hlen, hprocess⟩ : ∃ exc : String, 1 ≤ exc.length ∧
      (RunLoop.process body).serve (answer env) s = (s.next, .error (.integrationError exc)) := by
    unfold RunLoop.process
    rw [Prog.serve_ask_bind, answer_process env h]
    dsimp only
    split
    · refine ⟨_, ?_, rfl⟩
      simp only [String.length_append]
      have : "integration-service returned ".length = 29 := rfl
      omega
    · refine ⟨_, ?_, rfl⟩
      simp only [String.length_append]
      have : "integration-service rejected the event (".length = 40 := rfl
      omega
  refine ⟨exc, hlen, ?_⟩
  unfold integrationError?
  rw [Prog.serve_tryCatch, Prog.serve_bind, hprocess]
  rfl

/-- The answer to a claim of a job that waits and is due. -/
theorem serve_claim (env : Env) {s : Server} (h : FairServer s) {r : CallJob} (hr : s.jobs.lookup r.jobId = some r)
    (hc : isClaimable r.status = true) (ht : r.availableAt ≤ s.next.now) :
    (RunLoop.claim r.jobId).serve (answer env) s =
      ({ s.next with jobs := s.jobs.update (claimStmt r.jobId s.next.now) },
        .ok (some (Workers.jobOf ((claimStmt r.jobId s.next.now).set r)))) := by
  have hguard : (claimStmt r.jobId s.next.now).guard r = true := by
    simp only [claimStmt, beq_self_eq_true, hc, ht, decide_true, Bool.and_self]
  have hclaim : ∀ later, later.lookup r.jobId = some ((claimStmt r.jobId s.next.now).set r) →
      claimEvent (s.fates 0).session none s.jobs later r.jobId s.next.now =
        (s.jobs.update (claimStmt r.jobId s.next.now), .ok ((claimStmt r.jobId s.next.now).set r)) := by
    intro later hlater
    unfold claimEvent
    dsimp only
    rw [underPolicy_sentinel rfl]
    split
    · rename_i hnil
      rw [Update.returning_eq_nil.mp hnil r (Table.lookup_mem hr)] at hguard
      cases hguard
    · rw [getJob_sentinel rfl, hlater]
      rfl
  have hanswer : answer env s (.claim r.jobId) =
      ({ s.next with jobs := s.jobs.update (claimStmt r.jobId s.next.now) },
        some (response Workers.jobOf (.ok ((claimStmt r.jobId s.next.now).set r)))) := by
    show s.next.http (s.fates 0) _ = _
    rw [http_fair (h 0)]
    have hfst : (claimEvent (s.fates 0).session none s.jobs s.jobs r.jobId s.next.now).1 =
        s.jobs.update (claimStmt r.jobId s.next.now) :=
      claimEvent_jobs (s.fates 0).session none s.jobs
        { now := s.next.now, jobs := s.jobs, calls := [], pending := fun _ => none } r.jobId
    have hlookup : (s.jobs.update (claimStmt r.jobId s.next.now)).lookup r.jobId =
        some ((claimStmt r.jobId s.next.now).set r) := by
      rw [Table.lookup_update, hr, Option.map_some, Update.row_of_guard hguard]
    simp only [serveClaim, hfst, hclaim _ hlookup]
  unfold RunLoop.claim
  rw [Prog.serve_ask_bind, hanswer]
  rfl

/-- A claim of a job that does not wait, or is not yet due. -/
theorem serve_claim_none (env : Env) {s : Server} (h : FairServer s) {jobId : JobId}
    (hn : ∀ r, s.jobs.lookup jobId = some r → isClaimable r.status = true → s.next.now < r.availableAt) :
    (RunLoop.claim jobId).serve (answer env) s = (s.next, .ok none) := by
  have hnil : (claimStmt jobId s.next.now).returning s.jobs.rows = [] := by
    refine Update.returning_eq_nil.mpr fun r hr => ?_
    cases hg : (claimStmt jobId s.next.now).guard r with
    | false => rfl
    | true =>
      simp only [claimStmt, Bool.and_eq_true, beq_iff_eq, decide_eq_true_eq] at hg
      obtain ⟨⟨rfl, hc⟩, ht⟩ := hg
      exact absurd ht (Int.not_le.mpr (hn r (Table.lookup_of_mem hr) hc))
  have hclaim : ∃ code detail, (code = 404 ∨ code = 409) ∧
      claimEvent (s.fates 0).session none s.jobs s.jobs jobId s.next.now = (s.jobs, .httpException code detail) := by
    unfold claimEvent
    dsimp only
    rw [underPolicy_sentinel rfl, hnil]
    dsimp only
    split
    · exact ⟨_, _, .inl rfl, rfl⟩
    · exact ⟨_, _, .inr rfl, rfl⟩
  obtain ⟨code, detail, hcode, hclaim⟩ := hclaim
  have hanswer : answer env s (.claim jobId) = (s.next, some { statusCode := code, text := "", body := none }) := by
    show s.next.http (s.fates 0) _ = _
    rw [http_fair (h 0)]
    simp only [serveClaim, hclaim]
    rfl
  unfold RunLoop.claim
  rw [Prog.serve_ask_bind, hanswer]
  show (if code = 404 ∨ code = 409 then pure none else _ : Worker (Option Job)).serve _ _ = _
  rw [if_pos hcode]
  rfl

/-- A request that reads the row of a job that is being attempted, and updates it. -/
theorem read_update_jobs {s : Jobs.State} (hs : s.pending 0 = none) {jobId : JobId} {r : CallJob}
    (hr : s.job jobId = some r) (hp : r.status = .processing) (next : CallJob → Pending) :
    (Jobs.step (s.read 0 jobId next) (.update 0)).jobs = s.jobs.update (next r).stmt := by
  rw [update_of_read hs rfl, read_jobs, hr]
  dsimp only
  rw [if_pos hp]

/-- A fair `complete` of a job that is being attempted. -/
theorem complete_jobs (env : Env) {s : Server} (h : FairServer s) {jobId : JobId} {r : CallJob}
    (hr : s.jobs.lookup jobId = some r) (hp : r.status = .processing) :
    ((RunLoop.complete jobId).serve (answer env) s).1.jobs = s.jobs.update (completeStmt jobId s.next.now) := by
  rw [complete_server]
  have hrun := congrArg Jobs.State.jobs (answer_run env s (.complete jobId))
  rw [actionsOf, (h 0).sent] at hrun
  show (apiOf (answer env s (.complete jobId)).1).jobs = _
  rw [hrun]
  exact read_update_jobs (s := apiOf s.next) rfl hr hp _

/-- A fair `fail` of a job that is being attempted. -/
theorem fail_jobs (env : Env) {s : Server} (h : FairServer s) {jobId : JobId} {r : CallJob} {error : String}
    (hlen : 1 ≤ error.length) (hr : s.jobs.lookup jobId = some r) (hp : r.status = .processing) :
    ((RunLoop.fail jobId error true).serve (answer env) s).1.jobs =
      s.jobs.update (failStmt jobId r { error := error, retry := true, error_length := hlen } s.next.now s.next.now) := by
  rw [fail_server]
  have hrun := congrArg Jobs.State.jobs (answer_run env s (.fail jobId error true))
  rw [actionsOf, (h 0).sent] at hrun
  show (apiOf (answer env s (.fail jobId error true)).1).jobs = _
  rw [hrun]
  simp only [requestActions, dif_pos hlen]
  exact read_update_jobs (s := apiOf s.next) rfl hr hp _

/-- A fair run of `process_one`: nothing, or an attempt at a job and its end. -/
theorem processOne_jobs (env : Env) {s : Server} (h : FairServer s) (jobId : JobId) :
    ((processOne jobId).serve (answer env) s).1.jobs = s.jobs ∨
      ∃ r t, s.jobs.lookup jobId = some r ∧ isClaimable r.status = true ∧ r.availableAt ≤ t ∧
        ((Accepts env.integration (requestOf (Workers.jobOf r)) ∧
            ∃ t', ((processOne jobId).serve (answer env) s).1.jobs =
              (s.jobs.update (claimStmt jobId t)).update (completeStmt jobId t')) ∨
          (¬Accepts env.integration (requestOf (Workers.jobOf r)) ∧
            ∃ t' body, body.retry = true ∧ ((processOne jobId).serve (answer env) s).1.jobs =
              (s.jobs.update (claimStmt jobId t)).update (failStmt jobId ((claimStmt jobId t).set r) body t' t'))) := by
  by_cases hclaim : ∃ r, s.jobs.lookup jobId = some r ∧ isClaimable r.status = true ∧ r.availableAt ≤ s.next.now
  · obtain ⟨r, hr, hc, ht⟩ := hclaim
    obtain rfl : r.jobId = jobId := Table.lookup_key hr
    refine .inr ⟨r, s.next.now, hr, hc, ht, ?_⟩
    generalize hrow : (claimStmt r.jobId s.next.now).set r = row
    have hid : row.jobId = r.jobId := by rw [← hrow]; rfl
    have hproc : row.status = .processing := by rw [← hrow]; rfl
    have hreq : requestOf (Workers.jobOf row) = requestOf (Workers.jobOf r) := by rw [← hrow]; rfl
    have hlookup : (s.jobs.update (claimStmt r.jobId s.next.now)).lookup r.jobId = some row := by
      rw [Table.lookup_update, hr, Option.map_some, Update.row_of_guard, hrow]
      simp only [claimStmt, beq_self_eq_true, hc, ht, decide_true, Bool.and_self]
    have hfair : FairServer { s.next with jobs := s.jobs.update (claimStmt r.jobId s.next.now) } := h.next
    unfold processOne
    rw [Prog.serve_bind, serve_claim env h hr hc ht, hrow]
    dsimp only
    rw [Prog.serve_bind, ← hreq]
    by_cases ha : Accepts env.integration (requestOf (Workers.jobOf row))
    · refine .inl ⟨ha, s.next.next.next.now, ?_⟩
      rw [show (⟨_, _, _, _, _⟩ : ProcessEventRequest) = requestOf (Workers.jobOf row) from rfl, serve_accepted env hfair ha]
      dsimp only
      rw [exceptJobsApiError_server]
      show ((RunLoop.complete row.jobId).serve (answer env) _).1.jobs = _
      rw [hid]
      exact complete_jobs env hfair.next hlookup hproc
    · obtain ⟨exc, hlen, hserve⟩ := serve_refused env hfair ha
      refine .inr ⟨ha, s.next.next.next.now, { error := exc, retry := true, error_length := hlen }, rfl, ?_⟩
      rw [show (⟨_, _, _, _, _⟩ : ProcessEventRequest) = requestOf (Workers.jobOf row) from rfl, hserve]
      dsimp only
      rw [exceptJobsApiError_server, bind_pure_server]
      show ((RunLoop.fail row.jobId exc true).serve (answer env) _).1.jobs = _
      rw [hid]
      exact fail_jobs env hfair.next hlen hlookup hproc
  · refine .inl ?_
    have hn : ∀ r, s.jobs.lookup jobId = some r → isClaimable r.status = true → s.next.now < r.availableAt := by
      intro r hr hc
      exact Int.not_le.mp fun ht => hclaim ⟨r, hr, hc, ht⟩
    unfold processOne
    rw [Prog.serve_bind, serve_claim_none env h hn]
    rfl

/-! ## The whole table -/

section

variable (env : Env)

/-- What fair passes make of a job that waits. -/
inductive Settles (r r' : CallJob) : Prop
  | waiting (same : SameJob r r') (waits : isClaimable r'.status = true)
      (left : max r.maxAttempts (r'.attempts + 1) = max r.maxAttempts (r.attempts + 1))
      (accepted : Accepts env.integration (requestOf (Workers.jobOf r)) → r'.attempts = r.attempts)
  | completed (same : SameJob r r') (accepted : Accepts env.integration (requestOf (Workers.jobOf r)))
      (status : r'.status = .completed) (attempts : r'.attempts = r.attempts + 1)
  | failed (same : SameJob r r') (refused : ¬Accepts env.integration (requestOf (Workers.jobOf r)))
      (status : r'.status = .failed) (attempts : r'.attempts = max r.maxAttempts (r.attempts + 1))

variable {env}

theorem Settles.same {r r' : CallJob} (h : Settles env r r') : SameJob r r' := by
  cases h <;> assumption

theorem Settles.not_processing {r r' : CallJob} (h : Settles env r r') : r'.status ≠ .processing := by
  intro e
  cases h with
  | waiting _ waits => rw [e] at waits; cases waits
  | completed _ _ status => rw [e] at status; cases status
  | failed _ _ status => rw [e] at status; cases status

/-- A sweep has no business with it. -/
theorem Settles.reap {r r' : CallJob} (h : Settles env r r') (now : Time) : (reapStmt now).row r' = r' := by
  refine Update.row_of_not_guard ?_
  simp only [reapStmt, Bool.and_eq_false_iff, beq_eq_false_iff_ne]
  exact .inl h.not_processing

/-- An attempt that ends in success. -/
theorem Settles.complete {r x : CallJob} (h : Settles env r x) (hc : isClaimable x.status = true) {t t' : Time}
    (ht : x.availableAt ≤ t) (ha : Accepts env.integration (requestOf (Workers.jobOf x))) :
    Settles env r ((completeStmt x.jobId t').row ((claimStmt x.jobId t).row x)) := by
  have hclaim : (claimStmt x.jobId t).row x = (claimStmt x.jobId t).set x := by
    refine Update.row_of_guard ?_
    simp only [claimStmt, beq_self_eq_true, hc, ht, decide_true, Bool.and_self]
  have hdone : (completeStmt x.jobId t').row ((claimStmt x.jobId t).set x) =
      (completeStmt x.jobId t').set ((claimStmt x.jobId t).set x) := by
    refine Update.row_of_guard ?_
    simp only [claimStmt, completeStmt, beq_self_eq_true, Bool.and_self]
  rw [hclaim, hdone]
  have hsame := h.same
  rw [SameJob.request hsame] at ha
  cases h with
  | waiting _ _ _ accepted =>
    refine .completed ⟨hsame.jobId, hsame.tenantId, hsame.callId, hsame.providerCallId, hsame.eventType, hsame.payload,
      hsame.maxAttempts⟩ ha rfl ?_
    show x.attempts + 1 = r.attempts + 1
    rw [accepted ha]
  | completed _ _ status => rw [status] at hc; cases hc
  | failed _ _ status => rw [status] at hc; cases hc

/-- An attempt that ends in failure. -/
theorem Settles.fail {r x : CallJob} (h : Settles env r x) (hc : isClaimable x.status = true) {t t' : Time}
    (ht : x.availableAt ≤ t) (hn : ¬Accepts env.integration (requestOf (Workers.jobOf x))) {body : EventFailRequest}
    (hretry : body.retry = true) :
    Settles env r
      ((failStmt x.jobId ((claimStmt x.jobId t).set x) body t' t').row ((claimStmt x.jobId t).row x)) := by
  have hclaim : (claimStmt x.jobId t).row x = (claimStmt x.jobId t).set x := by
    refine Update.row_of_guard ?_
    simp only [claimStmt, beq_self_eq_true, hc, ht, decide_true, Bool.and_self]
  have hdone : (failStmt x.jobId ((claimStmt x.jobId t).set x) body t' t').row ((claimStmt x.jobId t).set x) =
      (failStmt x.jobId ((claimStmt x.jobId t).set x) body t' t').set ((claimStmt x.jobId t).set x) := by
    refine Update.row_of_guard ?_
    simp only [claimStmt, failStmt, beq_self_eq_true, Bool.and_self]
  have hcan : canRetry ((claimStmt x.jobId t).set x) body = true ↔ x.attempts + 1 < x.maxAttempts := by
    show (body.retry && decide (x.attempts + 1 < x.maxAttempts)) = true ↔ _
    rw [hretry, Bool.true_and, decide_eq_true_iff]
  rw [hclaim, hdone]
  have hsame := h.same
  rw [SameJob.request hsame] at hn
  have hmax := hsame.maxAttempts
  cases h with
  | completed _ _ status => rw [status] at hc; cases hc
  | failed _ _ status => rw [status] at hc; cases hc
  | waiting _ _ left _ =>
    by_cases hlt : x.attempts + 1 < x.maxAttempts
    · have hset : (failStmt x.jobId ((claimStmt x.jobId t).set x) body t' t').set ((claimStmt x.jobId t).set x) =
          { x with
            status := .retrying, attempts := x.attempts + 1, updatedAt := t'
            lastError := some (truncateError body.error)
            availableAt := t' + seconds (backoffSeconds (x.attempts + 1)) } := if_pos (hcan.mpr hlt)
      rw [hset]
      refine .waiting ⟨hsame.jobId, hsame.tenantId, hsame.callId, hsame.providerCallId, hsame.eventType, hsame.payload,
        hmax⟩ rfl ?_ fun ha => absurd ha hn
      dsimp only
      omega
    · have hset : (failStmt x.jobId ((claimStmt x.jobId t).set x) body t' t').set ((claimStmt x.jobId t).set x) =
          { x with
            status := .failed, attempts := x.attempts + 1, updatedAt := t'
            lastError := some (truncateError body.error), processedAt := some t' } := if_neg fun h => hlt (hcan.mp h)
      rw [hset]
      refine .failed ⟨hsame.jobId, hsame.tenantId, hsame.callId, hsame.providerCallId, hsame.eventType, hsame.payload,
        hmax⟩ hn rfl ?_
      dsimp only
      omega

variable (env) in
/-- What fair passes make of a table. -/
def Settled (jobs jobs' : CallJobs) : Prop :=
  ∀ r ∈ jobs.rows, isClaimable r.status = true → ∃ r', jobs'.lookup r.jobId = some r' ∧ Settles env r r'

theorem Settled.refl (jobs : CallJobs) : Settled env jobs jobs := fun r hr hc =>
  ⟨r, Table.lookup_of_mem hr, .waiting (.refl r) hc rfl fun _ => rfl⟩

theorem Settled.reap {jobs jobs' : CallJobs} (h : Settled env jobs jobs') (now : Time) :
    Settled env jobs (jobs'.update (reapStmt now)) := by
  intro r hr hc
  obtain ⟨r', hr', hs⟩ := h r hr hc
  exact ⟨r', by rw [Table.lookup_update, hr', Option.map_some, hs.reap], hs⟩

theorem Settled.processOne {jobs : CallJobs} {s : Server} (h : Settled env jobs s.jobs) (hf : FairServer s)
    (jobId : JobId) : Settled env jobs ((processOne jobId).serve (answer env) s).1.jobs := by
  rcases processOne_jobs env hf jobId with e | ⟨x, t, hx, hc, ht, hend⟩
  · rw [e]; exact h
  · obtain rfl : x.jobId = jobId := Table.lookup_key hx
    intro r hr hw
    obtain ⟨r', hr', hs⟩ := h r hr hw
    have hid : r'.jobId = r.jobId := Table.lookup_key hr'
    by_cases e : r.jobId = x.jobId
    · obtain rfl : r' = x := by
        rw [e, hx] at hr'
        exact (Option.some.inj hr').symm
      rcases hend with ⟨ha, t', ejobs⟩ | ⟨hn, t', body, hretry, ejobs⟩
      · refine ⟨(completeStmt r'.jobId t').row ((claimStmt r'.jobId t).row r'), ?_, hs.complete hc ht ha⟩
        rw [ejobs, Table.lookup_update, Table.lookup_update, hr', Option.map_some, Option.map_some]
      · refine ⟨(failStmt r'.jobId ((claimStmt r'.jobId t).set r') body t' t').row ((claimStmt r'.jobId t).row r'), ?_,
          hs.fail hc ht hn hretry⟩
        rw [ejobs, Table.lookup_update, Table.lookup_update, hr', Option.map_some, Option.map_some]
    · -- another row
      have hne : ¬r'.jobId = x.jobId := hid ▸ e
      refine ⟨r', ?_, hs⟩
      have hclaim : (claimStmt x.jobId t).row r' = r' := Update.row_of_not_guard (by simp [claimStmt, hne])
      rcases hend with ⟨-, t', ejobs⟩ | ⟨-, t', body, -, ejobs⟩
      · have hdone : (completeStmt x.jobId t').row r' = r' := Update.row_of_not_guard (by simp [completeStmt, hne])
        rw [ejobs, Table.lookup_update, Table.lookup_update, hr', Option.map_some, Option.map_some, hclaim, hdone]
      · have hdone : (failStmt x.jobId ((claimStmt x.jobId t).set x) body t' t').row r' = r' :=
          Update.row_of_not_guard (by simp [failStmt, hne])
        rw [ejobs, Table.lookup_update, Table.lookup_update, hr', Option.map_some, Option.map_some, hclaim, hdone]

theorem Settled.processEligible {jobs : CallJobs} {s : Server} (h : Settled env jobs s.jobs) (hf : FairServer s)
    (eligible : List Job) : Settled env jobs ((processEligible eligible).serve (answer env) s).1.jobs := by
  induction eligible generalizing s with
  | nil => exact h
  | cons first rest ih =>
    have hshutdown : answer env s .shutdown = (s.next, false) := by
      show (s.next, _) = _
      rw [(hf 0).shutdown]
    unfold RunLoop.processEligible
    rw [Prog.serve_ask_bind, hshutdown]
    simp only [Bool.false_eq_true, if_false]
    have hone : Settled env jobs ((RunLoop.processOne first.jobId).serve (answer env) s.next).1.jobs :=
      Settled.processOne (s := s.next) h hf.next first.jobId
    rw [Prog.serve_bind]
    split
    · exact ih hone (hf.next.serve env _)
    · exact hone

theorem listEligible_jobs (s : Server) (statuses : List String) (limit : Nat) :
    ((listEligible statuses limit).serve (answer env) s).1.jobs = s.jobs := by
  have hanswer : (answer env s (.list statuses limit)).1.jobs = s.jobs := by
    show (s.next.http (s.fates 0) _).1.jobs = _
    unfold Server.http
    split <;> rfl
  unfold listEligible
  rw [Prog.serve_ask_bind, ← hanswer]
  congr 1
  exact (quiet_request _ _ _).bind
    (fun response => (quiet_raiseForStatus response _).bind fun _ => quiet_validate response) env _

theorem Settled.poll {jobs : CallJobs} {s : Server} (h : Settled env jobs s.jobs) (hf : FairServer s) :
    Settled env jobs (poll.serve (answer env) s).1.jobs := by
  have hlist : Settled env jobs
      ((listEligible ["queued", "retrying"] 10 >>= RunLoop.processEligible).serve (answer env) s).1.jobs := by
    have hsame : Settled env jobs ((listEligible ["queued", "retrying"] 10).serve (answer env) s).1.jobs := by
      rw [listEligible_jobs]; exact h
    rw [Prog.serve_bind]
    split
    · exact hsame.processEligible (hf.serve env _) _
    · exact hsame
  unfold RunLoop.poll
  rw [serve_exceptJobsApiError]
  split
  · exact hlist
  · exact hlist
  · exact hlist

theorem Settled.work {jobs : CallJobs} {s : Server} (h : Settled env jobs s.jobs) (hf : FairServer s)
    (popped : Except Unit (Option JobId)) : Settled env jobs ((work popped).serve (answer env) s).1.jobs := by
  unfold RunLoop.work
  split
  · rw [exceptJobsApiError_server]
    exact h.processOne hf _
  · exact h.poll hf
  · rw [Prog.serve_ask_bind]
    exact Settled.poll (s := (answer env s .sleep).1) h hf.next

theorem Settled.step {jobs : CallJobs} {w : World} {p : Pass} (h : Settled env jobs w.jobs) (hp : FairPass p) :
    Settled env jobs (step env w p).jobs := by
  obtain ⟨popped, -, hstep⟩ := step_fair env w hp
  obtain ⟨-, hfair, hswept⟩ := swept_cases env w hp
  rw [hstep]
  have hjobs : Settled env jobs (swept env (serverOf w p) w.lastReap).1.next.jobs := by
    show Settled env jobs (swept env (serverOf w p) w.lastReap).1.jobs
    rcases hswept with ⟨e, -⟩ | ⟨t, t', -, -, -, e⟩
    · rw [e]; exact h
    · rw [e]; exact h.reap t'
  exact hjobs.work hfair.next popped

/-- What comes of a backlog. If all passes are fair, and there are as many stretches of
them as there is work, then a job that was waiting has been `completed` by one further
attempt if the integration service takes its event, and otherwise has been `failed`
with all its attempts used up, by at least one more. -/
theorem backlog_outcome (env : Env) (now : Time) (as : List Jobs.Action)
    (hboot : env.boot ≤ (run Jobs.step (.init now) as).now) (rounds : List Round)
    (hstretch : AllSteps (round env) (EndsInStretch env) (start (run Jobs.step (.init now) as)) rounds)
    (hfair : ∀ round ∈ rounds, ∀ p ∈ round.before, FairPass p)
    (hrounds : effortOf (run Jobs.step (.init now) as).jobs ≤ rounds.length) :
    ∀ r ∈ (run Jobs.step (.init now) as).jobs.rows, isClaimable r.status = true →
      ∃ r', (run (round env) (start (run Jobs.step (.init now) as)) rounds).jobs.lookup r.jobId = some r' ∧
        (Accepts env.integration (requestOf (Workers.jobOf r)) →
          r'.status = .completed ∧ r'.attempts = r.attempts + 1) ∧
        (¬Accepts env.integration (requestOf (Workers.jobOf r)) →
          r'.status = .failed ∧ r'.attempts = max r.maxAttempts (r.attempts + 1)) := by
  have hsettled : Settled env (run Jobs.step (.init now) as).jobs
      (run (round env) (start (run Jobs.step (.init now) as)) rounds).jobs := by
    refine (always_of_step (I := fun w => Settled env (run Jobs.step (.init now) as).jobs w.jobs)
      (C := fun w r => EndsInStretch env w r ∧ ∀ p ∈ r.before, FairPass p) (.refl _) (fun w r hw hr => ?_)
      (fun p r hp => ⟨hstretch p r hp, hfair r (hp.subset (by simp))⟩)).last
    have hpasses : AllSteps (Deployment.step env) (fun _ p => FairPass p) w r.passes := by
      refine allSteps_iff_forall_mem.mpr fun p hp => ?_
      rcases List.mem_append.mp hp with hp | hp
      · exact hr.2 p hp
      · exact hr.1.fair p hp
    exact (always_of_step (I := fun w => Settled env (run Jobs.step (.init now) as).jobs w.jobs) hw
      (fun w p h hp => h.step hp) hpasses).last
  have hend := (rounds_advance (inv_start hboot) hstretch).2
  have hstart : effortOf (start (run Jobs.step (.init now) as)).jobs = effortOf (run Jobs.step (.init now) as).jobs := rfl
  have hzero : effortOf (run (round env) (start (run Jobs.step (.init now) as)) rounds).jobs = 0 := by omega
  have hall := effortOf_eq_zero.mp hzero
  intro r hr hc
  obtain ⟨r', hr', hs⟩ := hsettled r hr hc
  have hended := hall r' (Table.lookup_mem hr')
  refine ⟨r', hr', ?_⟩
  cases hs with
  | waiting _ waits => cases hst : r'.status <;> rw [hst] at waits hended <;> cases waits <;> cases hended
  | completed _ accepted status attempts => exact ⟨fun _ => ⟨status, attempts⟩, fun hn => absurd accepted hn⟩
  | failed _ refused status attempts => exact ⟨fun ha => absurd ha refused, fun _ => ⟨status, attempts⟩⟩

/-- An event that the integration service takes, and a blank one. -/
def twoEvents : List Jobs.Action :=
  [.create "job" { eventType := "picked up", maxAttempts := some 4, maxAttempts_range := by decide },
    .create "blank" { eventType := "  ", maxAttempts := some 4, maxAttempts_range := by decide }]

theorem backlog_outcome_two :
    let w := run (round deployed) (start (run Jobs.step (.init 0) twoEvents)) (List.replicate 16 ⟨[], [slowPass, slowPass]⟩)
    (∃ r, w.jobs.lookup "job" = some r ∧ r.status = .completed ∧ r.attempts = 1) ∧
      ∃ r, w.jobs.lookup "blank" = some r ∧ r.status = .failed ∧ r.attempts = 4 := by
  intro w
  have hbefore : ∀ round ∈ List.replicate 16 (⟨[], [slowPass, slowPass]⟩ : Round), ∀ p ∈ round.before, FairPass p := by
    intro round hround p hp
    rw [List.eq_of_mem_replicate hround] at hp
    cases hp
  have h := backlog_outcome deployed 0 twoEvents (by decide) _ (slow_rounds 16 _) hbefore (by decide)
  have hrow : ∀ jobId, ((run Jobs.step (.init 0) twoEvents).job jobId).isSome = true →
      ∃ r ∈ (run Jobs.step (.init 0) twoEvents).jobs.rows, (run Jobs.step (.init 0) twoEvents).job jobId = some r ∧
        r.jobId = jobId := fun jobId hsome => by
    obtain ⟨r, hr⟩ := Option.isSome_iff_exists.mp hsome
    exact ⟨r, Table.lookup_mem hr, hr, Table.lookup_key hr⟩
  constructor
  · obtain ⟨r, hr, hjob, hid⟩ := hrow "job" (by decide)
    have hnew : (run Jobs.step (.init 0) twoEvents).job "job" = some (newJob
        { eventType := "picked up", maxAttempts := some 4, maxAttempts_range := by decide } "job" 0) := by decide
    obtain rfl := Option.some.inj (hjob.symm.trans hnew)
    obtain ⟨r', hr', hok, -⟩ := h _ hr (by decide)
    exact ⟨r', hr', hok ⟨by decide, rfl, rfl, 'p', by decide, by decide⟩⟩
  · obtain ⟨r, hr, hjob, hid⟩ := hrow "blank" (by decide)
    have hnew : (run Jobs.step (.init 0) twoEvents).job "blank" = some (newJob
        { eventType := "  ", maxAttempts := some 4, maxAttempts_range := by decide } "blank" 0) := by decide
    obtain rfl := Option.some.inj (hjob.symm.trans hnew)
    obtain ⟨r', hr', -, hrefused⟩ := h _ hr (by decide)
    refine ⟨r', hr', hrefused fun hacc => ?_⟩
    obtain ⟨c, hc, hspace⟩ := hacc.eventType
    obtain rfl : c = ' ' := by
      have htext : (requestOf (Workers.jobOf (newJob
          { eventType := "  ", maxAttempts := some 4, maxAttempts_range := by decide } "blank" 0))).eventType.toList =
          [' ', ' '] := by
        decide
      rw [htext] at hc
      simpa using hc
    exact absurd hspace (by decide)

end

end CallingAgent.Proof.Deployment
