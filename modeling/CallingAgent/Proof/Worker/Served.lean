import CallingAgent.Impl.Deployment
import CallingAgent.Proof.Jobs.Backoff
import CallingAgent.Proof.Jobs.Endpoints
import CallingAgent.Proof.Jobs.Stranded

/-!
# A worker's requests, served one after another

What an endpoint makes of the table when nothing comes between its statements is what
the actions of the job API make of it (`answer_run`), so a worker at a backlog only ever
takes the table through a run of the job API (`Reaches`).

Each change of a row uses up something of what is left to be done for it (`effort`): an
attempt is one of those it has, and a job that has ended is left alone
(`step_advances`).
-/

namespace CallingAgent.Proof.Deployment

open CallingAgent.Framework CallingAgent.Impl CallingAgent.Impl.RunLoop CallingAgent.Impl.Jobs
open CallingAgent.Impl.Deployment CallingAgent.Proof.Jobs

/-! ## The server and the job API -/

/-- The job API with no request in between. -/
def apiOf (s : Server) : Jobs.State where
  now := s.now
  jobs := s.jobs
  calls := []
  pending _ := none

/-- What the API does for a request. -/
def requestActions : Query → List Jobs.Action
  | .claim jobId => [.claim jobId]
  | .complete jobId => [.completeRead 0 jobId, .update 0]
  | .fail jobId error retry =>
    if h : 1 ≤ error.length then [.failRead 0 jobId { error := error, retry := retry, error_length := h }, .update 0]
    else []
  | .reap => [.reap]
  | _ => []

def actionsOf (fate : Fate) (q : Query) : List Jobs.Action :=
  .tick fate.elapsed :: if fate.requestLost then [] else requestActions q

/-- A request whose `UPDATE` follows its read leaves nothing pending. -/
theorem read_update {s : Jobs.State} (h : s.pending = fun _ => none) (jobId : JobId) (next : CallJob → Pending) :
    Jobs.step (s.read 0 jobId next) (.update 0) =
      { s with jobs := (Jobs.step (s.read 0 jobId next) (.update 0)).jobs } := by
  obtain ⟨now, jobs, calls, pending⟩ := s
  have hnone : pending 0 = none := congrFun h 0
  simp only [State.read]
  split
  · split
    · dsimp only at h
      subst h
      simp only [Jobs.step, Function.update_self, Function.update_idem]
      congr 1
      exact Function.update_eq_self 0 _
    · simp only [Jobs.step, hnone]
  · simp only [Jobs.step, hnone]

theorem run_complete (s : Server) (fate : Fate) (jobId : JobId) :
    run Jobs.step (apiOf s) [.completeRead 0 jobId, .update 0] =
      apiOf { s with jobs := (serveComplete fate s.jobs jobId s.now).1 } := by
  have hjobs :
      (completeEvent fate.session none s.jobs (Jobs.step (apiOf s) (.completeRead 0 jobId)).jobs s.jobs jobId s.now).1 =
        (Jobs.step (Jobs.step (apiOf s) (.completeRead 0 jobId)) (.update 0)).jobs :=
    completeEvent_jobs (s := apiOf s) fate.session none s.jobs rfl rfl
  rw [show (Jobs.step (apiOf s) (.completeRead 0 jobId)).jobs = s.jobs from read_jobs _ _ _ _] at hjobs
  show Jobs.step ((apiOf s).read 0 jobId _) (.update 0) = _
  rw [read_update rfl]
  simp only [serveComplete, apiOf]
  congr 1
  exact hjobs.symm

theorem run_fail (s : Server) (fate : Fate) (jobId : JobId) (body : EventFailRequest) :
    run Jobs.step (apiOf s) [.failRead 0 jobId body, .update 0] =
      apiOf { s with jobs := (failEvent fate.session none s.jobs s.jobs s.jobs jobId body s.now s.now).1 } := by
  have hjobs : (failEvent fate.session none s.jobs (Jobs.step (apiOf s) (.failRead 0 jobId body)).jobs s.jobs jobId body
        s.now s.now).1 =
      (Jobs.step (Jobs.step (apiOf s) (.failRead 0 jobId body)) (.update 0)).jobs :=
    failEvent_jobs (s := apiOf s) fate.session none s.jobs rfl rfl
  rw [show (Jobs.step (apiOf s) (.failRead 0 jobId body)).jobs = s.jobs from read_jobs _ _ _ _] at hjobs
  show Jobs.step ((apiOf s).read 0 jobId _) (.update 0) = _
  rw [read_update rfl]
  simp only [apiOf]
  congr 1
  exact hjobs.symm

/-- An answer is a run of the job API. -/
theorem answer_run (env : Env) (s : Server) (q : Query) :
    apiOf (answer env s q).1 = run Jobs.step (apiOf s) (actionsOf (s.fates 0) q) := by
  have htick : Jobs.step (apiOf s) (.tick (s.fates 0).elapsed) = apiOf s.next := rfl
  have hhttp : ∀ {α : Type} (served : CallJobs × Response α),
      apiOf (s.next.http (s.fates 0) served).1 =
        if (s.fates 0).requestLost then apiOf s.next else apiOf { s.next with jobs := served.1 } := by
    intro α served
    unfold Server.http
    split <;> rfl
  rw [actionsOf, run_cons, htick]
  cases q with
  | shutdown => simp only [requestActions, ite_self]; rfl
  | monotonic => simp only [requestActions, ite_self]; rfl
  | sleep => simp only [requestActions, ite_self]; rfl
  | blpop => simp only [requestActions, ite_self]; rfl
  | list statuses limit => simp only [answer, hhttp, requestActions, ite_self]; split <;> rfl
  | process body => simp only [answer, hhttp, requestActions, ite_self]; split <;> rfl
  | reap =>
    simp only [answer, hhttp, requestActions]
    split
    · rfl
    · have hjobs := reapStaleJobs_jobs (s.fates 0).session (apiOf s.next)
      show _ = { apiOf s.next with jobs := (Jobs.step (apiOf s.next) .reap).jobs }
      rw [← hjobs]
      rfl
  | claim jobId =>
    simp only [answer, hhttp, requestActions]
    split
    · rfl
    · simp only [run_cons, run_nil, apiOf, serveClaim]
      rw [show s.jobs = (apiOf s.next).jobs from rfl, show s.next.now = (apiOf s.next).now from rfl, claimEvent_jobs]
      rfl
  | complete jobId =>
    simp only [answer, hhttp, requestActions]
    split
    · rfl
    · exact (run_complete s.next (s.fates 0) jobId).symm
  | fail jobId error retry =>
    simp only [answer, hhttp, requestActions]
    split
    · rfl
    · unfold serveFail
      split
      · exact (run_fail s.next (s.fates 0) jobId _).symm
      · rfl

/-! ## What is left to be done -/

/-- What can still become of a row: two changes for each attempt that it has left,
which is at least one while it waits. -/
def effort (r : CallJob) : Nat :=
  match r.status with
  | .queued => 2 * max 1 (r.maxAttempts - r.attempts)
  | .retrying => 2 * max 1 (r.maxAttempts - r.attempts)
  | .processing => 2 * (r.maxAttempts - r.attempts) + 1
  | .completed => 0
  | .failed => 0

/-- What is left to be done at a table. -/
def effortOf (jobs : CallJobs) : Nat := (jobs.rows.map effort).sum

theorem effort_eq_zero {r : CallJob} : effort r = 0 ↔ isTerminal r.status = true := by
  unfold effort
  cases r.status <;> simp only [isTerminal, Bool.false_eq_true, iff_false] <;> omega

theorem effortOf_eq_zero {jobs : CallJobs} : effortOf jobs = 0 ↔ ∀ r ∈ jobs.rows, isTerminal r.status = true := by
  simp [effortOf, List.sum_eq_zero_iff_forall_eq_nat, effort_eq_zero]

/-- A table is as it was, or less is left to be done. -/
def Advances (jobs jobs' : CallJobs) : Prop := jobs' = jobs ∨ effortOf jobs' < effortOf jobs

theorem Advances.refl (jobs : CallJobs) : Advances jobs jobs := .inl rfl

theorem Advances.le {jobs jobs' : CallJobs} (h : Advances jobs jobs') : effortOf jobs' ≤ effortOf jobs := by
  rcases h with rfl | h <;> omega

theorem Advances.trans {jobs jobs' jobs'' : CallJobs} (h : Advances jobs jobs') (h' : Advances jobs' jobs'') :
    Advances jobs jobs'' := by
  rcases h with rfl | h
  · exact h'
  · exact .inr (Nat.lt_of_le_of_lt h'.le h)

/-- Where nothing is done, nothing has changed. -/
theorem Advances.eq {jobs jobs' : CallJobs} (h : Advances jobs jobs') (he : effortOf jobs ≤ effortOf jobs') :
    jobs' = jobs := h.resolve_right (Nat.not_lt.mpr he)

/-- What a `fail_event` that is pending has read is still the row. -/
def Fresh (s : Jobs.State) : Prop :=
  ∀ req jobId begun existing body, s.pending req = some (.fail jobId begun existing body) → s.job jobId = some existing

/-- A change of a row is an attempt, or the end of one. -/
theorem effort_rowStep {s : Jobs.State} {a : Jobs.Action} {r r' : CallJob} (hs : Fresh s) (hr : s.job r.jobId = some r)
    (h : RowStep s a r r') : r' = r ∨ effort r' < effort r := by
  cases h with
  | keep => exact .inl rfl
  | claim _ hc =>
    right
    have hset : effort ((claimStmt r.jobId s.now).set r) = 2 * (r.maxAttempts - (r.attempts + 1)) + 1 := rfl
    have hbefore : effort r = 2 * max 1 (r.maxAttempts - r.attempts) := by
      unfold effort
      cases hst : r.status <;> simp_all [isClaimable]
    omega
  | @complete req begun _ _ hp =>
    right
    have hset : effort ((completeStmt r.jobId begun).set r) = 0 := rfl
    have hbefore : effort r = 2 * (r.maxAttempts - r.attempts) + 1 := by
      simp only [effort, hp]
    omega
  | @fail req begun existing body _ hpend hp =>
    right
    obtain rfl : r = existing := Option.some.inj (hr.symm.trans (hs _ _ _ _ _ hpend))
    have hbefore : effort r = 2 * (r.maxAttempts - r.attempts) + 1 := by
      simp only [effort, hp]
    cases hc : canRetry r body with
    | false =>
      have hset : effort ((failStmt r.jobId r body begun begun).set r) = 0 := by
        simp only [failStmt, hc, Bool.false_eq_true, if_false, effort]
      omega
    | true =>
      have hset : effort ((failStmt r.jobId r body begun begun).set r) =
          2 * max 1 (r.maxAttempts - r.attempts) := by
        simp only [failStmt, hc, if_true, effort]
      have hlt : r.attempts < r.maxAttempts := by
        simp only [canRetry, Bool.and_eq_true, decide_eq_true_eq] at hc
        exact hc.2
      omega
  | reap _ hp =>
    right
    have hbefore : effort r = 2 * (r.maxAttempts - r.attempts) + 1 := by
      simp only [effort, hp]
    by_cases hlt : r.attempts < r.maxAttempts
    · have hset : effort ((reapStmt s.now).set r) = 2 * max 1 (r.maxAttempts - r.attempts) := by
        simp only [reapStmt, effort, hlt, if_true]
      omega
    · have hset : effort ((reapStmt s.now).set r) = 0 := by
        simp only [reapStmt, effort, hlt, if_false]
      omega

theorem lookup_of_job {s : Jobs.State} {r : CallJob} (hr : r ∈ s.jobs.rows) : s.job r.jobId = some r :=
  Table.lookup_of_mem hr

/-- An action that creates no job runs at most one `UPDATE`. -/
theorem step_jobs {s : Jobs.State} {a : Jobs.Action} (ha : ∀ jobId body, a ≠ .create jobId body) :
    (Jobs.step s a).jobs = (stmtOf s a).elim s.jobs s.jobs.update := by
  cases a with
  | create jobId body => exact absurd rfl (ha jobId body)
  | tick d => rfl
  | addCall callId => rfl
  | claim jobId => rfl
  | reap => rfl
  | completeRead req jobId => exact read_jobs _ _ _ _
  | failRead req jobId body => exact read_jobs _ _ _ _
  | update req =>
    simp only [Jobs.step, stmtOf]
    cases s.pending req <;> rfl

theorem step_advances {s : Jobs.State} {a : Jobs.Action} (hs : Fresh s) (ha : ∀ jobId body, a ≠ .create jobId body) :
    Advances s.jobs (Jobs.step s a).jobs := by
  rw [step_jobs ha]
  cases hu : stmtOf s a with
  | none => exact .refl _
  | some u =>
    refine Table.update_eq_or_sum_lt fun r hr => ?_
    have hjob := lookup_of_job hr
    obtain ⟨r', hr', hstep⟩ := rowStep hjob a
    have he : u.row r = r' := by
      rw [job_step hjob a, hu] at hr'
      exact Option.some.inj hr'
    rw [he]
    exact effort_rowStep hs hjob hstep

/-- With nothing pending there is nothing old. -/
theorem fresh_of_quiet {s : Jobs.State} (h : s.pending = fun _ => none) : Fresh s := by
  intro req jobId begun existing body e
  rw [h] at e
  cases e

theorem fresh_completeRead {s : Jobs.State} (h : s.pending = fun _ => none) (jobId : JobId) :
    Fresh (Jobs.step s (.completeRead 0 jobId)) := by
  intro req jobId' begun existing body e
  simp only [Jobs.step, State.read, h] at e
  split at e
  · split at e
    · dsimp only at e
      rcases update_cases e with ⟨-, e⟩ | ⟨-, e⟩ <;> cases e
    · rw [h] at e; cases e
  · rw [h] at e; cases e

theorem fresh_failRead {s : Jobs.State} (h : s.pending = fun _ => none) (jobId : JobId) (body : EventFailRequest) :
    Fresh (Jobs.step s (.failRead 0 jobId body)) := by
  intro req jobId' begun existing body' e
  have hjob : (Jobs.step s (.failRead 0 jobId body)).job jobId' = s.job jobId' := by
    simp only [Jobs.step, State.job, read_jobs]
  rw [hjob]
  simp only [Jobs.step, State.read, h] at e
  split at e
  · rename_i r hr
    split at e
    · dsimp only at e
      rcases update_cases e with ⟨-, e⟩ | ⟨-, e⟩
      · cases e; exact hr
      · cases e
    · rw [h] at e; cases e
  · rw [h] at e; cases e

/-- A request never adds to what is left to be done. -/
theorem answer_advances (env : Env) (s : Server) (q : Query) : Advances s.jobs (answer env s q).1.jobs := by
  have hrun := congrArg Jobs.State.jobs (answer_run env s q)
  have hcreate : ∀ {a : Jobs.Action}, (∀ jobId body, a ≠ .create jobId body) → ∀ {s' : Jobs.State}, Fresh s' →
      Advances s'.jobs (Jobs.step s' a).jobs := fun ha _ hs => step_advances hs ha
  have hquiet : (Jobs.step (apiOf s) (.tick (s.fates 0).elapsed)).pending = fun _ => none := rfl
  show Advances s.jobs (apiOf (answer env s q).1).jobs
  rw [hrun, actionsOf]
  split
  · exact .refl _
  · cases q with
    | claim jobId => exact hcreate (a := .claim jobId) (fun _ _ e => by cases e) (fresh_of_quiet hquiet)
    | reap => exact hcreate (a := .reap) (fun _ _ e => by cases e) (fresh_of_quiet hquiet)
    | complete jobId =>
      have hread := hcreate (a := .completeRead 0 jobId) (fun _ _ e => by cases e) (fresh_of_quiet hquiet)
      exact hread.trans (hcreate (a := .update 0) (fun _ _ e => by cases e) (fresh_completeRead hquiet jobId))
    | fail jobId error retry =>
      simp only [requestActions]
      split
      · rename_i hlen
        have hread := hcreate (a := .failRead 0 jobId ⟨error, retry, hlen⟩) (fun _ _ e => by cases e)
          (fresh_of_quiet hquiet)
        exact hread.trans (hcreate (a := .update 0) (fun _ _ e => by cases e) (fresh_failRead hquiet jobId _))
      · exact .refl _
    | _ => exact .refl _

/-! ## What holds at any time -/

/-- Every job that has not ended can be taken up soon. -/
def Timely (s : Jobs.State) : Prop :=
  ∀ r ∈ s.jobs.rows, isTerminal r.status = false → due r ≤ s.now + seconds maxBackoffSeconds

theorem timely_step {s : Jobs.State} (hp : Past s) (h : Timely s) (a : Jobs.Action) : Timely (Jobs.step s a) := by
  intro r' hr' ht
  have hnow := step_now_le s a
  have hjob : (Jobs.step s a).job r'.jobId = some r' := lookup_of_job hr'
  cases hr : s.job r'.jobId with
  | none =>
    obtain ⟨body, -, e⟩ := job_create hr hjob
    have hdue : due r' = s.now := by rw [e]; rfl
    simp only [seconds, maxBackoffSeconds]
    lia
  | some r =>
    obtain ⟨x, hx, hstep⟩ := rowStep hr a
    obtain rfl : x = r' := Option.some.inj (hx.symm.trans hjob)
    by_cases e : x = r
    · subst e
      have := h x (Table.lookup_mem hr) ht
      lia
    · have := hstep.due_le hp ht e
      lia

/-- What holds of a server: the clock and the table are those of a job API that rests. -/
theorem answer_timely (env : Env) {s : Server} (h : Timely (apiOf s)) (q : Query) : Timely (apiOf (answer env s q).1) := by
  rw [answer_run]
  have hpast : Past (apiOf s) := fun _ _ e => by cases e
  exact (run_inv (I := fun s => Past s ∧ Timely s) ⟨hpast, h⟩
    (fun s a h => ⟨past_step s a h.1, timely_step h.1 h.2 a⟩) _).2

theorem answer_now (env : Env) (s : Server) (q : Query) : (answer env s q).1.now = s.now + (s.fates 0).elapsed := by
  have hhttp : ∀ {α : Type} (served : CallJobs × Response α),
      (s.next.http (s.fates 0) served).1.now = s.now + (s.fates 0).elapsed := by
    intro α served
    unfold Server.http
    split <;> rfl
  cases q with
  | shutdown | monotonic | sleep | blpop => rfl
  | list | claim | complete | fail | reap | process => exact hhttp _

theorem answer_fates (env : Env) (s : Server) (q : Query) (k : Nat) : (answer env s q).1.fates k = s.fates (k + 1) := by
  have hhttp : ∀ {α : Type} (served : CallJobs × Response α),
      (s.next.http (s.fates 0) served).1.fates k = s.fates (k + 1) := by
    intro α served
    unfold Server.http
    split <;> rfl
  cases q with
  | shutdown | monotonic | sleep | blpop => rfl
  | list | claim | complete | fail | reap | process => exact hhttp _

/-- What comes of a server. -/
structure Later (s s' : Server) : Prop where
  now : s.now ≤ s'.now
  advances : Advances s.jobs s'.jobs
  timely : Timely (apiOf s) → Timely (apiOf s')

theorem Later.refl (s : Server) : Later s s := ⟨Int.le_refl _, .refl _, id⟩

theorem Later.trans {s s' s'' : Server} (h : Later s s') (h' : Later s' s'') : Later s s'' :=
  ⟨Int.le_trans h.now h'.now, h.advances.trans h'.advances, fun ht => h'.timely (h.timely ht)⟩

theorem answer_later (env : Env) (s : Server) (q : Query) : Later s (answer env s q).1 where
  now := by rw [answer_now]; lia
  advances := answer_advances env s q
  timely h := answer_timely env h q

theorem serveFor_later {α : Type} (env : Env) (p : Worker α) (n : Nat) (s : Server) :
    Later s (p.serveFor (answer env) n s).1 :=
  Prog.serveFor_inv (I := Later s) (fun s' q h => h.trans (answer_later env s' q)) p n (.refl s)

theorem serve_later {α : Type} (env : Env) (p : Worker α) (s : Server) : Later s (p.serve (answer env) s).1 := by
  obtain ⟨n, hn⟩ := Prog.exists_serveFor (answer env) p s
  have h := serveFor_later env p n s
  rwa [hn] at h

end CallingAgent.Proof.Deployment
