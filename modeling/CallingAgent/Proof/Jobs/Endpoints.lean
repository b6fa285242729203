import CallingAgent.Impl.Endpoints

/-!
# The endpoints and the steps of the job API

In its first transaction a handler has the sentinel as its tenant, so its
statements see and change every row, whatever the connection was left with.
What a handler makes of the table is therefore what the steps of `Impl.Jobs`
make of it (`createEvent_jobs`, `claimEvent_jobs`, `completeEvent_jobs`,
`failEvent_jobs`, `reapStaleJobs_jobs`). After a rollback the transaction, and
with it the sentinel, is gone: a statement sees what the setting of the connection
that it runs on lets it see (`getJob_pooled`).
-/

namespace CallingAgent.Proof.Jobs

open CallingAgent.Framework CallingAgent.Impl CallingAgent.Impl.Jobs CallingAgent.Impl.Tenant

/-- The sentinel bypasses the policy. -/
theorem tenantIsolation_sentinel (tenantId : Option String) :
    tenantIsolation (some allTenantsSentinel) tenantId = true := by
  simp [tenantIsolation]

/-- The setting of a handler's first transaction. -/
theorem begun_internalService (session : Setting) :
    (getInternalServiceDb .postgresql (.pooled session)).begun.setting = some allTenantsSentinel := rfl

section

variable {db : Conn Setting} (hdb : db.begun.setting = some allTenantsSentinel)
include hdb

theorem visible_sentinel (jobs : CallJobs) : visible db jobs = jobs.rows := by
  unfold visible
  rw [hdb]
  exact List.filter_eq_self.mpr fun r _ => tenantIsolation_sentinel r.tenantId

theorem getJob_sentinel (jobs : CallJobs) (jobId : JobId) : getJob db jobs jobId = jobs.lookup jobId := by
  rw [getJob, visible_sentinel hdb]; rfl

theorem underPolicy_sentinel (stmt : Update CallJob.jobId) : underPolicy db stmt = stmt := by
  have h : (fun r : CallJob => stmt.guard r && tenantIsolation db.begun.setting r.tenantId) = stmt.guard := by
    funext r
    rw [hdb, tenantIsolation_sentinel, Bool.and_true]
  unfold underPolicy
  simp only [h]

end

/-- On a pooled connection, a row is seen if the setting lets it through. -/
theorem getJob_pooled {session : Setting} {jobs : CallJobs} {jobId : JobId} {r : CallJob}
    (h : jobs.lookup jobId = some r) :
    getJob (.pooled session) jobs jobId = if tenantIsolation session r.tenantId then some r else none := by
  have hf : getJob (.pooled session) jobs jobId =
      (jobs.lookup jobId).filter fun r => tenantIsolation session r.tenantId := jobs.find?_filter_rows _ jobId
  rw [hf, h]
  exact Option.filter_some

/-- The connection of the next transaction, after a rollback. -/
theorem next_pooled (session : Setting) (pool : Option Setting) :
    (Conn.pooled session).next pool = .pooled (pool.getD session) := by
  cases pool <;> rfl

/-- What `create_event` does: the insert runs with the sentinel, the refresh with it if it
keeps its connection, and the read after a conflict with what its connection was left
with. -/
theorem createEvent_eq (session : Setting) (pool : Option Setting) (calls : List CallId) (jobs later : CallJobs)
    (body : EventCreateRequest) (jobId : JobId) (now : Time) :
    createEvent session pool calls jobs later body jobId now =
      match insertJob calls jobs (newJob body jobId now) with
      | some jobs' =>
        (jobs',
          match getJob (.pooled (pool.getD (some allTenantsSentinel))) later jobId with
          | some job => .ok { duplicate := false, event := job }
          | none => .raised)
      | none =>
        (jobs,
          match body.providerCallId with
          | none => .raised
          | some p =>
            match (visible (.pooled (pool.getD session)) later).find? (hasPair p body.eventType) with
            | some existing => .ok { duplicate := true, event := existing }
            | none => .raised) := by
  have hg : ¬ tenantIsolation (getInternalServiceDb .postgresql (.pooled session)).begun.setting
      (newJob body jobId now).tenantId = false := by
    rw [begun_internalService, tenantIsolation_sentinel]
    decide
  unfold createEvent
  dsimp only
  rw [if_neg hg]
  cases insertJob calls jobs (newJob body jobId now) with
  | some jobs' =>
    have hdb : ((getInternalServiceDb .postgresql (.pooled session)).op (.flush true)).op .commit =
        .pooled (some allTenantsSentinel) := rfl
    dsimp only
    rw [hdb, next_pooled]
    cases getJob (.pooled (pool.getD (some allTenantsSentinel))) later jobId <;> rfl
  | none =>
    cases body.providerCallId with
    | none => rfl
    | some p =>
      have hdb : ((getInternalServiceDb .postgresql (.pooled session)).op (.flush false)).op .rollback =
          .pooled session := rfl
      dsimp only
      rw [hdb, next_pooled]
      cases (visible (.pooled (pool.getD session)) later).find? (hasPair p body.eventType) <;> rfl

variable (session : Setting) (pool : Option Setting) (later : CallJobs)

theorem createEvent_jobs (s : State) (jobId : JobId) (body : EventCreateRequest) :
    (createEvent session pool s.calls s.jobs later body jobId s.now).1 = (step s (.create jobId body)).jobs := by
  rw [createEvent_eq]
  dsimp only [step]
  cases insertJob s.calls s.jobs (newJob body jobId s.now) <;> rfl

theorem claimEvent_jobs (s : State) (jobId : JobId) :
    (claimEvent session pool s.jobs later jobId s.now).1 = (step s (.claim jobId)).jobs := by
  unfold claimEvent
  dsimp only [step]
  rw [underPolicy_sentinel rfl]
  split
  · rename_i hr
    rw [Table.update_of_returning_eq_nil hr]
    split <;> rfl
  · rfl

/-- The step of the `UPDATE` of a request that has read a row in `s`, in a
later state: none, if the row was not `processing`. -/
theorem update_of_read {s s' : State} {req : Nat} {jobId : JobId} {next : CallJob → Pending}
    (hreq : s.pending req = none) (h : s'.pending req = (s.read req jobId next).pending req) :
    (step s' (.update req)).jobs =
      match s.job jobId with
      | some r => if r.status = .processing then s'.jobs.update (next r).stmt else s'.jobs
      | none => s'.jobs := by
  simp only [step, h, State.read]
  cases s.job jobId with
  | none => simp only [hreq]
  | some r =>
    by_cases hr : r.status = .processing
    · simp only [hr, if_true, Function.update_self]
    · simp only [hr, if_false, hreq]

/-- A `complete_event` that reads in `s` and updates in `s'`. -/
theorem completeEvent_jobs {s s' : State} {req : Nat} {jobId : JobId} (hreq : s.pending req = none)
    (h : s'.pending req = (step s (.completeRead req jobId)).pending req) :
    (completeEvent session pool s.jobs s'.jobs later jobId s.now).1 = (step s' (.update req)).jobs := by
  rw [update_of_read hreq h]
  unfold completeEvent
  dsimp only
  rw [getJob_sentinel (begun_internalService session), State.job]
  cases s.jobs.lookup jobId with
  | none => rfl
  | some r =>
    dsimp only
    by_cases hc : r.status = .completed
    · rw [if_pos hc, if_neg (by rw [hc]; decide)]
    · rw [if_neg hc]
      by_cases hr : r.status = .processing
      · rw [if_neg (not_not.mpr hr), if_pos hr, underPolicy_sentinel rfl]
        split
        · rename_i hn
          rw [Pending.stmt, Table.update_of_returning_eq_nil hn]
          split
          · split <;> rfl
          · rfl
        · rfl
      · rw [if_pos hr, if_neg hr]

/-- A `fail_event` that reads in `s` and updates in `s'`. -/
theorem failEvent_jobs {s s' : State} {req : Nat} {jobId : JobId} {body : EventFailRequest}
    (hreq : s.pending req = none)
    (h : s'.pending req = (step s (.failRead req jobId body)).pending req) :
    (failEvent session pool s.jobs s'.jobs later jobId body s.now s.now).1 = (step s' (.update req)).jobs := by
  rw [update_of_read hreq h]
  unfold failEvent
  dsimp only
  rw [getJob_sentinel (begun_internalService session), State.job]
  cases s.jobs.lookup jobId with
  | none => rfl
  | some r =>
    dsimp only
    by_cases hc : isTerminal r.status = true
    · rw [if_pos hc, if_neg (by intro e; rw [e] at hc; cases hc)]
    · rw [if_neg hc]
      by_cases hr : r.status = .processing
      · rw [if_neg (not_not.mpr hr), if_pos hr, underPolicy_sentinel rfl]
        split
        · rename_i hn
          rw [Pending.stmt, Table.update_of_returning_eq_nil hn]
        · rfl
      · rw [if_pos hr, if_neg hr]

theorem reapStaleJobs_jobs (s : State) :
    (reapStaleJobs session s.jobs s.now).1 = (step s .reap).jobs := by
  unfold reapStaleJobs
  dsimp only [step]
  rw [underPolicy_sentinel rfl]

end CallingAgent.Proof.Jobs
