import CallingAgent.Proof.Jobs.Endpoints
import CallingAgent.Proof.Jobs.Lifecycle
import CallingAgent.Proof.Tenant.Isolation

/-!
# Tenant context within a request

A dependency sets the tenant in the transaction that the handler's first
statements run in. Each later transaction runs on a connection that the pool hands
out, with whatever that was left with. If it is the same one, the tenant is there if
the first transaction has committed; if the handler rolls that back, or it fails, the
setting is undone with it. `create_event`, `claim_event` and `complete_event` all read
again after such a rollback: they see the row only if what their connection was left
with lets it through (`tenant_context_holds_iff`), and on a fresh connection they do
not (`tenant_context_lost`).
-/

namespace CallingAgent.Proof.Tenant

open CallingAgent.Framework CallingAgent.Impl CallingAgent.Impl.Jobs CallingAgent.Impl.Tenant
open CallingAgent.Proof.Jobs

/-- The statements of a request on one connection, and the tenant its dependency has set. -/
theorem settings_iff {r : Request} {v : String} (h : tenantValue r.dependency = some v) (session : Setting) :
    (∀ g ∈ settings .postgresql (.pooled session) r, g = some v) ↔
      session = some v ∨ undoneFirst r.ops = false := by
  rw [settings, enter_of_some h]
  exact Conn.seen_set_iff session (some v) r.ops

/-- The statements of a request on a pool. -/
theorem pooledSettings_iff {r : PooledRequest} {v : String} (h : tenantValue r.dependency = some v) (session : Setting) :
    (∀ g ∈ r.settings .postgresql (.pooled session), g = some v) ↔
      ∀ g ∈ r.found .postgresql (.pooled session), g = some v := by
  rw [PooledRequest.settings, PooledRequest.found, enter_of_some h]
  exact Conn.seen_set_pool_iff session (some v) r.steps

/-- A request that always gets its own connection back is one on a pool of one. -/
theorem pooledSettings_own {r : PooledRequest} {session : Setting}
    (h : AllSteps Conn.opOn Conn.TakesOwn (r.dependency.enter .postgresql (.pooled session)) r.steps) :
    r.settings .postgresql (.pooled session) =
      settings .postgresql (.pooled session) { dependency := r.dependency, ops := r.steps.map Prod.fst } :=
  Conn.collect_on_own h

variable {session : Setting} {pool : Option Setting} {later : CallJobs}

theorem insertJob_of_pair {calls : List CallId} {jobs : CallJobs} {job : CallJob} {p : String}
    (hp : job.providerCallId = some p) (h : jobs.rows.any (hasPair p job.eventType) = true) :
    insertJob calls jobs job = none := by
  unfold insertJob
  rw [if_pos (by rw [hp]; exact h)]

/-- The answer of `create_event` to an event that is already recorded. -/
theorem createEvent_existing {calls : List CallId} {jobs : CallJobs} {body : EventCreateRequest}
    {p : String} (hp : body.providerCallId = some p)
    (h : jobs.rows.any (hasPair p body.eventType) = true) (jobId : JobId) (now : Time) :
    (createEvent session pool calls jobs later body jobId now).2 =
      match (visible (.pooled (pool.getD session)) later).find? (hasPair p body.eventType) with
      | some existing => .ok { duplicate := true, event := existing }
      | none => .raised := by
  rw [createEvent_eq, insertJob_of_pair hp h]
  cases hf : (visible (.pooled (pool.getD session)) later).find? (hasPair p body.eventType) <;> simp only [hp, hf]

theorem createEvent_duplicate_iff {calls : List CallId} {jobs : CallJobs} {body : EventCreateRequest}
    {p : String} (hp : body.providerCallId = some p)
    (h : jobs.rows.any (hasPair p body.eventType) = true) (jobId : JobId) (now : Time) :
    (∃ existing, (createEvent session pool calls jobs later body jobId now).2 =
        .ok { duplicate := true, event := existing }) ↔
      ∃ r ∈ later.rows, hasPair p body.eventType r = true ∧ tenantIsolation (pool.getD session) r.tenantId = true := by
  rw [createEvent_existing hp h]
  cases hf : (visible (.pooled (pool.getD session)) later).find? (hasPair p body.eventType) with
  | some existing =>
    obtain ⟨hr, hv⟩ := List.mem_filter.mp (List.mem_of_find?_eq_some hf)
    exact iff_of_true ⟨existing, rfl⟩ ⟨existing, hr, List.find?_some hf, hv⟩
  | none =>
    refine iff_of_false (fun ⟨_, e⟩ => by cases e) ?_
    rintro ⟨r, hr, hpair, hv⟩
    exact List.find?_eq_none.mp hf r (List.mem_filter.mpr ⟨hr, hv⟩) hpair

/-- The answer of `claim_event` for a job that cannot be claimed. -/
theorem claimEvent_unclaimable {jobs : CallJobs} {jobId : JobId} {now : Time} {r : CallJob}
    (h : (claimStmt jobId now).returning jobs.rows = []) (hr : later.lookup jobId = some r) :
    (claimEvent session pool jobs later jobId now).2 =
      if tenantIsolation (pool.getD session) r.tenantId then
        .httpException 409 ("job not claimable in status='" ++ statusText r.status ++ "'")
      else .httpException 404 "job not found" := by
  unfold claimEvent
  dsimp only
  rw [underPolicy_sentinel (begun_internalService session), h]
  dsimp only
  rw [show ((getInternalServiceDb .postgresql (.pooled session)).op (.execute true)).op .rollback =
      .pooled session from rfl, next_pooled, getJob_pooled hr]
  cases tenantIsolation (pool.getD session) r.tenantId <;> rfl

/-- The answer of `complete_event` for a job that another request has completed
since the handler's read. -/
theorem completeEvent_raced {jobs current : CallJobs} {jobId : JobId} {now : Time} {existing r : CallJob}
    (he : jobs.lookup jobId = some existing) (hs : existing.status = .processing)
    (h : (completeStmt jobId now).returning current.rows = []) (hr : later.lookup jobId = some r)
    (hc : r.status = .completed) :
    (completeEvent session pool jobs current later jobId now).2 =
      if tenantIsolation (pool.getD session) r.tenantId then .ok r
      else .httpException 409 "job state changed concurrently" := by
  unfold completeEvent
  dsimp only
  rw [getJob_sentinel (begun_internalService session), he]
  dsimp only
  rw [if_neg (by rw [hs]; decide), if_neg (not_not.mpr hs), underPolicy_sentinel rfl, h]
  dsimp only
  rw [show (((getInternalServiceDb .postgresql (.pooled session)).op (.execute true)).op
      (.execute true)).op .rollback = .pooled session from rfl, next_pooled, getJob_pooled hr]
  cases tenantIsolation (pool.getD session) r.tenantId with
  | true =>
    show (if r.status = .completed then _ else _ : CallJobs × Answer CallJob).2 = _
    rw [if_pos hc]; rfl
  | false => rfl

/-- Tenant context holds for a whole request exactly when each transaction after the first
finds the tenant that the dependency sets on the connection that the pool hands out. If
that is always the same one, left with `session`, this is when no statement of the handler
follows a first transaction that was undone, or the connection already had the tenant. The
reads of `create_event`, `claim_event` and `complete_event` after their rollback find the
row exactly when the setting found on their connection lets it through. -/
theorem tenant_context_holds_iff (session : Setting) (pool : Option Setting) (later : CallJobs) (jobId : JobId)
    (now : Time) :
    (∀ (r : PooledRequest) v, tenantValue r.dependency = some v →
      ((∀ g ∈ r.settings .postgresql (.pooled session), g = some v) ↔
        ∀ g ∈ r.found .postgresql (.pooled session), g = some v)) ∧
    (∀ (r : Request) v, tenantValue r.dependency = some v →
      ((∀ g ∈ settings .postgresql (.pooled session) r, g = some v) ↔
        session = some v ∨ undoneFirst r.ops = false)) ∧
    (∀ calls jobs body p, body.providerCallId = some p →
      jobs.rows.any (hasPair p body.eventType) = true →
      ((∃ existing, (createEvent session pool calls jobs later body jobId now).2 =
          .ok { duplicate := true, event := existing }) ↔
        ∃ r ∈ later.rows, hasPair p body.eventType r = true ∧
          tenantIsolation (pool.getD session) r.tenantId = true)) ∧
    (∀ jobs r, (claimStmt jobId now).returning jobs.rows = [] → later.lookup jobId = some r →
      ((claimEvent session pool jobs later jobId now).2 =
          .httpException 409 ("job not claimable in status='" ++ statusText r.status ++ "'") ↔
        tenantIsolation (pool.getD session) r.tenantId = true)) ∧
    ∀ jobs current existing r, jobs.lookup jobId = some existing → existing.status = .processing →
      (completeStmt jobId now).returning current.rows = [] → later.lookup jobId = some r →
      r.status = .completed →
      ((completeEvent session pool jobs current later jobId now).2 = .ok r ↔
        tenantIsolation (pool.getD session) r.tenantId = true) := by
  refine ⟨fun r v h => pooledSettings_iff h session, fun r v h => settings_iff h session,
    fun calls jobs body p hp h => ?_, fun jobs r h hr => ?_,
    fun jobs current existing r he hs h hr hc => ?_⟩
  · exact createEvent_duplicate_iff hp h jobId now
  · rw [claimEvent_unclaimable h hr]
    cases tenantIsolation (pool.getD session) r.tenantId <;> simp
  · rw [completeEvent_raced he hs h hr hc]
    cases tenantIsolation (pool.getD session) r.tenantId <;> simp

/-- An event of the gateway, which names no tenant. -/
def eventBody : EventCreateRequest := { answeredEvent with providerCallId := some "CA1" }

/-- The table with that event recorded, and claimed. -/
def claimedJobs : CallJobs := (run Jobs.step (.init 0) [.create "job" eventBody, .claim "job"]).jobs

/-- `claim_event` on the error path. -/
def claimRequest : Request where
  dependency := .internalService
  ops := [.execute true, .rollback, .execute true]
  raises := true

/-- On a fresh connection the read after the rollback runs without tenant
context: `create_event` answers a recorded event with a 500 and `claim_event`
an existing job with a 404. -/
theorem tenant_context_lost :
    settings .postgresql (.pooled none) claimRequest = [some allTenantsSentinel, none] ∧
      (claimedJobs.lookup "job").map (·.status) = some .processing ∧
      (createEvent none none [] claimedJobs claimedJobs eventBody "job2" 0).2 = .raised ∧
      (claimEvent none none claimedJobs claimedJobs "job" 0).2 = .httpException 404 "job not found" := by
  refine ⟨by decide, by decide, by decide, by decide⟩

/-- `claim_event` on a pool with a fresh connection and one that an earlier request has left
with the sentinel, which is handed out for the read. -/
def claimPooled : PooledRequest where
  dependency := .internalService
  steps := [(.execute true, none), (.rollback, none), (.execute true, some allTenantsSentinel)]

/-- On a connection that an earlier request left with the sentinel they find
the row. -/
theorem tenant_context_holds_left :
    (∀ g ∈ claimPooled.settings .postgresql (.pooled none), g = some allTenantsSentinel) ∧
      (∀ g ∈ settings .postgresql (.pooled (some allTenantsSentinel)) claimRequest, g = some allTenantsSentinel) ∧
      (∃ existing, (createEvent none (some (some allTenantsSentinel)) [] claimedJobs claimedJobs eventBody "job" 0).2 =
        .ok { duplicate := true, event := existing }) := by
  obtain ⟨hpool, -, hcreate, -⟩ := tenant_context_holds_iff none (some (some allTenantsSentinel)) claimedJobs "job" 0
  obtain ⟨-, hset, -⟩ := tenant_context_holds_iff (some allTenantsSentinel) none claimedJobs "job" 0
  exact ⟨(hpool claimPooled allTenantsSentinel rfl).mpr (by decide), (hset claimRequest allTenantsSentinel rfl).mpr (.inl rfl),
    (hcreate [] claimedJobs eventBody "CA1" rfl (by decide)).mpr (by decide)⟩

end CallingAgent.Proof.Tenant
