import CallingAgent.Proof.Jobs.Endpoints
import CallingAgent.Proof.Jobs.Lifecycle

/-!
# No job is stranded

A job that has not ended is waiting for its `available_at`, after which
`list_eligible_events` selects it and `claim_event` takes it, or it is being
attempted, and becomes stale `_STALE_PROCESSING_SECONDS` after its claim, when
`reap_stale_jobs` moves it. `due` is that moment. Every write of a row sets it
to at most `_MAX_BACKOFF_SECONDS` after the write (`due_step`), so a run never
leaves a row for longer (`due_run`).

The list, the claim and the sweep have their own filters: the first two agree
on every row (`eligible_iff_claims`).
-/

namespace CallingAgent.Proof.Jobs

open CallingAgent.Framework CallingAgent.Impl CallingAgent.Impl.Jobs CallingAgent.Impl.Tenant

/-- From this time on a job that has not ended can be taken up. -/
def due (r : CallJob) : Time :=
  match r.status with
  | .processing => r.updatedAt + seconds staleProcessingSeconds + 1
  | _ => r.availableAt

/-- The times at which a run changes the row of a job, in order. -/
def changes (jobId : JobId) (s : State) (as : List Action) : List Time :=
  collect step (fun s a => if (step s a).job jobId = s.job jobId then [] else [s.now]) s as

theorem changes_concat (jobId : JobId) (s : State) (as : List Action) (a : Action) :
    changes jobId s (as ++ [a]) =
      changes jobId s as ++
        if (step (run step s as) a).job jobId = (run step s as).job jobId then [] else [(run step s as).now] :=
  collect_concat _ _ _ _

/-! ## The clock of a pending request -/

/-- When the transaction of a pending request began. -/
def Pending.begun : Pending → Time
  | .complete _ begun => begun
  | .fail _ begun _ _ => begun

/-- Pending requests began in the past. -/
def Past (s : State) : Prop := ∀ req p, s.pending req = some p → Pending.begun p ≤ s.now

theorem Past.read {s : State} (h : Past s) (req : Nat) (jobId : JobId) {next : CallJob → Pending}
    (hn : ∀ r, Pending.begun (next r) ≤ s.now) : Past (s.read req jobId next) := by
  unfold State.read
  split
  · split
    · intro req' p hp
      by_cases e : req' = req
      · subst e
        simp only [Function.update_self, Option.some.injEq] at hp
        rw [← hp]; exact hn _
      · simp only [Function.update_of_ne e] at hp
        exact h req' p hp
    · exact h
  · exact h

theorem past_step (s : State) (a : Action) (h : Past s) : Past (step s a) := by
  cases a with
  | tick d =>
    intro req p hp
    have := h req p hp
    show Pending.begun p ≤ s.now + d
    lia
  | addCall c => exact h
  | create k body => simp only [step]; split <;> exact h
  | claim k => exact h
  | completeRead req k => exact h.read req k fun _ => Int.le_refl _
  | failRead req k body => exact h.read req k fun _ => Int.le_refl _
  | update req =>
    simp only [step]
    split
    · intro req' p hp
      by_cases e : req' = req
      · subst e; simp at hp
      · simp only [Function.update_of_ne e] at hp
        exact h req' p hp
    · exact h
  | reap => exact h

/-! ## The time that a job waits -/

theorem backoffSeconds_le (attempts : Nat) : backoffSeconds attempts ≤ maxBackoffSeconds :=
  min_le_right _ _

theorem seconds_le {m n : Nat} (h : m ≤ n) : seconds m ≤ seconds n := by
  unfold seconds
  lia

/-- A row that a step has written, and that has not ended, is due soon. -/
theorem RowStep.due_le {s : State} {a : Action} {r r' : CallJob} (hp : Past s) (h : RowStep s a r r')
    (hr' : isTerminal r'.status = false) (hne : r' ≠ r) : due r' ≤ s.now + seconds maxBackoffSeconds := by
  cases h with
  | keep => exact absurd rfl hne
  | claim =>
    show s.now + seconds staleProcessingSeconds + 1 ≤ s.now + seconds maxBackoffSeconds
    simp only [seconds, staleProcessingSeconds, maxBackoffSeconds]
    lia
  | complete => cases hr'
  | @fail req begun existing body _ hpend =>
    have hbegun : begun ≤ s.now := hp req _ hpend
    rw [failStmt_status] at hr'
    cases hc : canRetry existing body with
    | false => rw [hc] at hr'; cases hr'
    | true =>
      have hdue : due ((failStmt r.jobId existing body begun begun).set r) =
          begun + seconds (backoffSeconds existing.attempts) := by
        simp only [failStmt, hc, if_true, due]
      rw [hdue]
      have := seconds_le (backoffSeconds_le existing.attempts)
      lia
  | reap =>
    have hdue : due ((reapStmt s.now).set r) = s.now := by
      simp only [reapStmt, due]
      split
      · rename_i e; split at e <;> cases e
      · rfl
    rw [hdue]
    simp only [seconds, maxBackoffSeconds]
    lia

/-- A job that is there and has not ended is due within
`_MAX_BACKOFF_SECONDS` of the last change of its row. -/
def DueSoon (jobId : JobId) (s : State) (as : List Action) : Prop :=
  ∀ r, (run step s as).job jobId = some r → isTerminal r.status = false →
    ∃ t, (changes jobId s as).getLast? = some t ∧ due r ≤ t + seconds maxBackoffSeconds

theorem due_run (now : Time) (jobId : JobId) (as : List Action) : DueSoon jobId (.init now) as := by
  induction as using List.reverseRecOn with
  | nil => intro r hr; cases hr
  | append_singleton as a ih =>
    have hpast : Past (run step (.init now) as) := run_inv (fun _ _ h => by cases h) past_step as
    intro r' hr' ht
    rw [run_concat] at hr'
    rw [changes_concat]
    cases hr : (run step (.init now) as).job jobId with
    | none =>
      -- The row is new.
      obtain ⟨body, -, rfl⟩ := job_create hr hr'
      rw [hr', if_neg (by simp), List.getLast?_concat]
      refine ⟨_, rfl, ?_⟩
      show (run step (.init now) as).now ≤ (run step (.init now) as).now + seconds maxBackoffSeconds
      simp only [seconds, maxBackoffSeconds]
      lia
    | some r =>
      obtain ⟨x, hx, hs⟩ := rowStep hr a
      obtain rfl : x = r' := Option.some.inj (hx.symm.trans hr')
      by_cases e : x = r
      · subst e
        rw [hr', if_pos rfl, List.append_nil]
        exact ih x hr ht
      · rw [hr', if_neg (by simpa using e), List.getLast?_concat]
        exact ⟨_, rfl, hs.due_le hpast ht e⟩

/-! ## What a due job gets -/

/-- `list_eligible_events` sees every row. -/
theorem mem_eligible {session : Setting} {jobs : CallJobs} {statuses : List String} {now : Time} {r : CallJob} :
    r ∈ eligible session jobs statuses now ↔ r ∈ jobs.rows ∧ isEligible statuses now r = true := by
  rw [eligible, List.mem_filter, visible_sentinel (begun_internalService session)]

theorem isEligible_default {now : Time} {r : CallJob} :
    isEligible defaultStatuses now r = true ↔ isClaimable r.status = true ∧ r.availableAt ≤ now := by
  unfold isEligible
  rw [Bool.and_eq_true, decide_eq_true_eq]
  cases r.status <;> simp [defaultStatuses, statusText, isClaimable]

/-- A job passes the filter of `list_eligible_events` exactly when a claim of it
would be successful. -/
theorem eligible_iff_claims (session : Setting) (s : State) (jobId : JobId) :
    (∃ r ∈ eligible session s.jobs defaultStatuses s.now, r.jobId = jobId) ↔
      claims jobId s (.claim jobId) = true := by
  rw [claims_claim]
  constructor
  · rintro ⟨r, hr, rfl⟩
    obtain ⟨hm, he⟩ := mem_eligible.mp hr
    obtain ⟨hc, ht⟩ := isEligible_default.mp he
    exact ⟨r, Table.lookup_of_mem hm, hc, ht⟩
  · rintro ⟨r, hr, hc, ht⟩
    exact ⟨r, mem_eligible.mpr ⟨Table.lookup_mem hr, isEligible_default.mpr ⟨hc, ht⟩⟩, Table.lookup_key hr⟩

/-- `reap_stale_jobs` moves a job that is due and being attempted. -/
theorem reaped_of_due {s : State} {jobId : JobId} {r : CallJob} (h : s.job jobId = some r)
    (hp : r.status = .processing) (ht : due r ≤ s.now) :
    ((step s .reap).job jobId).map (·.status) = some .retrying ∨
      ((step s .reap).job jobId).map (·.status) = some .failed := by
  have hg : (reapStmt s.now).guard r = true := by
    simp only [due, hp] at ht
    simp only [reapStmt, hp, beq_self_eq_true, Bool.true_and, decide_eq_true_eq]
    lia
  rw [job_step h]
  show Option.map _ (some ((reapStmt s.now).row r)) = _ ∨ Option.map _ (some ((reapStmt s.now).row r)) = _
  rw [Update.row_of_guard hg]
  simp only [reapStmt, Option.map_some]
  split <;> simp

/-- No job is stranded. In every state of every run, for a job that has not
ended there is a time, at most `_MAX_BACKOFF_SECONDS` after the last change of
its row, from which on, as long as nothing touches the row, either the job is
`queued` or `retrying`, `list_eligible_events` selects it and a claim of it is
successful, or it is `processing` and a sweep moves it to `retrying` or
`failed`. At every time a job passes the filter of `list_eligible_events`
exactly when a claim of it would be successful. -/
theorem no_job_stranded (now : Time) (as : List Action) :
    (∀ jobId r, (run step (.init now) as).job jobId = some r → isTerminal r.status = false →
      ∃ changed T, (changes jobId (.init now) as).getLast? = some changed ∧
        T ≤ changed + seconds 300 ∧
        ∀ (session : Setting) (s : State), s.job jobId = some r → T ≤ s.now →
          ((r.status = .queued ∨ r.status = .retrying) ∧
              r ∈ eligible session s.jobs defaultStatuses s.now ∧ claims jobId s (.claim jobId) = true) ∨
            (r.status = .processing ∧
              (((step s .reap).job jobId).map (·.status) = some .retrying ∨
                ((step s .reap).job jobId).map (·.status) = some .failed))) ∧
    ∀ (session : Setting) (s : State) (jobId : JobId),
      (∃ r ∈ eligible session s.jobs defaultStatuses s.now, r.jobId = jobId) ↔
        claims jobId s (.claim jobId) = true := by
  refine ⟨fun jobId r hr hn => ?_, eligible_iff_claims⟩
  obtain ⟨changed, hc, hdue⟩ := due_run now jobId as r hr hn
  refine ⟨changed, due r, hc, hdue, fun session s hs ht => ?_⟩
  have hwait : r.status ≠ .processing → isClaimable r.status = true →
      r ∈ eligible session s.jobs defaultStatuses s.now ∧ claims jobId s (.claim jobId) = true := by
    intro hp hcl
    have havail : r.availableAt ≤ s.now := by
      unfold due at ht
      split at ht
      · rename_i e; exact absurd e hp
      · exact ht
    exact ⟨mem_eligible.mpr ⟨Table.lookup_mem hs, isEligible_default.mpr ⟨hcl, havail⟩⟩,
      claims_claim.mpr ⟨r, hs, hcl, havail⟩⟩
  cases hst : r.status with
  | queued => exact .inl ⟨.inl rfl, hwait (by rw [hst]; decide) (by rw [hst]; rfl)⟩
  | retrying => exact .inl ⟨.inr rfl, hwait (by rw [hst]; decide) (by rw [hst]; rfl)⟩
  | processing => exact .inr ⟨rfl, reaped_of_due hs hst ht⟩
  | completed => rw [hst] at hn; cases hn
  | failed => rw [hst] at hn; cases hn

/-- The row of a job that has failed once: it waits for five seconds. -/
def backedOffRow : CallJob :=
  { retriedRow with status := .retrying, attempts := 1, updatedAt := 0, processedAt := none }

theorem no_job_stranded_backed_off :
    (run step (.init 0) (retriedRun.take 4)).job "job" = some backedOffRow ∧
      ∃ T ≤ seconds 300, ∀ (session : Setting) (s : State), s.job "job" = some backedOffRow → T ≤ s.now →
        backedOffRow ∈ eligible session s.jobs defaultStatuses s.now ∧ claims "job" s (.claim "job") = true := by
  have hrow : (run step (.init 0) (retriedRun.take 4)).job "job" = some backedOffRow := by decide
  obtain ⟨changed, T, hc, hT, h⟩ := (no_job_stranded 0 (retriedRun.take 4)).1 "job" backedOffRow hrow (by decide)
  have hzero : (changes "job" (.init 0) (retriedRun.take 4)).getLast? = some 0 := by decide
  obtain rfl : 0 = changed := Option.some.inj (hzero.symm.trans hc)
  refine ⟨hrow, T, by simpa using hT, fun session s hs ht => ?_⟩
  rcases h session s hs ht with ⟨-, h⟩ | ⟨hp, -⟩
  · exact h
  · cases hp

end CallingAgent.Proof.Jobs
