import CallingAgent.Proof.Jobs.Bounded

/-!
# Backoff

What a pending `fail_event` has read is a row that was `processing`, and so has been
attempted (`pending_run`). A `retrying` row can only be claimed, and that not before
its `available_at` (`held_step`): no other request touches it.
-/

namespace CallingAgent.Proof.Jobs

open CallingAgent.Framework CallingAgent.Impl CallingAgent.Impl.Jobs

/-! ## The delays -/

theorem backoffSeconds_eq (k : Nat) : backoffSeconds k = min (5 * 2 ^ (k - 1)) 300 := rfl

theorem backoffSeconds_mono {j k : Nat} (h : j ≤ k) : backoffSeconds j ≤ backoffSeconds k := by
  have hpow : 2 ^ (j - 1) ≤ 2 ^ (k - 1) := Nat.pow_le_pow_right (by omega) (by omega)
  rw [backoffSeconds_eq, backoffSeconds_eq]
  omega

theorem backoffSeconds_bounds (k : Nat) : 5 ≤ backoffSeconds k ∧ backoffSeconds k ≤ 300 := by
  have hpow : 1 ≤ 2 ^ (k - 1) := Nat.one_le_two_pow
  rw [backoffSeconds_eq]
  omega

/-! ## The clock -/

theorem read_now (s : State) (req : Nat) (jobId : JobId) (next : CallJob → Pending) :
    (s.read req jobId next).now = s.now := by
  unfold State.read
  split
  · split <;> rfl
  · rfl

theorem step_now_le (s : State) (a : Action) : s.now ≤ (step s a).now := by
  cases a with
  | tick d =>
    have hd : (0 : Int) ≤ d := Int.natCast_nonneg d
    exact Int.le_add_of_nonneg_right hd
  | create jobId body => simp only [step]; split <;> exact Int.le_refl _
  | completeRead req jobId => exact Int.le_of_eq (read_now s req jobId _).symm
  | failRead req jobId body => exact Int.le_of_eq (read_now s req jobId _).symm
  | update req => simp only [step]; split <;> exact Int.le_refl _
  | addCall callId => exact Int.le_refl _
  | claim jobId => exact Int.le_refl _
  | reap => exact Int.le_refl _

/-! ## What a pending failure has read -/

/-- A job that is being attempted has been claimed. -/
def Claimed (s : State) : Prop := ∀ r ∈ s.jobs.rows, r.status = .processing → 1 ≤ r.attempts

theorem claimed_step {s : State} (h : Claimed s) (a : Action) : Claimed (step s a) := by
  intro r' hr' hst
  rcases mem_step hr' with ⟨body, jobId, rfl⟩ | ⟨r, hr, hs⟩
  · cases hst
  · cases hs with
    | keep => exact h _ hr hst
    | claim => exact Nat.le_add_left 1 _
    | complete => cases hst
    | fail => rw [failStmt_status] at hst; split at hst <;> cases hst
    | reap => simp only [reapStmt] at hst; split at hst <;> cases hst

theorem claimed_run (now : Time) (as : List Action) : Claimed (run step (.init now) as) :=
  run_inv (I := Claimed) (fun _ hr => absurd hr List.not_mem_nil) (fun _ a h => claimed_step h a) as

/-- A step leaves a pending failure, or has just read its row. -/
theorem pending_step {s : State} {a : Action} {req : Nat} {jobId : JobId} {begun : Time} {existing : CallJob}
    {body : EventFailRequest} (h : (step s a).pending req = some (.fail jobId begun existing body)) :
    s.pending req = some (.fail jobId begun existing body) ∨
      a = .failRead req jobId body ∧ begun = s.now ∧ s.job jobId = some existing ∧ existing.status = .processing := by
  have read_cases : ∀ {k : JobId} {req' : Nat} {next : CallJob → Pending},
      (s.read req' k next).pending req = some (.fail jobId begun existing body) →
        s.pending req = some (.fail jobId begun existing body) ∨
          req' = req ∧ ∃ r, s.job k = some r ∧ r.status = .processing ∧ next r = .fail jobId begun existing body := by
    intro k req' next h
    unfold State.read at h
    split at h
    · rename_i r hr
      split at h
      · rename_i hst
        rcases update_cases h with ⟨rfl, e⟩ | ⟨-, h⟩
        · exact .inr ⟨rfl, r, hr, hst, by simpa using e.symm⟩
        · exact .inl h
      · exact .inl h
    · exact .inl h
  cases a with
  | completeRead req' k =>
    rcases read_cases h with h | ⟨-, r, -, -, e⟩
    · exact .inl h
    · cases e
  | failRead req' k body' =>
    rcases read_cases h with h | ⟨rfl, r, hr, hst, e⟩
    · exact .inl h
    · cases e
      exact .inr ⟨rfl, rfl, hr, hst⟩
  | update req' =>
    simp only [step] at h
    split at h
    · by_cases hreq : req = req'
      · subst hreq
        simp at h
      · simp only [Function.update_of_ne hreq] at h
        exact .inl h
    · exact .inl h
  | create k body' => simp only [step] at h; split at h <;> exact .inl h
  | tick d => exact .inl h
  | addCall callId => exact .inl h
  | claim k => exact .inl h
  | reap => exact .inl h

theorem pending_run {now : Time} {as : List Action} {req : Nat} {jobId : JobId} {begun : Time} {existing : CallJob}
    {body : EventFailRequest} (h : (run step (.init now) as).pending req = some (.fail jobId begun existing body)) :
    ∃ bs, bs ++ [.failRead req jobId body] <+: as ∧ (run step (.init now) bs).now = begun ∧
      (run step (.init now) bs).job jobId = some existing ∧ existing.status = .processing := by
  induction as using List.reverseRecOn with
  | nil => cases h
  | append_singleton as a ih =>
    rw [run_concat] at h
    rcases pending_step h with h | ⟨rfl, rfl, hr, hst⟩
    · obtain ⟨bs, hbs, hread⟩ := ih h
      exact ⟨bs, hbs.trans (List.prefix_append _ _), hread⟩
    · exact ⟨as, List.prefix_refl _, rfl, hr, hst⟩

/-! ## Until the deadline -/

/-- The job waits for the deadline, or it has passed. -/
def Held (jobId : JobId) (deadline : Time) (s : State) : Prop :=
  deadline ≤ s.now ∨ ∃ r, s.job jobId = some r ∧ r.status = .retrying ∧ deadline ≤ r.availableAt

variable {jobId : JobId} {deadline : Time} {s : State}

theorem held_step (h : Held jobId deadline s) (a : Action) : Held jobId deadline (step s a) := by
  cases h with
  | inl h => exact .inl (Int.le_trans h (step_now_le s a))
  | inr h =>
    obtain ⟨r, hr, hst, hat⟩ := h
    obtain ⟨r', hr', hs⟩ := rowStep hr a
    have hnot : r.status ≠ .processing := by rw [hst]; decide
    cases hs with
    | keep => exact .inr ⟨r, hr', hst, hat⟩
    | claim _ _ ht => exact .inl (Int.le_trans (Int.le_trans hat ht) (step_now_le s a))
    | complete _ _ hp => exact absurd hp hnot
    | fail _ _ hp => exact absurd hp hnot
    | reap _ hp => exact absurd hp hnot

theorem held_claims (h : Held jobId deadline s) (hc : claims jobId s (.claim jobId) = true) : deadline ≤ s.now := by
  obtain ⟨r, hr, -, hat⟩ := claims_claim.mp hc
  cases h with
  | inl h => exact h
  | inr h =>
    obtain ⟨r', hr', -, hat'⟩ := h
    obtain rfl : r = r' := Option.some.inj (hr.symm.trans hr')
    exact Int.le_trans hat' hat

/-- The `UPDATE` of a `fail_event` moves the job from `processing` to `retrying`. -/
structure Retries (s : State) (req : Nat) (jobId : JobId) (begun : Time) (existing : CallJob) (body : EventFailRequest) :
    Prop where
  pending : s.pending req = some (.fail jobId begun existing body)
  before : ∃ r, s.job jobId = some r ∧ r.status = .processing
  after : ∃ r, (step s (.update req)).job jobId = some r ∧ r.status = .retrying

theorem Retries.held {req : Nat} {begun : Time} {existing : CallJob} {body : EventFailRequest}
    (h : Retries s req jobId begun existing body) :
    Held jobId (begun + seconds (backoffSeconds existing.attempts)) (step s (.update req)) := by
  obtain ⟨r, hr, hst⟩ := h.before
  obtain ⟨r', hr', hst'⟩ := h.after
  have hg : (failStmt jobId existing body begun begun).guard r = true := by
    simp [failStmt, Table.lookup_key hr, hst]
  have hj := job_step hr (.update req)
  simp only [stmtOf, h.pending, Option.map_some, Option.getD_some, Pending.stmt, Update.row_of_guard hg] at hj
  rw [hj, Option.some.injEq] at hr'
  subst hr'
  rw [failStmt_status] at hst'
  have hcan : canRetry existing body = true := by
    by_contra h
    rw [if_neg h] at hst'
    cases hst'
  refine .inr ⟨_, hj, by rw [failStmt_status, if_pos hcan], ?_⟩
  simp [failStmt, hcan]

/-- In any run in which a `fail_event` moves a job to `retrying`: it has read the row
at the time `begun`, with `k` attempts made, `k` at least one, and no later claim of
the job succeeds before `begun` and `min(5 * 2^(k-1), 300)` seconds, whatever the
requests in between. -/
theorem backoff_respected (now : Time) (ps qs : List Action) (req : Nat) (jobId : JobId) (begun : Time)
    (existing : CallJob) (body : EventFailRequest)
    (h : Retries (run step (.init now) ps) req jobId begun existing body) :
    let k := existing.attempts
    (∃ bs, bs ++ [.failRead req jobId body] <+: ps ∧ (run step (.init now) bs).now = begun ∧
      (run step (.init now) bs).job jobId = some existing) ∧
    (claims jobId (run step (.init now) (ps ++ .update req :: qs)) (.claim jobId) = true →
      begun + seconds (min (5 * 2 ^ (k - 1)) 300) ≤ (run step (.init now) (ps ++ .update req :: qs)).now) ∧
    1 ≤ k ∧ (∀ j, j ≤ k → min (5 * 2 ^ (j - 1)) 300 ≤ min (5 * 2 ^ (k - 1)) 300) ∧
    5 ≤ min (5 * 2 ^ (k - 1)) 300 ∧ min (5 * 2 ^ (k - 1)) 300 ≤ 300 := by
  intro k
  obtain ⟨bs, hbs, hnow, hread, hst⟩ := pending_run h.pending
  refine ⟨⟨bs, hbs, hnow, hread⟩, fun hc => ?_, ?_, fun j hj => backoffSeconds_mono hj, backoffSeconds_bounds k⟩
  · have hheld : Held jobId (begun + seconds (backoffSeconds k)) (run step (.init now) (ps ++ .update req :: qs)) := by
      rw [run_append, run_cons]
      exact run_inv (I := Held jobId _) h.held (fun _ a h => held_step h a) qs
    exact held_claims hheld hc
  · exact claimed_run now bs existing (Table.lookup_mem hread) hst

/-- A job that has failed once is `retrying`, and claimed again after its five seconds. -/
theorem backoff_respected_once :
    let ps : List Action := [.create "job" answeredEvent, .claim "job", .failRead 0 "job" timedOut]
    let s := run step (.init 0) (ps ++ .update 0 :: [.tick 5000000])
    claims "job" s (.claim "job") = true ∧ seconds 5 ≤ s.now := by
  intro ps s
  have hclaims : claims "job" s (.claim "job") = true := by decide
  let existing := { newJob answeredEvent "job" 0 with status := .processing, attempts := 1 }
  have hretries : Retries (run step (.init 0) ps) 0 "job" 0 existing timedOut := ⟨rfl, ⟨_, rfl, rfl⟩, ⟨_, rfl, rfl⟩⟩
  have h := (backoff_respected 0 ps [.tick 5000000] 0 "job" 0 existing timedOut hretries).2.1 hclaims
  have hdelay : min (5 * 2 ^ (existing.attempts - 1)) 300 = 5 := by decide
  rw [hdelay, Int.zero_add] at h
  exact ⟨hclaims, h⟩

end CallingAgent.Proof.Jobs
