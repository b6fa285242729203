import CallingAgent.Proof.Worker.Ownership

/-!
# Integrations that succeeded

`reap_stale_jobs` goes by the time of the claim alone. A job whose integration
has succeeded but whose `complete` was lost, or whose run is still at work, is
handed to another run, which repeats the integration, or is `failed` when its
attempts are used up (`integration_repeated_or_lost`). As long as a
reap only moves jobs that no run is at work on and whose integration has not
succeeded, a job has one run at a time and no further one after a success
(`Single`), so each integration succeeds at most once and is never lost
(`integration_once`).
-/

namespace CallingAgent.Proof.Worker

open CallingAgent.Framework CallingAgent.Impl CallingAgent.Impl.Worker CallingAgent.Proof.Jobs

/-- How often `integration.process` returned success for a job. -/
def successes (jobId : JobId) (log : List Event) : Nat :=
  log.countP fun e => match e with
    | .succeeded k _ => k == jobId
    | _ => false

/-- The integration of a job succeeds at most once, and the job is then never
`failed`. -/
def SucceedsOnce (w : World) : Prop :=
  ∀ jobId, successes jobId w.log ≤ 1 ∧
    (successes jobId w.log ≠ 0 → (w.api.job jobId).map (·.status) ≠ some .failed)

/-- A reap moves a job that a run is at work on, or whose integration has
succeeded. -/
def ReapsBusy (w : World) (a : Action) : Prop :=
  a = .reap ∧ ∃ r ∈ w.api.jobs.rows, (Jobs.reapStmt w.api.now).guard r = true ∧
    ((∃ n job, Phase.job? (w.phase n) = some job ∧ job.jobId = r.jobId) ∨ successes r.jobId w.log ≠ 0)

/-- A run that will call `integration.process`, or has seen it fail. -/
def Unsuccessful : Phase → Option CallJob
  | .claimed job => some job
  | .sending job (.fail _) => some job
  | .reporting job (.fail _) => some job
  | _ => none

theorem job?_of_unsuccessful {phase : Phase} {job : CallJob} (h : Unsuccessful phase = some job) :
    Phase.job? phase = some job := by
  cases phase with
  | idle => cases h
  | claimed => exact h
  | sending _ report => cases report <;> [cases h; exact h]
  | reporting _ report => cases report <;> [cases h; exact h]
  | done => cases h

/-- Each job has one run at work on it at a time, and only a run with a success
to report after a success. -/
structure Single (w : World) : Prop where
  live : ∀ {n job}, Phase.job? (w.phase n) = some job → Processing w.api job.jobId
  one : ∀ {n m job job'}, Phase.job? (w.phase n) = some job → Phase.job? (w.phase m) = some job' →
    job.jobId = job'.jobId → n = m
  tied : ∀ {n job report}, w.phase n = .reporting job report →
    ∃ x, w.api.pending n = some x ∧ Matches job report x
  count : ∀ jobId, successes jobId w.log ≤ 1
  kept : ∀ {jobId}, successes jobId w.log ≠ 0 →
    Processing w.api jobId ∨ (w.api.job jobId).map (·.status) = some .completed
  quiet : ∀ {n job}, Unsuccessful (w.phase n) = some job → successes job.jobId w.log = 0

theorem Single.succeedsOnce {w : World} (h : Single w) : SucceedsOnce w := by
  refine fun jobId => ⟨h.count jobId, fun hs e => ?_⟩
  rcases h.kept hs with ⟨r, hr, hp⟩ | hc
  · rw [hr, Option.map_some, hp] at e; cases e
  · rw [hc] at e; cases e

theorem successes_cons_of_ne {jobId : JobId} {e : Event} {log : List Event}
    (h : ∀ n, e ≠ .succeeded jobId n) : successes jobId (e :: log) = successes jobId log := by
  unfold successes
  rw [List.countP_cons_of_neg]
  cases e with
  | succeeded k n => simpa using fun hk : k = jobId => h n (by rw [hk])
  | _ => simp

theorem successes_append_reaped (jobId : JobId) (rows : List CallJob) (log : List Event) :
    successes jobId (rows.map (fun r => .reaped r.jobId) ++ log) = successes jobId log := by
  unfold successes
  rw [List.countP_append, List.countP_eq_zero.mpr, Nat.zero_add]
  intro e he
  obtain ⟨r, -, rfl⟩ := List.mem_map.mp he
  simp

/-! ## Steps -/

/-- Steps in which no run starts and no run that has failed to succeed appears,
while the rows of the jobs at work or with a success stay. -/
theorem Single.mono {w w' : World} (h : Single w)
    (hj : ∀ {n job}, Phase.job? (w'.phase n) = some job → Phase.job? (w.phase n) = some job)
    (hu : ∀ {n job}, Unsuccessful (w'.phase n) = some job → Unsuccessful (w.phase n) = some job)
    (ht : ∀ {n job report}, w'.phase n = .reporting job report →
      ∃ x, w'.api.pending n = some x ∧ Matches job report x)
    (hs : ∀ jobId, successes jobId w'.log = successes jobId w.log)
    (hp : ∀ {n job}, Phase.job? (w'.phase n) = some job → w'.api.job job.jobId = w.api.job job.jobId)
    (hk : ∀ {jobId}, successes jobId w.log ≠ 0 → w'.api.job jobId = w.api.job jobId ∨
      (w'.api.job jobId).map (·.status) = some .completed) : Single w' where
  live h' := (processing_congr (hp h')).mpr (h.live (hj h'))
  one h₁ h₂ := h.one (hj h₁) (hj h₂)
  tied := ht
  count jobId := by rw [hs]; exact h.count jobId
  kept {jobId} h' := by
    rw [hs] at h'
    rcases hk h' with e | e
    · rw [e]; exact (h.kept h').imp_left (processing_congr e).mpr
    · exact .inr e
  quiet h' := by rw [hs]; exact h.quiet (hu h')

theorem Single.setPhase {w : World} {n : Nat} {phase : Phase} {api : Jobs.State} (h : Single w)
    (hj : ∀ job, Phase.job? phase = some job → Phase.job? (w.phase n) = some job)
    (hu : ∀ job, Unsuccessful phase = some job → Unsuccessful (w.phase n) = some job)
    (ht : ∀ job report, phase = .reporting job report → ∃ x, api.pending n = some x ∧ Matches job report x)
    (hpend : ∀ m, m ≠ n → api.pending m = w.api.pending m)
    (hrows : ∀ jobId, api.job jobId = w.api.job jobId) :
    Single { api := api, phase := Function.update w.phase n phase, log := w.log } := by
  refine h.mono (fun {m job} => ?_) (fun {m job} => ?_) (fun {m job report} => ?_) (fun _ => rfl)
    (fun _ => hrows _) (fun _ => .inl (hrows _))
  · exact forall_update (Q := fun m p => Phase.job? p = some job → Phase.job? (w.phase m) = some job)
      (hj job) (fun _ _ => id) m
  · exact forall_update (Q := fun m p => Unsuccessful p = some job → Unsuccessful (w.phase m) = some job)
      (hu job) (fun _ _ => id) m
  · exact forall_update
      (Q := fun m (p : Phase) => p = .reporting job report → ∃ x, api.pending m = some x ∧ Matches job report x)
      (ht job report) (fun m e h' => by rw [hpend m e]; exact h.tied h') m

theorem Single.reap {w : World} (h : Single w) (hc : ¬ ReapsBusy w .reap) : Single (step w .reap) := by
  have hrow : ∀ jobId, ((∃ n job, Phase.job? (w.phase n) = some job ∧ job.jobId = jobId) ∨
      successes jobId w.log ≠ 0) → (Jobs.step w.api .reap).job jobId = w.api.job jobId := by
    intro jobId hb
    rcases processing_reap w.api jobId with ⟨⟨r, hr, hg⟩, -⟩ | ⟨-, e⟩
    · refine absurd ⟨rfl, r, Table.lookup_mem hr, hg, ?_⟩ hc
      rw [Table.lookup_key hr]; exact hb
    · exact e
  exact h.mono id id (fun h' => h.tied h') (fun jobId => successes_append_reaped jobId _ _)
    (fun {n job} h' => hrow _ (.inl ⟨n, job, h', rfl⟩)) (fun h' => .inl (hrow _ (.inr h')))

theorem Single.claim {w : World} (h : Single w) {n : Nat} {jobId : JobId} {phase : Phase}
    (hi : w.phase n = .idle) (hc : Jobs.claims jobId w.api (.claim jobId) = true)
    (hj : phase = .done ∨ ∃ job, phase = .claimed job ∧ job.jobId = jobId) :
    Single
      { api := Jobs.step w.api (.claim jobId)
        phase := Function.update w.phase n phase
        log := .claimed jobId n :: w.log } := by
  have hnp := not_processing_of_claims hc
  have hs : ∀ k, successes k (.claimed jobId n :: w.log) = successes k w.log := fun k =>
    successes_cons_of_ne (by simp)
  -- The job could be claimed, so its integration has not succeeded.
  have hzero : successes jobId w.log = 0 := by
    by_contra hne
    rcases h.kept hne with hp | hp
    · exact hnp hp
    · obtain ⟨r, hr, hcl, -⟩ := Jobs.claims_claim.mp hc
      rw [hr, Option.map_some, Option.some.injEq] at hp
      rw [hp] at hcl; cases hcl
  have hphase : ∀ m, ∀ job, Phase.job? (Function.update w.phase n phase m) = some job →
      m = n ∧ job.jobId = jobId ∨ m ≠ n ∧ Phase.job? (w.phase m) = some job ∧ job.jobId ≠ jobId := by
    refine forall_update (Q := fun m p => ∀ job, Phase.job? p = some job → m = n ∧ job.jobId = jobId ∨
      m ≠ n ∧ Phase.job? (w.phase m) = some job ∧ job.jobId ≠ jobId) (fun job h' => ?_)
      fun m e job h' => .inr ⟨e, h', fun e' => hnp (e' ▸ h.live h')⟩
    rcases hj with rfl | ⟨x, rfl, hx⟩ <;> cases h'
    exact .inl ⟨rfl, hx⟩
  refine ⟨fun {m job} h' => ?_, fun {m k job job'} h₁ h₂ e => ?_, fun {m job report} => ?_, fun k => ?_,
    fun {k} h' => ?_, fun {m job} h' => ?_⟩
  · rcases hphase m job h' with ⟨-, e⟩ | ⟨-, h', hk⟩
    · obtain ⟨r, hr, hp⟩ := Jobs.processing_of_claims hc
      rw [e]; exact ⟨r, hr, hp⟩
    · exact (processing_congr (job_claim_of_ne hk)).mpr (h.live h')
  · rcases hphase m job h₁ with ⟨rfl, e₁⟩ | ⟨-, h₁, e₁⟩ <;>
      rcases hphase k job' h₂ with ⟨rfl, e₂⟩ | ⟨-, h₂, e₂⟩
    · rfl
    · exact absurd (e.symm.trans e₁) e₂
    · exact absurd (e.trans e₂) e₁
    · exact h.one h₁ h₂ e
  · refine forall_update (Q := fun m (p : Phase) => p = .reporting job report →
      ∃ x, w.api.pending m = some x ∧ Matches job report x) (fun h' => ?_) (fun _ _ => h.tied) m
    rcases hj with rfl | ⟨x, rfl, -⟩ <;> cases h'
  · rw [hs]; exact h.count k
  · rw [hs] at h'
    have hk : k ≠ jobId := fun e => h' (e ▸ hzero)
    show Processing (Jobs.step w.api (.claim jobId)) k ∨ ((Jobs.step w.api (.claim jobId)).job k).map _ = _
    rw [processing_congr (job_claim_of_ne hk), job_claim_of_ne hk]
    exact h.kept h'
  · rw [hs]
    rcases hphase m job (job?_of_unsuccessful h') with ⟨-, e⟩ | ⟨e, -, -⟩
    · rw [e]; exact hzero
    · dsimp only at h'
      rw [update_phase e] at h'
      exact h.quiet h'

theorem Single.succeed {w : World} (h : Single w) {n : Nat} {job : CallJob} (hp : w.phase n = .claimed job) :
    Single { w.setPhase n (.sending job .complete) with log := .succeeded job.jobId n :: w.log } := by
  have hlive : Phase.job? (w.phase n) = some job := by rw [hp]; rfl
  have hzero : successes job.jobId w.log = 0 := h.quiet (by rw [hp]; rfl)
  have hself : successes job.jobId (.succeeded job.jobId n :: w.log) = 1 := by
    simp only [successes, List.countP_cons, beq_self_eq_true, if_true] at hzero ⊢
    rw [hzero]
  have hother : ∀ k, k ≠ job.jobId → successes k (.succeeded job.jobId n :: w.log) = successes k w.log :=
    fun k hk => successes_cons_of_ne fun m e => hk (Event.succeeded.inj e).1.symm
  have hphase : ∀ m k, Phase.job? (Function.update w.phase n (.sending job .complete) m) = some k →
      Phase.job? (w.phase m) = some k :=
    forall_update (Q := fun m p => ∀ k, Phase.job? p = some k → Phase.job? (w.phase m) = some k)
      (fun k h' => by rw [hlive]; exact h') fun m _ k h' => h'
  have hunsucc : ∀ m k, Unsuccessful (Function.update w.phase n (.sending job .complete) m) = some k →
      m ≠ n ∧ Unsuccessful (w.phase m) = some k :=
    forall_update (Q := fun m p => ∀ k, Unsuccessful p = some k → m ≠ n ∧ Unsuccessful (w.phase m) = some k)
      (fun k h' => by cases h') fun m e k h' => ⟨e, h'⟩
  refine ⟨fun {m k} h' => h.live (hphase m k h'), fun {m k j j'} h₁ h₂ e =>
    h.one (hphase m j h₁) (hphase k j' h₂) e, fun {m k report} => ?_, fun k => ?_, fun {k} h' => ?_,
    fun {m k} h' => ?_⟩
  · exact forall_update (Q := fun m (p : Phase) => p = .reporting k report →
      ∃ x, w.api.pending m = some x ∧ Matches k report x) (fun h' => by cases h') (fun _ _ => h.tied) m
  · by_cases hk : k = job.jobId
    · rw [hk, hself]
    · rw [hother k hk]; exact h.count k
  · by_cases hk : k = job.jobId
    · rw [hk]; exact .inl (h.live hlive)
    · rw [hother k hk] at h'; exact h.kept h'
  · obtain ⟨e, h'⟩ := hunsucc m k h'
    -- Only run `n` is at work on its job.
    have hk : k.jobId ≠ job.jobId := fun hk => e (h.one (job?_of_unsuccessful h') hlive hk)
    rw [hother _ hk]; exact h.quiet h'

theorem Single.update {w : World} (h : Single w) {n : Nat} {job : CallJob} {report : Report}
    (hn : w.phase n = .reporting job report) :
    Single { w.setPhase n .done with api := Jobs.step w.api (.update n) } := by
  obtain ⟨x, hx, hm⟩ := h.tied hn
  have hlive : Phase.job? (w.phase n) = some job := by rw [hn]; rfl
  obtain ⟨r, -, hset, -⟩ := job_update_hit hx hm (h.live hlive)
  have hphase : ∀ m k, Phase.job? (Function.update w.phase n .done m) = some k →
      m ≠ n ∧ Phase.job? (w.phase m) = some k :=
    forall_update (Q := fun m p => ∀ k, Phase.job? p = some k → m ≠ n ∧ Phase.job? (w.phase m) = some k)
      (fun k h' => by cases h') fun m e k h' => ⟨e, h'⟩
  refine h.mono (fun {m k} h' => (hphase m k h').2) (fun {m k} => ?_) (fun {m k rep} => ?_) (fun _ => rfl)
    (fun {m k} h' => ?_) (fun {k} h' => ?_)
  · exact forall_update (Q := fun m p => Unsuccessful p = some k → Unsuccessful (w.phase m) = some k)
      (fun h' => by cases h') (fun _ _ => id) m
  · refine forall_update (Q := fun m (p : Phase) => p = .reporting k rep →
      ∃ x, (Jobs.step w.api (.update n)).pending m = some x ∧ Matches k rep x)
      (fun h' => by cases h') (fun m e h' => ?_) m
    have : (Jobs.step w.api (.update n)).pending m = w.api.pending m := by
      simp only [Jobs.step, hx]; exact Function.update_of_ne e _ _
    rw [this]; exact h.tied h'
  · obtain ⟨e, h'⟩ := hphase m k h'
    exact job_update_of_ne hx hm fun hk => e (h.one h' hlive hk)
  · by_cases hk : k = job.jobId
    · -- The report of a job whose integration has succeeded is `complete`.
      right
      cases report with
      | complete =>
        cases x with
        | complete => rw [hk]; show (Option.map _ ((Jobs.step w.api (.update n)).job _)) = _; rw [hset]; rfl
        | fail => exact hm.elim
      | fail body =>
        have hquiet : successes job.jobId w.log = 0 := h.quiet (by rw [hn]; rfl)
        exact absurd hquiet (hk ▸ h')
    · exact .inl (job_update_of_ne hx hm hk)

theorem single_step {w : World} {a : Action} (h : Single w) (hc : ¬ ReapsBusy w a) : Single (step w a) := by
  have hs := wStep w a
  generalize hw : step w a = w' at hs
  cases hs with
  | skip => exact h
  | @outside b _ hb hp =>
    have hrow : ∀ k, (∃ r, w.api.job k = some r) → (Jobs.step w.api b).job k = w.api.job k := by
      rintro k ⟨r, hr⟩
      rw [Jobs.job_step hr b, hb, hr]; rfl
    refine h.mono id id (fun h' => by rw [hp]; exact h.tied h') (fun _ => rfl) (fun h' => ?_) fun h' => .inl ?_
    · obtain ⟨r, hr, -⟩ := h.live h'; exact hrow _ ⟨r, hr⟩
    · rcases h.kept h' with ⟨r, hr, -⟩ | e
      · exact hrow _ ⟨r, hr⟩
      · obtain ⟨r, hr, -⟩ := Option.map_eq_some_iff.mp e; exact hrow _ ⟨r, hr⟩
  | reap ha => rw [← hw, ha]; rw [ha] at hc; exact h.reap hc
  | claim _ hi hcl hj => exact h.claim hi hcl hj
  | succeed _ hp => exact h.succeed hp
  | @fail n job body _ hp =>
    exact h.setPhase (fun _ h' => by rw [hp]; exact h') (fun _ h' => by rw [hp]; exact h')
      (fun _ _ h' => by cases h') (fun _ _ => rfl) (fun _ => rfl)
  | stop =>
    exact h.setPhase (fun _ h' => by cases h') (fun _ h' => by cases h') (fun _ _ h' => by cases h')
      (fun _ _ => rfl) (fun _ => rfl)
  | @read n job report x _ hp hx _ =>
    refine h.setPhase (fun _ h' => by rw [hp]; exact h') (fun _ h' => ?_) (fun k rep e => ?_)
      (fun m e => Function.update_of_ne e _ _) (fun _ => rfl)
    · rw [hp]; cases report <;> exact h'
    · cases e; exact ⟨x, Function.update_self _ _ _, hx⟩
  | update _ hp => exact h.update hp

theorem single_init (now : Time) : Single (.init now) where
  live h := by cases h
  one h := by cases h
  tied h := by cases h
  count _ := Nat.zero_le _
  kept h := absurd rfl h
  quiet h := by cases h

/-- A successful integration is neither repeated nor lost: in a run whose reaps
move no job that a run is at work on or whose integration has succeeded, in
every state each job's integration has succeeded at most once and a job whose
integration has succeeded is not `failed`. -/
theorem integration_once (now : Time) (as : List Action)
    (h : AllSteps step (fun w a => ¬ ReapsBusy w a) (.init now) as) :
    Always step SucceedsOnce (.init now) as := fun p hp =>
  (always_of_step (single_init now) (fun _ _ => single_step) h p hp).succeedsOnce

/-- The answer to a claim is lost, so nobody is at work on the job when it is
reaped; the next run completes it. -/
def orphanRun : List Action :=
  [.create "job" answeredEvent, .claim 0 "job" false, .tick 121000000, .reap,
    .claim 1 "job" true, .process 1 .success, .read 1, .update 1]

theorem integration_once_orphan :
    Always step SucceedsOnce (.init 0) orphanRun ∧
      ((run step (.init 0) orphanRun).api.job "job").map (·.status) = some .completed := by
  refine ⟨integration_once 0 orphanRun ?_, by decide⟩
  have hidle : ∀ n, Phase.job? (Function.update (fun _ => Phase.idle) 0 .done n) = none :=
    forall_update (Q := fun _ p => Phase.job? p = none) rfl fun _ _ => rfl
  have hreap : ¬ ReapsBusy (run step (.init 0) (orphanRun.take 3)) .reap := by
    rintro ⟨-, r, hr, -, ⟨n, job, hj, -⟩ | hs⟩
    · exact Option.some_ne_none job (hj.symm.trans (hidle n))
    · exact hs rfl
  have hskip : ∀ {w : World} {a : Action}, a ≠ .reap → ¬ ReapsBusy w a := fun ha h => ha h.1
  simp only [orphanRun, allSteps_cons, allSteps_nil, and_true]
  refine ⟨hskip ?_, hskip ?_, hskip ?_, hreap, hskip ?_, hskip ?_, hskip ?_, hskip ?_⟩
  all_goals intro e; cases e

/-- `complete` is lost, and the job is reaped and claimed again. -/
def repeatedRun : List Action :=
  [.create "job" answeredEvent, .claim 0 "job" true, .process 0 .success, .lost 0,
    .tick 121000000, .reap, .claim 1 "job" true, .process 1 .success]

/-- `complete` is lost, and the job is reaped with its attempts used up. -/
def lostRun : List Action :=
  [.create "job" { answeredEvent with maxAttempts := some 1, maxAttempts_range := by decide }, .claim 0 "job" true,
    .process 0 .success, .lost 0, .tick 121000000, .reap]

/-- A successful integration is repeated, or lost. -/
theorem integration_repeated_or_lost :
    ¬ SucceedsOnce (run step (.init 0) repeatedRun) ∧ ¬ SucceedsOnce (run step (.init 0) lostRun) := by
  refine ⟨fun h => ?_, fun h => ?_⟩
  · exact absurd (h "job").1 (by decide)
  · exact (h "job").2 (by decide) (by decide)

end CallingAgent.Proof.Worker
