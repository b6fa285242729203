import CallingAgent.Proof.Worker.Escapes
import CallingAgent.Proof.Worker.Served

/-!
# A backlog drains

No job needs a worker that stays up, a Redis that works or a network that loses nothing:
after any passes at all, a stretch of fair passes that is longer than the longest
backoff and the time between two sweeps does something for a job that has not ended
(`stretch_advances`), and what there is to be done is finite (`backlog_drains`).
-/

namespace CallingAgent.Proof.Deployment

open CallingAgent.Framework CallingAgent.Impl CallingAgent.Impl.RunLoop
open CallingAgent.Impl.Jobs hiding step Action
open CallingAgent.Impl.Deployment CallingAgent.Proof.Jobs

/-! ## Any pass -/

/-- The sweeps of a worker are past, and no job is far from being due. -/
structure Inv (env : Env) (w : World) : Prop where
  timely : Timely (apiOf { now := w.now, jobs := w.jobs, fates := fun _ => {} })
  boot : env.boot ≤ w.now
  lastReap : w.lastReap ≤ w.now - env.boot

/-- A pass, as the calls that it has come to. -/
theorem step_eq (env : Env) (w : World) (p : Pass) :
    ∃ n, step env w p =
      { now := ((iteration env.cfg w.lastReap).serveFor (answer env) n ⟨w.now, w.jobs, p.fates⟩).1.now
        jobs := ((iteration env.cfg w.lastReap).serveFor (answer env) n ⟨w.now, w.jobs, p.fates⟩).1.jobs
        lastReap :=
          match ((iteration env.cfg w.lastReap).serveFor (answer env) n ⟨w.now, w.jobs, p.fates⟩).2 with
          | some (.ok (some lastReap)) => lastReap
          | _ => 0 } := by
  unfold step
  cases hk : p.killed with
  | some n => exact ⟨n, rfl⟩
  | none =>
    obtain ⟨n, hn⟩ := Prog.exists_serveFor (answer env) (iteration env.cfg w.lastReap) ⟨w.now, w.jobs, p.fates⟩
    exact ⟨n, by rw [hn]; rfl⟩

/-- What the clock has shown so far. -/
def shown (g : List Time) : (q : Query) → Reply q → List Time
  | .monotonic, now => now :: g
  | _, _ => g

theorem mem_shown {g : List Time} {t : Time} (h : t ∈ g) (q : Query) (r : Reply q) : t ∈ shown g q r := by
  cases q with
  | monotonic => exact List.mem_cons_of_mem _ h
  | _ => exact h

/-- Nothing is asked of the calls of a program. -/
abbrev Shows {α : Type} (post : List Time → Except Exc α → Prop) (p : Worker α) (g : List Time) : Prop :=
  p.Meets (fun _ _ => True) shown post g

theorem shows_of_mem {α : Type} {K : List Time → Prop} (hK : ∀ g q r, K g → K (shown g q r)) (p : Worker α)
    {g : List Time} (hg : K g) : Shows (fun g _ => K g) p g := by
  induction p generalizing g with
  | pure a => exact hg
  | raise e => exact hg
  | call q k ih => exact ⟨trivial, fun r => ih r (hK g q r hg)⟩

/-- A pass gives its last sweep as it was, or as the clock has shown. -/
theorem shows_iteration (cfg : Config) (lastReap : Time) :
    Shows (fun g x => ∀ t, x = .ok (some t) → t = lastReap ∨ t ∈ g) (iteration cfg lastReap) [] := by
  refine Prog.meets_ask_bind.mpr ⟨trivial, fun shutdown => ?_⟩
  split
  · intro t h; cases h
  · refine Prog.meets_ask_bind.mpr ⟨trivial, fun now => ?_⟩
    have hreap : Shows (fun g x => ∀ t, x = .ok t → t = lastReap ∨ t ∈ g) (reapIfDue cfg lastReap now) [now] := by
      unfold reapIfDue
      split
      · refine Prog.meets_bind.mpr ((shows_of_mem (K := fun g => now ∈ g) (fun g q r h => mem_shown h q r) _
          List.mem_cons_self).mono fun g x hg => ?_)
        cases x with
        | error e => intro t h; cases h
        | ok => intro t h; cases h; exact .inr hg
      · intro t h; cases h; exact .inl rfl
    refine Prog.meets_bind.mpr (hreap.mono fun g x hx => ?_)
    cases x with
    | error e => intro t h; cases h
    | ok swept =>
      refine Prog.meets_ask_bind.mpr ⟨trivial, fun popped => ?_⟩
      refine Prog.meets_bind.mpr ((shows_of_mem (K := fun g => swept = lastReap ∨ swept ∈ g)
        (fun g q r h => h.imp_right fun h => mem_shown h q r) _ ?_).mono fun g x hg => ?_)
      · exact (hx swept rfl).imp_right fun h => mem_shown h _ popped
      cases x with
      | error e => intro t h; cases h
      | ok => intro t h; cases h; exact hg

theorem step_inv {env : Env} {w : World} (h : Inv env w) (p : Pass) :
    Inv env (step env w p) ∧ w.now ≤ (step env w p).now ∧ Advances w.jobs (step env w p).jobs := by
  obtain ⟨n, hstep⟩ := step_eq env w p
  have hlater := serveFor_later env (iteration env.cfg w.lastReap) n ⟨w.now, w.jobs, p.fates⟩
  have hclock : ∀ (g : List Time) (s : Server) (q : Query), (w.now ≤ s.now ∧ ∀ t ∈ g, t ≤ s.now - env.boot) → True →
      w.now ≤ (answer env s q).1.now ∧ ∀ t ∈ shown g q (answer env s q).2, t ≤ (answer env s q).1.now - env.boot := by
    intro g s q hs _
    have hle := (answer_later env s q).now
    have hold : ∀ t ∈ g, t ≤ (answer env s q).1.now - env.boot := fun t ht => by have := hs.2 t ht; lia
    refine ⟨Int.le_trans hs.1 hle, ?_⟩
    cases q with
    | monotonic => exact List.forall_mem_cons.mpr ⟨Int.le_refl _, hold⟩
    | _ => exact hold
  obtain ⟨g, hshown, hend⟩ := (shows_iteration env.cfg w.lastReap).serveFor (s := ⟨w.now, w.jobs, p.fates⟩)
    ⟨Int.le_refl _, fun t ht => by cases ht⟩ hclock n
  rw [hstep]
  refine ⟨⟨hlater.timely h.timely, Int.le_trans h.boot hlater.now, ?_⟩, hlater.now, hlater.advances⟩
  have hboot := h.boot
  have hlast := h.lastReap
  have hnow := hlater.now
  dsimp only at hnow ⊢
  split
  · rename_i t ht
    rcases hend _ ht t rfl with e | e
    · lia
    · exact hshown.2 t e
  · lia

/-! ## Fair passes -/

/-- The worker is to go on, and its request and the answer arrive. -/
structure FairFate (fate : Fate) : Prop where
  shutdown : fate.shutdown = false
  sent : fate.requestLost = false
  answered : fate.answerLost = false

/-- All calls to come are fair. -/
def FairServer (s : Server) : Prop := ∀ k, FairFate (s.fates k)

theorem fairServer_answer {s : Server} (h : FairServer s) (env : Env) (q : Query) : FairServer (answer env s q).1 := by
  intro k
  rw [answer_fates]
  exact h (k + 1)

theorem FairServer.next {s : Server} (h : FairServer s) : FairServer s.next := fun k => h (k + 1)

theorem FairServer.serve {α : Type} {s : Server} (h : FairServer s) (env : Env) (p : Worker α) :
    FairServer (p.serve (answer env) s).1 := by
  obtain ⟨n, hn⟩ := Prog.exists_serveFor (answer env) p s
  have hfor := Prog.serveFor_inv (I := FairServer) (fun s q h => fairServer_answer h env q) p n h
  rwa [hn] at hfor

theorem http_fair {α : Type} {s : Server} {fate : Fate} (h : FairFate fate) (served : CallJobs × Response α) :
    s.http fate served = ({ s with jobs := served.1 }, some served.2) := by
  unfold Server.http
  rw [h.sent, h.answered]
  rfl

theorem reapStaleJobs_update (session : Tenant.Setting) (jobs : CallJobs) (now : Time) :
    (reapStaleJobs session jobs now).1 = jobs.update (reapStmt now) :=
  reapStaleJobs_jobs session { now := now, jobs := jobs, calls := [], pending := fun _ => none }

/-! ### Answers that can be read -/

/-- An error that a handler answers with is one of the client. -/
def Refuses {α : Type} (a : Answer α) : Prop := ∀ code detail, a = .httpException code detail → 400 ≤ code

def Legible {α : Type} (r : Response α) : Prop := r.statusCode < 400 → r.body.isSome = true

theorem refuses_refreshed (job : Option CallJob) : Refuses (refreshed job) := by
  intro code detail h
  cases job <;> cases h

theorem refuses_claimEvent (session : Tenant.Setting) (pool : Option Tenant.Setting)
    (jobs later : CallJobs) (jobId : JobId) (now : Time) :
    Refuses (claimEvent session pool jobs later jobId now).2 := by
  unfold claimEvent
  dsimp only
  split
  · split <;> (intro code detail h; cases h; decide)
  · exact refuses_refreshed _

theorem refuses_failEvent (session : Tenant.Setting) (pool : Option Tenant.Setting) (jobs current later : CallJobs)
    (jobId : JobId) (body : EventFailRequest) (readAt now : Time) :
    Refuses (failEvent session pool jobs current later jobId body readAt now).2 := by
  unfold failEvent
  dsimp only
  split
  · intro code detail h; cases h; decide
  · split
    · intro code detail h; cases h
    · split
      · intro code detail h; cases h; decide
      · split
        · intro code detail h; cases h; decide
        · exact refuses_refreshed _

theorem legible_response {α β : Type} {a : Answer α} (h : Refuses a) (f : α → β) : Legible (response f a) := by
  intro hlt
  cases a with
  | ok a => rfl
  | httpException code detail => exact absurd hlt (Nat.not_lt.mpr (h code detail rfl))
  | raised => exact absurd (show (500 : Nat) < 400 from hlt) (by decide)

theorem Refuses.bind {α β : Type} {a : Answer α} {f : α → Answer β} (h : Refuses a) (hf : ∀ x, Refuses (f x)) :
    Refuses (a.bind f) := by
  cases a with
  | ok x => exact hf x
  | httpException code detail => intro code' detail' e; cases e; exact h code detail rfl
  | raised => intro code detail e; cases e

theorem refuses_process (env : IntegrationService.Env) (token : Option String) (body : ProcessEventRequest) :
    Refuses (IntegrationService.process env token body) := by
  have hequal : ∀ presented secret detail, Refuses (SharedSecret.requireEqual presented secret detail) := by
    intro presented secret detail
    unfold SharedSecret.requireEqual SharedSecret.compareDigest
    split
    · simp only [Answer.bind]
      split <;> (intro code detail' h; cases h)
      decide
    · intro code detail' h; cases h
  refine Refuses.bind ?_ fun _ => ?_
  · unfold SharedSecret.IntegrationService.verifyInternalToken SharedSecret.internalGuard
    split
    · intro code detail h; cases h; decide
    · exact hequal _ _ _
  · unfold IntegrationService.processEvent
    split
    · intro code detail h; cases h; decide
    · split <;> (intro code detail h; cases h)
      decide

theorem legible_respond (env : IntegrationService.Env) (body : ProcessEventRequest) :
    Legible (IntegrationService.respond env body) := by
  intro hlt
  unfold IntegrationService.respond at hlt ⊢
  cases h : IntegrationService.process env env.header body with
  | ok result => rfl
  | httpException code detail =>
    rw [h] at hlt
    exact absurd hlt (Nat.not_lt.mpr (refuses_process _ _ _ code detail h))
  | raised =>
    rw [h] at hlt
    exact absurd (show (500 : Nat) < 400 from hlt) (by decide)

/-- No answer of the services is one that the worker cannot read. -/
theorem answer_readable (env : Env) (s : Server) (q : Query) : ¬Escapes.Unreadable q (answer env s q).2 := by
  have hhttp : ∀ {α : Type} {served : CallJobs × Response α}, Legible served.2 →
      ¬∃ response, (s.next.http (s.fates 0) served).2 = some response ∧ response.statusCode < 400 ∧ response.body = none := by
    rintro α served hs ⟨response, h, hlt, hbody⟩
    unfold Server.http at h
    split at h
    · cases h
    · dsimp only at h
      split at h
      · cases h
      · cases h
        have hsome := hs hlt
        rw [hbody] at hsome
        cases hsome
  have hbody : ∀ {α : Type} {r : Http α}, Escapes.UnreadableBody r →
      ∃ response, r = some response ∧ response.statusCode < 400 ∧ response.body = none := by
    rintro α r ⟨response, h, hs, hb⟩
    exact ⟨response, h, by have := hs.2; omega, hb⟩
  cases q with
  | shutdown | monotonic | sleep | blpop => exact id
  | list statuses limit => exact fun h => hhttp (fun _ => rfl) (hbody h)
  | reap => exact fun h => hhttp (fun _ => rfl) (hbody h)
  | claim jobId => exact fun h => hhttp (legible_response (refuses_claimEvent _ _ _ _ _ _) _) (hbody h)
  | complete jobId => exact id
  | process body => exact hhttp (legible_respond _ body)
  | fail jobId error retry =>
    refine fun h => hhttp ?_ (hbody h)
    unfold serveFail
    split
    · exact legible_response (refuses_failEvent _ _ _ _ _ _ _ _ _) _
    · exact fun hlt => absurd (show (422 : Nat) < 400 from hlt) (by decide)

/-! ### A pass of the loop -/

theorem serve_exceptJobsApiError (env : Env) (p handler : Worker Unit) (s : Server) :
    (exceptJobsApiError p handler).serve (answer env) s =
      match (p.serve (answer env) s).2 with
      | .ok () => ((p.serve (answer env) s).1, .ok ())
      | .error (.jobsApiError _) => handler.serve (answer env) (p.serve (answer env) s).1
      | .error e => ((p.serve (answer env) s).1, .error e) := by
  unfold exceptJobsApiError
  rw [Prog.serve_tryCatch]
  cases (p.serve (answer env) s).2 with
  | ok => rfl
  | error e => cases e <;> rfl

theorem serve_reap (env : Env) {s : Server} (h : FairServer s) :
    ∃ reaped, reap.serve (answer env) s = ({ s.next with jobs := s.jobs.update (reapStmt s.next.now) }, .ok reaped) := by
  have hanswer : answer env s .reap =
      ({ s.next with jobs := s.jobs.update (reapStmt s.next.now) }, some (serveReap (s.fates 0) s.jobs s.next.now).2) := by
    show s.next.http (s.fates 0) _ = _
    rw [http_fair (h 0)]
    simp only [serveReap, reapStaleJobs_update]
  unfold reap
  rw [Prog.serve_ask_bind, hanswer]
  exact ⟨_, rfl⟩

/-- A fair sweep. -/
theorem serve_reapIfDue (env : Env) {s : Server} (h : FairServer s) (cfg : Config) (lastReap now : Time) :
    (reapIfDue cfg lastReap now).serve (answer env) s =
      if now - lastReap ≥ cfg.reapInterval then
        ({ s.next with jobs := s.jobs.update (reapStmt s.next.now) }, .ok now)
      else (s, .ok lastReap) := by
  obtain ⟨reaped, hreap⟩ := serve_reap env h
  unfold reapIfDue
  split
  · rw [Prog.serve_bind, serve_exceptJobsApiError, Prog.serve_bind, hreap]
    rfl
  · rfl

/-- The server when the sweep of a pass is over, and the worker's last sweep. -/
def swept (env : Env) (s : Server) (lastReap : Time) : Server × Time :=
  if s.next.next.now - env.boot - lastReap ≥ env.cfg.reapInterval then
    ({ s.next.next.next with jobs := s.jobs.update (reapStmt s.next.next.next.now) }, s.next.next.now - env.boot)
  else (s.next.next, lastReap)

theorem serve_iteration (env : Env) {s : Server} (h : FairServer s) (lastReap : Time) :
    (iteration env.cfg lastReap).serve (answer env) s =
      (((work ((swept env s lastReap).1.fates 0).popped).serve (answer env) (swept env s lastReap).1.next).1,
        .ok (some (swept env s lastReap).2)) := by
  have hshutdown : answer env s .shutdown = (s.next, false) := by
    show (s.next, _) = _
    rw [(h 0).shutdown]
  have hsweep : (reapIfDue env.cfg lastReap (s.next.next.now - env.boot)).serve (answer env) s.next.next =
      ((swept env s lastReap).1, .ok (swept env s lastReap).2) := by
    rw [serve_reapIfDue env h.next.next]
    unfold swept
    split <;> rfl
  have hwork : ∀ popped s', ∃ s'', (work popped).serve (answer env) s' = (s'', .ok ()) := by
    intro popped s'
    refine ⟨((work popped).serve (answer env) s').1, Prod.ext rfl ?_⟩
    cases he : ((work popped).serve (answer env) s').2 with
    | ok => rfl
    | error e =>
      have hfails : Escapes.Fails (fun _ => False) (work popped) := Escapes.fails_work popped
      exact (hfails.serve (answer_readable env) he).elim
  unfold iteration
  rw [Prog.serve_ask_bind, hshutdown]
  simp only [Bool.false_eq_true, if_false]
  rw [Prog.serve_ask_bind, Prog.serve_bind]
  simp only [answer]
  rw [hsweep]
  dsimp only
  rw [Prog.serve_ask_bind, Prog.serve_bind]
  simp only [answer]
  obtain ⟨s'', hs''⟩ := hwork ((swept env s lastReap).1.fates 0).popped (swept env s lastReap).1.next
  rw [hs'']
  rfl

/-! ### What a fair pass does -/

/-- A job that is being attempted, and due, is swept. -/
theorem reap_moves {jobs : CallJobs} {now : Time} {r : CallJob} (hr : r ∈ jobs.rows) (hp : r.status = .processing)
    (ht : due r ≤ now) : effortOf (jobs.update (reapStmt now)) < effortOf jobs := by
  let s : Jobs.State := { now := now, jobs := jobs, calls := [], pending := fun _ => none }
  have hadv : Advances s.jobs (Jobs.step s .reap).jobs :=
    step_advances (fresh_of_quiet rfl) (fun _ _ e => by cases e)
  refine hadv.resolve_left fun e => ?_
  have hjob : s.job r.jobId = some r := lookup_of_job hr
  have hsame : (Jobs.step s .reap).job r.jobId = some r := by
    show (Jobs.step s .reap).jobs.lookup r.jobId = some r
    rw [e]
    exact hjob
  rcases reaped_of_due hjob hp ht with h | h <;> rw [hsame, Option.map_some, hp] at h <;> cases h

/-- A job that waits, and is due, is claimed. -/
theorem claim_moves {jobs : CallJobs} {now : Time} {r : CallJob} (hr : r ∈ jobs.rows)
    (hc : isClaimable r.status = true) (ht : r.availableAt ≤ now) :
    effortOf (jobs.update (claimStmt r.jobId now)) < effortOf jobs := by
  let s : Jobs.State := { now := now, jobs := jobs, calls := [], pending := fun _ => none }
  have hadv : Advances s.jobs (Jobs.step s (.claim r.jobId)).jobs :=
    step_advances (fresh_of_quiet rfl) (fun _ _ e => by cases e)
  refine hadv.resolve_left fun e => ?_
  have hjob : s.job r.jobId = some r := lookup_of_job hr
  obtain ⟨x, hx, hp⟩ := processing_of_claims (claims_claim.mpr ⟨r, hjob, hc, ht⟩)
  have hsame : (Jobs.step s (.claim r.jobId)).job r.jobId = some r := by
    show (Jobs.step s (.claim r.jobId)).jobs.lookup r.jobId = some r
    rw [e]
    exact hjob
  obtain rfl : r = x := Option.some.inj (hsame.symm.trans hx)
  rw [hp] at hc
  cases hc

theorem serve_le {α : Type} (env : Env) (p : Worker α) (s : Server) :
    effortOf (p.serve (answer env) s).1.jobs ≤ effortOf s.jobs := (serve_later env p s).advances.le

theorem exceptJobsApiError_le (env : Env) (p handler : Worker Unit) (s : Server) :
    effortOf ((exceptJobsApiError p handler).serve (answer env) s).1.jobs ≤ effortOf (p.serve (answer env) s).1.jobs := by
  rw [serve_exceptJobsApiError]
  split
  · exact le_refl _
  · exact serve_le env handler _
  · exact le_refl _

theorem bind_le {α β : Type} (env : Env) (p : Worker α) (f : α → Worker β) (s : Server) :
    effortOf ((p >>= f).serve (answer env) s).1.jobs ≤ effortOf (p.serve (answer env) s).1.jobs := by
  rw [Prog.serve_bind]
  split
  · exact serve_le env _ _
  · exact le_refl _

/-- The claim of a job that waits, and what follows it. -/
theorem processOne_moves (env : Env) {s : Server} (h : FairServer s) {r : CallJob} (hr : r ∈ s.jobs.rows)
    (hc : isClaimable r.status = true) (ht : r.availableAt ≤ s.now) :
    effortOf ((processOne r.jobId).serve (answer env) s).1.jobs < effortOf s.jobs := by
  have hanswer : (answer env s (.claim r.jobId)).1.jobs = s.jobs.update (claimStmt r.jobId s.next.now) := by
    show (s.next.http (s.fates 0) _).1.jobs = _
    rw [http_fair (h 0)]
    exact claimEvent_jobs (s.fates 0).session none s.jobs
      { now := s.next.now, jobs := s.jobs, calls := [], pending := fun _ => none } r.jobId
  obtain ⟨p, hp⟩ : ∃ p : Worker Unit, (processOne r.jobId).serve (answer env) s =
      p.serve (answer env) (answer env s (.claim r.jobId)).1 := ⟨_, rfl⟩
  have hnow : r.availableAt ≤ s.next.now := by
    show r.availableAt ≤ s.now + (s.fates 0).elapsed
    lia
  calc effortOf ((processOne r.jobId).serve (answer env) s).1.jobs
      ≤ effortOf (answer env s (.claim r.jobId)).1.jobs := by rw [hp]; exact serve_le env p _
    _ < effortOf s.jobs := by rw [hanswer]; exact claim_moves hr hc hnow

/-- A worker that polls finds a job that waits, if there is one. -/
theorem poll_moves (env : Env) {s : Server} (h : FairServer s) {r : CallJob} (hr : r ∈ s.jobs.rows)
    (hc : isClaimable r.status = true) (ht : r.availableAt ≤ s.now) :
    effortOf (poll.serve (answer env) s).1.jobs < effortOf s.jobs := by
  have hnow : s.now ≤ s.next.now := by
    show s.now ≤ s.now + (s.fates 0).elapsed
    lia
  have hlist : (listEligible ["queued", "retrying"] 10).serve (answer env) s =
      (s.next, .ok ((listEligibleEvents (s.fates 0).session s.jobs defaultStatuses 10 s.next.now).map Workers.jobOf)) := by
    have hanswer : answer env s (.list ["queued", "retrying"] 10) =
        ({ s.next with jobs := s.jobs }, some (serveList (s.fates 0) s.jobs defaultStatuses 10 s.next.now).2) := by
      show s.next.http (s.fates 0) _ = _
      rw [http_fair (h 0)]
      rfl
    unfold listEligible
    rw [Prog.serve_ask_bind, hanswer]
    rfl
  -- the list begins with a job that can be claimed
  obtain ⟨first, rest, hcons⟩ : ∃ first rest,
      listEligibleEvents (s.fates 0).session s.jobs defaultStatuses 10 s.next.now = first :: rest := by
    have hmem : r ∈ eligible (s.fates 0).session s.jobs defaultStatuses s.next.now :=
      mem_eligible.mpr ⟨hr, isEligible_default.mpr ⟨hc, Int.le_trans ht hnow⟩⟩
    have hsorted := (List.mergeSort_perm (eligible (s.fates 0).session s.jobs defaultStatuses s.next.now)
      fun r r' => decide (r.availableAt ≤ r'.availableAt)).mem_iff.mpr hmem
    unfold listEligibleEvents
    cases hms : (eligible (s.fates 0).session s.jobs defaultStatuses s.next.now).mergeSort
      fun r r' => decide (r.availableAt ≤ r'.availableAt) with
    | nil => rw [hms] at hsorted; cases hsorted
    | cons first rest => exact ⟨first, rest.take 9, rfl⟩
  obtain ⟨hfirst, hready⟩ : first ∈ s.jobs.rows ∧ isClaimable first.status = true ∧ first.availableAt ≤ s.next.now := by
    have hmem : first ∈ eligible (s.fates 0).session s.jobs defaultStatuses s.next.now := by
      have htake : first ∈ listEligibleEvents (s.fates 0).session s.jobs defaultStatuses 10 s.next.now := by
        rw [hcons]; exact List.mem_cons_self
      exact (List.mergeSort_perm _ _).mem_iff.mp (List.mem_of_mem_take htake)
    obtain ⟨hrow, heligible⟩ := mem_eligible.mp hmem
    exact ⟨hrow, isEligible_default.mp heligible⟩
  have hshutdown : answer env s.next .shutdown = (s.next.next, false) := by
    show (s.next.next, _) = _
    rw [(h.next 0).shutdown]
  calc effortOf (poll.serve (answer env) s).1.jobs
      ≤ effortOf ((listEligible ["queued", "retrying"] 10 >>= processEligible).serve (answer env) s).1.jobs :=
        exceptJobsApiError_le env _ _ s
    _ = effortOf ((processEligible (Workers.jobOf first :: rest.map Workers.jobOf)).serve (answer env) s.next).1.jobs := by
        rw [Prog.serve_bind, hlist, hcons]
        rfl
    _ ≤ effortOf ((processOne first.jobId).serve (answer env) s.next.next).1.jobs := by
        unfold processEligible
        rw [Prog.serve_ask_bind, hshutdown]
        exact bind_le env _ _ _
    _ < effortOf s.jobs := by
        refine processOne_moves env (s := s.next.next) h.next.next hfirst hready.1 ?_
        show first.availableAt ≤ s.next.now + (s.next.fates 0).elapsed
        have := hready.2
        lia

/-- A pass that Redis gives no job does something for a job that waits and is due. -/
theorem idle_moves (env : Env) {s : Server} (h : FairServer s) {popped : Except Unit (Option JobId)}
    (hidle : ∀ jobId, popped ≠ .ok (some jobId)) {r : CallJob} (hr : r ∈ s.jobs.rows)
    (hc : isClaimable r.status = true) (ht : r.availableAt ≤ s.now) :
    effortOf ((work popped).serve (answer env) s).1.jobs < effortOf s.jobs := by
  unfold work
  split
  · rename_i jobId
    exact absurd rfl (hidle jobId)
  · exact poll_moves env h hr hc ht
  · have hsleep : answer env s .sleep = (s.next, ()) := rfl
    rw [Prog.serve_ask_bind, hsleep]
    refine poll_moves env (s := s.next) h.next hr hc ?_
    show r.availableAt ≤ s.now + (s.fates 0).elapsed
    lia

/-! ## Stretches of fair passes -/

structure FairPass (p : Pass) : Prop where
  alive : p.killed = none
  fates : ∀ k, FairFate (p.fates k)

/-- Redis has no job in this pass: nothing in time, or an error. -/
def IdlePass (p : Pass) : Prop := ∀ k jobId, (p.fates k).popped ≠ .ok (some jobId)

/-- The longest backoff, and the time between two sweeps. -/
def patience (env : Env) : Time := seconds maxBackoffSeconds + max 0 env.cfg.reapInterval

/-- Fair passes in which the worker finds its work by polling, the last of which begins
after all patience. -/
structure Stretch (env : Env) (w : World) (ps : List Pass) : Prop where
  fair : ∀ p ∈ ps, FairPass p
  idle : ∀ p ∈ ps, IdlePass p
  long : ∃ qs p, ps = qs ++ [p] ∧ w.now + patience env ≤ (run (step env) w qs).now

/-- The server at the beginning of a pass. -/
def serverOf (w : World) (p : Pass) : Server := { now := w.now, jobs := w.jobs, fates := p.fates }

theorem step_fair (env : Env) (w : World) {p : Pass} (hp : FairPass p) :
    ∃ popped, (∃ k, popped = (p.fates k).popped) ∧ step env w p =
      { now := ((work popped).serve (answer env) (swept env (serverOf w p) w.lastReap).1.next).1.now
        jobs := ((work popped).serve (answer env) (swept env (serverOf w p) w.lastReap).1.next).1.jobs
        lastReap := (swept env (serverOf w p) w.lastReap).2 } := by
  have hserve := serve_iteration env (s := serverOf w p) hp.fates w.lastReap
  refine ⟨((swept env (serverOf w p) w.lastReap).1.fates 0).popped, ?_, ?_⟩
  · unfold swept
    split
    · exact ⟨3, rfl⟩
    · exact ⟨2, rfl⟩
  · unfold step
    rw [hp.alive]
    dsimp only
    rw [show (⟨w.now, w.jobs, p.fates⟩ : Server) = serverOf w p from rfl, hserve]
    rfl

/-- The server after the sweep of a pass. -/
theorem swept_cases (env : Env) (w : World) {p : Pass} (hp : FairPass p) :
    let s := swept env (serverOf w p) w.lastReap
    w.now ≤ s.1.now ∧ FairServer s.1 ∧
      (s.1.jobs = w.jobs ∧ s.2 = w.lastReap ∧ (∃ t, w.now ≤ t ∧ t - env.boot - w.lastReap < env.cfg.reapInterval) ∨
        ∃ t t', w.now ≤ t ∧ t ≤ t' ∧ s.2 = t - env.boot ∧ s.1.jobs = w.jobs.update (reapStmt t')) := by
  have hnow : ∀ s : Server, s.now ≤ s.next.now := fun s => by
    show s.now ≤ s.now + (s.fates 0).elapsed
    lia
  have htwo : w.now ≤ (serverOf w p).next.next.now := Int.le_trans (hnow (serverOf w p)) (hnow _)
  have hthree : (serverOf w p).next.next.now ≤ (serverOf w p).next.next.next.now := hnow _
  unfold swept
  split
  · exact ⟨Int.le_trans htwo hthree, fun k => hp.fates (k + 3), .inr ⟨_, _, htwo, hthree, rfl, rfl⟩⟩
  · rename_i hlt
    exact ⟨htwo, fun k => hp.fates (k + 2), .inl ⟨rfl, rfl, _, htwo, Int.not_le.mp hlt⟩⟩

/-- A fair pass in which nothing is done finds no job that is due. -/
theorem pass_moves {env : Env} {w : World} {p : Pass} (hp : FairPass p)
    (hle : effortOf w.jobs ≤ effortOf (step env w p).jobs) :
    ((step env w p).lastReap = w.lastReap ∧ (∃ t, w.now ≤ t ∧ t - env.boot - w.lastReap < env.cfg.reapInterval) ∨
      ∃ t, w.now ≤ t ∧ (step env w p).lastReap = t - env.boot ∧
        ∀ r ∈ w.jobs.rows, r.status = .processing → t < due r) ∧
    (IdlePass p → ∀ r ∈ w.jobs.rows, isClaimable r.status = true → w.now < r.availableAt) := by
  obtain ⟨popped, ⟨k, hk⟩, hstep⟩ := step_fair env w hp
  obtain ⟨hnow, hfair, hswept⟩ := swept_cases env w hp
  generalize swept env (serverOf w p) w.lastReap = s at hstep hnow hfair hswept
  rw [hstep] at hle ⊢
  dsimp only at hle ⊢
  have hwork : effortOf w.jobs ≤ effortOf s.1.jobs := le_trans hle (serve_le env (work popped) s.1.next)
  refine ⟨?_, fun hi r hr hc => ?_⟩
  · rcases hswept with ⟨-, e, ht⟩ | ⟨t, t', ht, htt', e, hjobs⟩
    · exact .inl ⟨e, ht⟩
    · refine .inr ⟨t, ht, e, fun r hr hproc => ?_⟩
      refine Int.not_le.mp fun hdue => ?_
      have hmoves := reap_moves hr hproc (Int.le_trans hdue htt')
      rw [hjobs] at hwork
      omega
  · refine Int.not_le.mp fun hdue => ?_
    have hsame : s.1.jobs = w.jobs := by
      rcases hswept with ⟨e, -⟩ | ⟨t, t', -, -, -, hjobs⟩
      · exact e
      · have hadv : Advances w.jobs (w.jobs.update (reapStmt t')) :=
          step_advances (s := { now := t', jobs := w.jobs, calls := [], pending := fun _ => none }) (a := .reap)
            (fresh_of_quiet rfl) (fun _ _ e => by cases e)
        rw [hjobs] at hwork ⊢
        exact hadv.eq hwork
    have hmoves : effortOf ((work popped).serve (answer env) s.1.next).1.jobs < effortOf s.1.next.jobs := by
      refine idle_moves env hfair.next (hk ▸ hi k) (by rw [show s.1.next.jobs = w.jobs from hsame]; exact hr) hc ?_
      show r.availableAt ≤ s.1.now + (s.1.fates 0).elapsed
      lia
    have : s.1.next.jobs = w.jobs := hsame
    rw [this] at hmoves
    omega

/-- What every pass keeps, with the clock and the work going one way. -/
theorem run_passes {env : Env} {w : World} (h : Inv env w) (ps : List Pass) :
    Inv env (run (step env) w ps) ∧ w.now ≤ (run (step env) w ps).now ∧ Advances w.jobs (run (step env) w ps).jobs := by
  refine run_inv (I := fun w' => Inv env w' ∧ w.now ≤ w'.now ∧ Advances w.jobs w'.jobs)
    ⟨h, Int.le_refl _, .refl _⟩ (fun w' p h' => ?_) ps
  obtain ⟨hinv, hnow, hadv⟩ := step_inv h'.1 p
  exact ⟨hinv, Int.le_trans h'.2.1 hnow, h'.2.2.trans hadv⟩

/-- In a stretch something is done, unless every job has ended. -/
theorem stretch_advances {env : Env} {w : World} (h : Inv env w) {ps : List Pass} (hs : Stretch env w ps) :
    effortOf (run (step env) w ps).jobs < effortOf w.jobs ∨ effortOf w.jobs = 0 := by
  by_contra hcon
  obtain ⟨hle, hne⟩ := not_or.mp hcon
  obtain ⟨qs, p, rfl, hlong⟩ := hs.long
  -- nothing is ever done
  have hstill : ∀ q, q <+: qs ++ [p] → (run (step env) w q).jobs = w.jobs := by
    rintro q ⟨t, ht⟩
    have hrest := (run_passes (run_passes h q).1 t).2.2.le
    rw [← run_append, ht] at hrest
    exact (run_passes h q).2.2.eq (by omega)
  have hpass : ∀ q p', q ++ [p'] <+: qs ++ [p] →
      effortOf (run (step env) w q).jobs ≤ effortOf (step env (run (step env) w q) p').jobs := by
    intro q p' hq
    have hend := hstill _ hq
    rw [run_concat] at hend
    rw [hend, hstill q ((List.prefix_append q [p']).trans hq)]
  have hmem : ∀ q p', q ++ [p'] <+: qs ++ [p] → p' ∈ qs ++ [p] := fun q p' hq => hq.subset (by simp)
  obtain ⟨r, hr, hrun⟩ : ∃ r ∈ w.jobs.rows, isTerminal r.status = false := by
    by_contra hall
    refine hne (effortOf_eq_zero.mpr fun r hr => ?_)
    cases ht : isTerminal r.status with
    | true => rfl
    | false => exact absurd ⟨r, hr, ht⟩ hall
  have hdue : due r ≤ w.now + seconds maxBackoffSeconds := h.timely r hr hrun
  have hpatience : w.now + seconds maxBackoffSeconds ≤ (run (step env) w qs).now ∧
      w.now + seconds maxBackoffSeconds + env.cfg.reapInterval ≤ (run (step env) w qs).now := by
    have hzero : (0 : Int) ≤ max 0 env.cfg.reapInterval := Int.le_max_left _ _
    have hinterval : env.cfg.reapInterval ≤ max 0 env.cfg.reapInterval := Int.le_max_right _ _
    unfold patience at hlong
    exact ⟨by lia, by lia⟩
  obtain ⟨hlast, hidle⟩ := pass_moves (hs.fair p (by simp)) (hpass qs p (List.prefix_refl _))
  rw [hstill qs (List.prefix_append _ _)] at hlast hidle
  cases hst : r.status with
  | completed => rw [hst] at hrun; cases hrun
  | failed => rw [hst] at hrun; cases hrun
  | queued | retrying =>
    have hlt := hidle (hs.idle p (by simp)) r hr (by rw [hst]; rfl)
    have hav : due r = r.availableAt := by simp only [due, hst]
    lia
  | processing =>
    -- no sweep so far was late enough for the job
    have hswept : ∀ q, q <+: qs → (run (step env) w q).lastReap ≤ w.now + seconds maxBackoffSeconds - env.boot := by
      intro q
      induction q using List.reverseRecOn with
      | nil =>
        intro _
        have := h.lastReap
        show w.lastReap ≤ _
        simp only [seconds]
        lia
      | append_singleton q p' ih =>
        intro hq
        have hq' := hq.trans (List.prefix_append qs [p])
        obtain ⟨hreap, -⟩ := pass_moves (hs.fair p' (hmem q p' hq')) (hpass q p' hq')
        rw [hstill q ((List.prefix_append q [p']).trans hq')] at hreap
        rw [run_concat]
        rcases hreap with ⟨e, -⟩ | ⟨t, -, e, hlate⟩
        · rw [e]; exact ih ((List.prefix_append q [p']).trans hq)
        · rw [e]
          have := hlate r hr hst
          lia
    have hlate := hswept qs (List.prefix_refl _)
    rcases hlast with ⟨-, t, ht, hlt⟩ | ⟨t, ht, -, hearly⟩
    · lia
    · have := hearly r hr hst
      lia

/-! ## Backlogs -/

/-- Some passes, and a stretch of fair ones. -/
structure Round where
  before : List Pass
  stretch : List Pass

def Round.passes (r : Round) : List Pass := r.before ++ r.stretch

/-- The world after the passes of a round. -/
def round (env : Env) (w : World) (r : Round) : World := run (step env) w r.passes

/-- A worker that starts when other clients of the API have gone. -/
def start (s : Jobs.State) : World := { now := s.now, jobs := s.jobs, lastReap := 0 }

theorem timely_run (now : Time) (as : List Jobs.Action) : Timely (run Jobs.step (.init now) as) := by
  have hinit : Past (.init now) ∧ Timely (.init now) := ⟨fun _ _ e => (by cases e), fun _ hr => (by cases hr)⟩
  exact (run_inv (I := fun s => Past s ∧ Timely s) hinit
    (fun s a h => ⟨past_step s a h.1, timely_step h.1 h.2 a⟩) as).2

theorem inv_start {env : Env} {now : Time} {as : List Jobs.Action} (h : env.boot ≤ (run Jobs.step (.init now) as).now) :
    Inv env (start (run Jobs.step (.init now) as)) where
  timely := timely_run now as
  boot := h
  lastReap := by
    show (0 : Int) ≤ _
    have : env.boot ≤ (start (run Jobs.step (.init now) as)).now := h
    lia

/-- A round with a stretch at its end. -/
def EndsInStretch (env : Env) (w : World) (r : Round) : Prop := Stretch env (run (step env) w r.before) r.stretch

/-- Each such round takes something off what is left to be done. -/
theorem rounds_advance {env : Env} {w : World} (h : Inv env w) {rounds : List Round}
    (hall : AllSteps (round env) (EndsInStretch env) w rounds) :
    Inv env (run (round env) w rounds) ∧
      effortOf (run (round env) w rounds).jobs ≤ effortOf w.jobs - rounds.length := by
  induction rounds using List.reverseRecOn with
  | nil => exact ⟨h, le_refl _⟩
  | append_singleton rs r ih =>
    obtain ⟨hall, hlast⟩ := allSteps_concat.mp hall
    obtain ⟨hinv, hle⟩ := ih hall
    rw [run_concat, List.length_append, List.length_singleton]
    generalize run (round env) w rs = w' at hlast hinv hle
    obtain ⟨hinv', -, hadv⟩ := run_passes hinv r.before
    obtain ⟨hinv'', -, hadv'⟩ := run_passes hinv' r.stretch
    have hend : round env w' r = run (step env) (run (step env) w' r.before) r.stretch := run_append _ _ _
    rw [hend]
    refine ⟨hinv'', ?_⟩
    have hle₁ := hadv.le
    have hle₂ := hadv'.le
    rcases stretch_advances hinv' hlast with hlt | hzero <;> omega

/-- A backlog drains. Whatever the clients of the job API have left behind, a worker
settles all of it: passes in which it is killed, restarted, cut off from the API or
misled by Redis undo nothing, and with as many stretches of fair passes in between as
there is work every job has ended. -/
theorem backlog_drains (env : Env) (now : Time) (as : List Jobs.Action)
    (hboot : env.boot ≤ (run Jobs.step (.init now) as).now) (rounds : List Round)
    (hstretch : AllSteps (round env) (EndsInStretch env) (start (run Jobs.step (.init now) as)) rounds)
    (hrounds : effortOf (run Jobs.step (.init now) as).jobs ≤ rounds.length) :
    ∀ r ∈ (run (round env) (start (run Jobs.step (.init now) as)) rounds).jobs.rows, isTerminal r.status = true := by
  have hend := (rounds_advance (inv_start hboot) hstretch).2
  have hstart : effortOf (start (run Jobs.step (.init now) as)).jobs = effortOf (run Jobs.step (.init now) as).jobs := rfl
  exact effortOf_eq_zero.mp (by omega)

/-- The first call of a pass takes its time. -/
theorem elapsed_le (env : Env) (w : World) {p : Pass} (hp : FairPass p) :
    w.now + (p.fates 0).elapsed ≤ (step env w p).now := by
  obtain ⟨popped, -, hstep⟩ := step_fair env w hp
  rw [hstep]
  have hwork := (serve_later env (work popped) (swept env (serverOf w p) w.lastReap).1.next).now
  have hfirst : w.now + (p.fates 0).elapsed ≤ (swept env (serverOf w p) w.lastReap).1.now := by
    have hnext : ∀ s : Server, s.now ≤ s.next.now := fun s => by
      show s.now ≤ s.now + (s.fates 0).elapsed
      lia
    have htwo : (serverOf w p).next.now ≤ (serverOf w p).next.next.now := hnext _
    have hthree : (serverOf w p).next.next.now ≤ (serverOf w p).next.next.next.now := hnext _
    unfold swept
    split
    · exact Int.le_trans htwo hthree
    · exact htwo
  have hblpop : (swept env (serverOf w p) w.lastReap).1.now ≤ (swept env (serverOf w p) w.lastReap).1.next.now := by
    show _ ≤ (swept env (serverOf w p) w.lastReap).1.now + _
    lia
  exact Int.le_trans hfirst (Int.le_trans hblpop hwork)

/-- Two services with a token, and a worker that sweeps every minute. -/
def deployed : Env where
  cfg := ⟨60000000⟩
  integration :=
    { internalApiToken := "internal", workerToken := "internal", workerToken_ascii := by decide
      forcesFailure := fun _ => false, repr := id, resultText := fun _ => "", errorText := id }
  boot := 0

/-- An idle pass that takes its time. -/
def slowPass : Pass where
  fates _ := { elapsed := 400000000 }
  killed := none

/-- One event, with three attempts. -/
def oneEvent : List Jobs.Action :=
  [.create "job" { eventType := "ringing", maxAttempts := some 3, maxAttempts_range := by decide }]

/-- Stretches of two slow passes. -/
theorem slow_rounds (n : Nat) (w : World) :
    AllSteps (round deployed) (EndsInStretch deployed) w (List.replicate n ⟨[], [slowPass, slowPass]⟩) := by
  have hfair : FairPass slowPass := ⟨rfl, fun _ => ⟨rfl, rfl, rfl⟩⟩
  have hstretch : ∀ w, Stretch deployed w [slowPass, slowPass] := by
    intro w
    refine ⟨by simp [hfair], ?_, [slowPass], slowPass, rfl, ?_⟩
    · simp [IdlePass, slowPass]
    · exact Int.le_trans (Int.add_le_add_left (by decide) _) (elapsed_le deployed w hfair)
  induction n generalizing w with
  | zero => exact allSteps_nil
  | succ n ih => exact allSteps_cons.mpr ⟨hstretch _, ih _⟩

theorem backlog_drains_one :
    (run (round deployed) (start (run Jobs.step (.init 0) oneEvent))
      (List.replicate 6 ⟨[], [slowPass, slowPass]⟩)).jobs.rows.all (isTerminal ·.status) = true :=
  List.all_eq_true.mpr (backlog_drains deployed 0 oneEvent (by decide) _ (slow_rounds 6 _) (by decide))

end CallingAgent.Proof.Deployment
