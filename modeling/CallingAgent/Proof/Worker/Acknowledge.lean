import Mathlib.Data.List.Perm.Subperm
import CallingAgent.Proof.Worker.Loop
import CallingAgent.Proof.Jobs.Lifecycle

/-!
# No premature acknowledgement

A worker sends `complete` only after the integration of the job has returned
(`Proof.Worker.Loop`), and a request that is served late is still that request.
So every `complete_event` is for a job that has succeeded, and so is every row
it makes `completed` (`Acknowledged`). A call of `integration.process` directly
follows the reply that granted its claim, so no two calls follow the same claim,
and there are at most as many as claims, which `attempts` counts (`Counted`).
Both are invariants of `Moves`, which lists what a step can do:
`no_premature_acknowledgement`.
-/

namespace CallingAgent.Proof.Workers

open CallingAgent.Framework CallingAgent.Impl CallingAgent.Impl.RunLoop CallingAgent.Impl.Workers
open CallingAgent.Proof.Jobs

/-! ## What a step does -/

/-- The reply is not the grant of a claim, or it is the API's answer to the
worker's latest request. -/
def Entitled (w : World) (i : Nat) (q : Query) (r : Reply q) : Prop :=
  ∀ job, granted q r = some job → ∃ k q' row, (w.workers i).request = some k ∧
    w.exchanges[k]? = some { query := q', stage := .answered row } ∧ row.jobId = job.jobId

inductive Moves (cfg : Config) (w : World) : World → Prop
  | skip : Moves cfg w w
  | api {b : Jobs.Action} (hb : ∀ k jobId, b ≠ .completeRead k jobId) :
      Moves cfg w { w with api := Jobs.step w.api b }
  | request {q : Query} (hq : ∀ jobId, q ≠ .complete jobId) :
      Moves cfg w { w with exchanges := w.exchanges ++ [{ query := q, stage := .sent }] }
  | call {i : Nat} {q : Query} {k : Reply q → Worker (Option Time)} {after : Option Nat}
      (hi : w.workers i = { prog := .call q k, request := after, waiting := false }) :
      Moves cfg w
        { w with
          workers :=
            Function.update w.workers i
              { prog := .call q k, request := some w.exchanges.length, waiting := true }
          exchanges := w.exchanges ++ [{ query := q, stage := .sent }]
          log := calledBy after q ++ w.log }
  | resume {i : Nat} {q : Query} {k : Reply q → Worker (Option Time)} {request : Option Nat} (r : Reply q)
      (hi : w.workers i = { prog := .call q k, request := request, waiting := true })
      (hr : Entitled w i q r) : Moves cfg w (w.resume cfg i q r k)
  | serve {k : Nat} {q : Query} {b : Option Jobs.Action}
      (hk : w.exchanges[k]? = some { query := q, stage := .sent })
      (hb : ∀ n jobId, b = some (.completeRead n jobId) → q = .complete jobId) :
      Moves cfg w { w.setStage k q .served with api := b.elim w.api (Jobs.step w.api) }
  | claim {k : Nat} {jobId : JobId}
      (hk : w.exchanges[k]? = some { query := .claim jobId, stage := .sent })
      (hc : claims jobId w.api (.claim jobId) = true) :
      Moves cfg w
        { w.setStage k (.claim jobId) .claimed with
          api := Jobs.step w.api (.claim jobId)
          log := .claimed jobId k :: w.log }
  | refresh {k : Nat} {jobId : JobId} {row : CallJob}
      (hk : w.exchanges[k]? = some { query := .claim jobId, stage := .claimed })
      (hr : w.api.job jobId = some row) : Moves cfg w (w.setStage k (.claim jobId) (.answered row))

theorem moves_serve (cfg : Config) (w : World) (k : Nat) : Moves cfg w (w.serve k) := by
  unfold World.serve
  split
  · rename_i jobId hk
    split
    · exact .serve (b := none) hk (fun _ _ e => by cases e)
    · rename_i hc
      refine .claim hk ?_
      simpa [claims] using hc
  · rename_i jobId hk
    exact .serve (b := some (.completeRead k jobId)) hk fun _ _ e => by cases e; rfl
  · rename_i jobId error retry hk
    split
    · exact .serve (b := some (.failRead k jobId _)) hk (fun _ _ e => by cases e)
    · exact .serve (b := none) hk (fun _ _ e => by cases e)
  · rename_i hk
    exact .serve (b := some .reap) hk (fun _ _ e => by cases e)
  · exact .skip

theorem moves (cfg : Config) (w : World) (a : Action) : Moves cfg w (step cfg w a) := by
  cases a with
  | tick d => exact .api (b := .tick d) (by simp)
  | addCall callId => exact .api (b := .addCall callId) (by simp)
  | create jobId body => exact .api (b := .create jobId body) (by simp)
  | request q =>
    simp only [step]
    split
    · exact .skip
    · rename_i hq; exact .request hq
  | call i =>
    simp only [step]
    split
    · rename_i hi; exact .call hi
    · exact .skip
  | reply i answer =>
    simp only [step]
    split
    · rename_i q k n hi
      split
      · exact .skip
      · rename_i hg
        exact .resume _ hi fun job e => absurd (by rw [e]; rfl) hg
    · exact .skip
  | receive i text =>
    simp only [step]
    split
    · rename_i jobId k n hi
      split
      · rename_i q row hn
        refine .resume _ hi fun job e => ⟨n, q, row, by rw [hi], hn, ?_⟩
        simp only [granted, Nat.reduceLeDiff, and_self, if_true, Option.some.injEq] at e
        rw [← e]; rfl
      · exact .skip
    · exact .skip
  | serve k => exact moves_serve cfg w k
  | update k => exact .api (b := .update k) (by simp)
  | refresh k =>
    simp only [step]
    split
    · rename_i jobId hk
      split
      · rename_i row hr; exact .refresh hk hr
      · exact .skip
    · exact .skip

theorem Moves.log {cfg : Config} {w w' : World} (h : Moves cfg w w') {e : Event} (he : e ∈ w.log) :
    e ∈ w'.log := by
  cases h with
  | call => exact List.mem_append_right _ he
  | resume => exact List.mem_append_right _ he
  | claim => exact List.mem_cons_of_mem _ he
  | _ => exact he

/-! ## Acknowledgement -/

/-- Every job that is `completed`, or about to be, has `P`. -/
structure Attested (P : JobId → Prop) (s : Jobs.State) : Prop where
  pending : ∀ {k jobId begun}, s.pending k = some (.complete jobId begun) → P jobId
  completed : ∀ {jobId r}, s.job jobId = some r → r.status = .completed → P jobId

theorem Attested.mono {P P' : JobId → Prop} {s : Jobs.State} (h : Attested P s) (hP : ∀ jobId, P jobId → P' jobId) :
    Attested P' s where
  pending hp := hP _ (h.pending hp)
  completed hj hs := hP _ (h.completed hj hs)

/-- A request is pending as `complete` because it was, or has just been read. -/
theorem pending_complete {s : Jobs.State} {b : Jobs.Action} {k : Nat} {jobId : JobId} {begun : Time}
    (h : (Jobs.step s b).pending k = some (.complete jobId begun)) :
    s.pending k = some (.complete jobId begun) ∨ b = .completeRead k jobId := by
  have hread : ∀ {n j} {next : CallJob → Jobs.Pending},
      (s.read n j next).pending k = some (.complete jobId begun) →
        s.pending k = some (.complete jobId begun) ∨ n = k ∧ ∃ r, next r = .complete jobId begun := by
    intro n j next h
    unfold Jobs.State.read at h
    split at h
    · split at h
      · rcases update_cases h with ⟨e, e'⟩ | ⟨-, h⟩
        · exact .inr ⟨e.symm, _, e'.symm⟩
        · exact .inl h
      · exact .inl h
    · exact .inl h
  cases b with
  | tick | addCall | claim | reap => exact .inl h
  | create =>
    simp only [Jobs.step] at h
    split at h <;> exact .inl h
  | completeRead n j =>
    rcases hread h with h | ⟨rfl, r, e⟩
    · exact .inl h
    · cases e; exact .inr rfl
  | failRead n j body =>
    rcases hread h with h | ⟨rfl, r, e⟩
    · exact .inl h
    · cases e
  | update n =>
    simp only [Jobs.step] at h
    split at h
    · by_cases e : k = n
      · subst e; simp at h
      · simp only [Function.update_of_ne e] at h
        exact .inl h
    · exact .inl h

theorem Attested.step {P : JobId → Prop} {s : Jobs.State} (h : Attested P s) {b : Jobs.Action}
    (hb : ∀ k jobId, b = .completeRead k jobId → P jobId) : Attested P (Jobs.step s b) where
  pending hp := by
    rcases pending_complete hp with hp | e
    · exact h.pending hp
    · exact hb _ _ e
  completed {jobId r'} hj hs := by
    cases hr : s.job jobId with
    | none =>
      obtain ⟨body, -, rfl⟩ := job_create hr hj
      cases hs
    | some r =>
      obtain ⟨x, hx, hstep⟩ := rowStep hr b
      obtain rfl : x = r' := by rw [hj] at hx; exact (Option.some.inj hx).symm
      obtain rfl : r.jobId = jobId := Table.lookup_key hr
      cases hstep with
      | keep => exact h.completed hr hs
      | claim => cases hs
      | complete _ hp => exact h.pending hp
      | fail => rw [failStmt_status] at hs; split at hs <;> cases hs
      | reap => simp only [Jobs.reapStmt] at hs; split at hs <;> cases hs

/-- The rest of a worker's program is in order, and the successes it has seen
are in the log. -/
def Attests (log : List Event) (p : Process) : Prop :=
  ∃ g, p.prog.Meets pre next anyEnd g ∧ ∀ jobId, g.succeeded jobId → .succeeded jobId ∈ log

theorem Attests.mono {log log' : List Event} {p : Process} (h : Attests log p) (hl : ∀ e ∈ log, e ∈ log') :
    Attests log' p := by
  obtain ⟨g, hp, hg⟩ := h
  exact ⟨g, hp, fun jobId hj => hl _ (hg jobId hj)⟩

/-- What has been acknowledged, or is about to be, has succeeded. -/
structure Acknowledged (w : World) : Prop where
  workers : ∀ i, Attests w.log (w.workers i)
  sent : ∀ {k : Nat} {jobId : JobId} {stage : Stage},
    w.exchanges[k]? = some { query := .complete jobId, stage := stage } → .succeeded jobId ∈ w.log
  api : Attested (fun jobId => .succeeded jobId ∈ w.log) w.api

theorem Acknowledged.moves {cfg : Config} {w w' : World} (h : Acknowledged w) (hm : Moves cfg w w') :
    Acknowledged w' := by
  have hworkers : ∀ i, Attests w'.log (w.workers i) := fun i => (h.workers i).mono fun _ => hm.log
  have hapi : Attested (fun jobId => .succeeded jobId ∈ w'.log) w.api := h.api.mono fun _ => hm.log
  have hsent : ∀ {k : Nat} {jobId : JobId} {stage : Stage},
      w.exchanges[k]? = some { query := .complete jobId, stage := stage } → .succeeded jobId ∈ w'.log :=
    fun hk => hm.log (h.sent hk)
  -- a request that has moved on is the same request
  have hset : ∀ {k n : Nat} {q : Query} {stage stage' stage'' : Stage} {jobId : JobId},
      w.exchanges[k]? = some { query := q, stage := stage } →
      (w.exchanges.set k { query := q, stage := stage' })[n]? =
        some { query := .complete jobId, stage := stage'' } → .succeeded jobId ∈ w'.log := by
    intro k n q stage stage' stage'' jobId hk hn
    rcases getElem?_set_cases hn with ⟨rfl, e⟩ | ⟨-, hn⟩
    · cases e; exact hsent hk
    · exact hsent hn
  cases hm with
  | skip => exact h
  | api hb => exact ⟨hworkers, hsent, hapi.step fun k jobId e => absurd e (hb k jobId)⟩
  | request hq =>
    refine ⟨hworkers, fun {k jobId stage} hk => ?_, hapi⟩
    rcases getElem?_concat_cases hk with hk | ⟨-, e⟩
    · exact h.sent hk
    · cases e; exact absurd rfl (hq jobId)
  | @call i q k after hi =>
    have hp := h.workers i
    rw [hi] at hp
    refine ⟨forall_update ?_ fun j _ => hworkers j, fun {n jobId stage} hn => ?_, hapi⟩
    · exact hp.mono fun e he => List.mem_append_right _ he
    · rcases getElem?_concat_cases hn with hn | ⟨-, e⟩
      · exact hsent hn
      · cases e
        obtain ⟨g, hp, hg⟩ := hp
        exact List.mem_append_right _ (hg jobId hp.1)
  | @resume i q k request r hi hr =>
    obtain ⟨g, hp, hg⟩ := h.workers i
    rw [hi] at hp
    refine ⟨forall_update ⟨next g q r, meets_loop cfg (hp.2 r), fun jobId hj => ?_⟩ fun j _ => hworkers j,
      hsent, hapi⟩
    rcases hj with hj | hj
    · exact List.mem_append_right _ (hg jobId hj)
    · exact List.mem_append_left _ (by simp [hj])
  | @serve k q b hk hb =>
    refine ⟨hworkers, hset hk, ?_⟩
    cases b with
    | none => exact hapi
    | some b =>
      refine hapi.step fun n jobId e => ?_
      subst e
      exact h.sent (hb n jobId rfl ▸ hk)
  | claim hk hc => exact ⟨hworkers, hset hk, hapi.step (b := .claim _) fun n jobId e => by cases e⟩
  | refresh hk hr => exact ⟨hworkers, hset hk, hapi⟩

theorem acknowledged_init (cfg : Config) (now : Time) : Acknowledged (.init cfg now) where
  workers _ := ⟨⟨fun _ => False, none⟩, meets_iteration cfg 0, fun _ h => h.elim⟩
  sent h := by simp [World.init] at h
  api := ⟨fun h => (by cases h), fun h => (by cases h)⟩

/-! ## Calls and attempts -/

/-- The calls of `integration.process` for a job, each by the request its worker
made before. -/
def callsOf (jobId : JobId) (log : List Event) : List (Option Nat) :=
  log.filterMap fun
    | .called k after => if k = jobId then some after else none
    | _ => none

/-- The requests that have claimed a job. -/
def claimsOf (jobId : JobId) (log : List Event) : List Nat :=
  log.filterMap fun
    | .claimed k request => if k = jobId then some request else none
    | _ => none

/-- The attempts counter of a job. -/
def attempts (s : Jobs.State) (jobId : JobId) : Nat := ((s.job jobId).map (·.attempts)).getD 0

theorem mem_callsOf {jobId : JobId} {log : List Event} {after : Option Nat} :
    after ∈ callsOf jobId log ↔ .called jobId after ∈ log := by
  simp only [callsOf, List.mem_filterMap]
  constructor
  · rintro ⟨e, he, h⟩
    cases e with
    | called k n =>
      obtain ⟨rfl, rfl⟩ : k = jobId ∧ n = after := by simpa using h
      exact he
    | _ => cases h
  · exact fun h => ⟨_, h, by simp⟩

theorem mem_claimsOf {jobId : JobId} {log : List Event} {k : Nat} :
    k ∈ claimsOf jobId log ↔ .claimed jobId k ∈ log := by
  simp only [claimsOf, List.mem_filterMap]
  constructor
  · rintro ⟨e, he, h⟩
    cases e with
    | claimed j n =>
      obtain ⟨rfl, rfl⟩ : j = jobId ∧ n = k := by simpa using h
      exact he
    | _ => cases h
  · exact fun h => ⟨_, h, by simp⟩

theorem attempts_step (s : Jobs.State) (b : Jobs.Action) (jobId : JobId) :
    attempts (Jobs.step s b) jobId = attempts s jobId + if claims jobId s b then 1 else 0 := by
  unfold attempts
  cases hr : s.job jobId with
  | none =>
    rw [claims_false_of_none hr]
    cases hj : (Jobs.step s b).job jobId with
    | none => rfl
    | some r =>
      obtain ⟨body, -, rfl⟩ := job_create hr hj
      rfl
  | some r =>
    obtain ⟨x, hx, hstep⟩ := rowStep hr b
    obtain rfl : r.jobId = jobId := Table.lookup_key hr
    rw [hx]
    exact hstep.attempts

/-- A worker that is not waiting holds a grant only from its latest request. -/
def Holds (log : List Event) (p : Process) : Prop :=
  ∃ g, p.prog.Meets pre next anyEnd g ∧
    (p.waiting = false → ∀ jobId, g.granted = some jobId → ∃ k, p.request = some k ∧ .claimed jobId k ∈ log)

/-- Each call of `integration.process` is for a claim of its own. -/
structure Counted (w : World) : Prop where
  workers : ∀ i, Holds w.log (w.workers i)
  fresh : ∀ {i k}, (w.workers i).request = some k → k < w.exchanges.length
  own : ∀ {i j k}, (w.workers i).request = some k → (w.workers j).request = some k → i = j
  called : ∀ {jobId after}, .called jobId after ∈ w.log →
    ∃ k, after = some k ∧ k < w.exchanges.length ∧ .claimed jobId k ∈ w.log
  past : ∀ {jobId k}, .called jobId (some k) ∈ w.log → ∀ i, (w.workers i).request ≠ some k
  once : ∀ jobId, (callsOf jobId w.log).Nodup
  answered : ∀ {k : Nat} {q : Query} {row : CallJob},
    w.exchanges[k]? = some { query := q, stage := .answered row } → .claimed row.jobId k ∈ w.log
  claimed : ∀ {k : Nat} {jobId : JobId},
    w.exchanges[k]? = some { query := .claim jobId, stage := .claimed } → .claimed jobId k ∈ w.log
  counted : ∀ jobId, (claimsOf jobId w.log).length ≤ attempts w.api jobId

/-- There are no more calls than attempts. -/
theorem Counted.calls_le {w : World} (h : Counted w) (jobId : JobId) :
    (callsOf jobId w.log).length ≤ attempts w.api jobId := by
  have hsub : callsOf jobId w.log ⊆ (claimsOf jobId w.log).map some := by
    intro after ha
    obtain ⟨k, rfl, -, hk⟩ := h.called (mem_callsOf.mp ha)
    exact List.mem_map_of_mem (mem_claimsOf.mpr hk)
  calc (callsOf jobId w.log).length
      ≤ ((claimsOf jobId w.log).map some).length := (List.subperm_of_subset (h.once jobId) hsub).length_le
    _ = (claimsOf jobId w.log).length := List.length_map _
    _ ≤ attempts w.api jobId := h.counted jobId

theorem le_attempts_step {s : Jobs.State} {jobId : JobId} {n : Nat} (h : n ≤ attempts s jobId)
    (b : Jobs.Action) : n ≤ attempts (Jobs.step s b) jobId := by
  rw [attempts_step]; exact Nat.le_add_right_of_le h

theorem Holds.mono {log log' : List Event} {p : Process} (h : Holds log p) (hl : ∀ e ∈ log, e ∈ log') :
    Holds log' p := by
  obtain ⟨g, hp, hg⟩ := h
  refine ⟨g, hp, fun hw jobId hj => ?_⟩
  obtain ⟨k, hk, hc⟩ := hg hw jobId hj
  exact ⟨k, hk, hl _ hc⟩

/-- A step in which no worker makes a call. -/
theorem Counted.frame {w w' : World} (h : Counted w)
    (hreq : ∀ i, (w'.workers i).request = (w.workers i).request) (hw : ∀ i, Holds w'.log (w'.workers i))
    (hlen : w.exchanges.length ≤ w'.exchanges.length) (hlog : ∀ e ∈ w.log, e ∈ w'.log)
    (hcalls : ∀ jobId, callsOf jobId w'.log = callsOf jobId w.log)
    (hans : ∀ {k : Nat} {q : Query} {row : CallJob},
      w'.exchanges[k]? = some { query := q, stage := .answered row } → .claimed row.jobId k ∈ w'.log)
    (hcl : ∀ {k : Nat} {jobId : JobId},
      w'.exchanges[k]? = some { query := .claim jobId, stage := .claimed } → .claimed jobId k ∈ w'.log)
    (hcount : ∀ jobId, (claimsOf jobId w'.log).length ≤ attempts w'.api jobId) : Counted w' := by
  have hcalled : ∀ {jobId after}, .called jobId after ∈ w'.log → .called jobId after ∈ w.log := fun hc => by
    rw [← mem_callsOf, hcalls, mem_callsOf] at hc
    exact hc
  refine ⟨hw, fun hi => ?_, fun hi hj => ?_, fun hc => ?_, fun hc i => ?_, fun jobId => ?_, hans, hcl, hcount⟩
  · rw [hreq] at hi; exact (h.fresh hi).trans_le hlen
  · rw [hreq] at hi hj; exact h.own hi hj
  · obtain ⟨k, e, hk, hm⟩ := h.called (hcalled hc)
    exact ⟨k, e, hk.trans_le hlen, hlog _ hm⟩
  · rw [hreq]; exact h.past (hcalled hc) i
  · rw [hcalls]; exact h.once jobId

theorem Counted.api {w : World} (h : Counted w) (b : Jobs.Action) :
    Counted { w with api := Jobs.step w.api b } :=
  h.frame (fun _ => rfl) h.workers (Nat.le_refl _) (fun _ => id) (fun _ => rfl) h.answered h.claimed
    fun jobId => le_attempts_step (h.counted jobId) b

theorem Counted.request {w : World} (h : Counted w) (q : Query) :
    Counted { w with exchanges := w.exchanges ++ [{ query := q, stage := .sent }] } := by
  refine h.frame (fun _ => rfl) h.workers (by simp) (fun _ => id) (fun _ => rfl) (fun hk => ?_) (fun hk => ?_)
    h.counted
  · rcases getElem?_concat_cases hk with hk | ⟨-, e⟩
    · exact h.answered hk
    · cases e
  · rcases getElem?_concat_cases hk with hk | ⟨-, e⟩
    · exact h.claimed hk
    · cases e

theorem Counted.served {w : World} (h : Counted w) (k : Nat) (q : Query) : Counted (w.setStage k q .served) := by
  refine h.frame (fun _ => rfl) h.workers (by simp [World.setStage]) (fun _ => id) (fun _ => rfl)
    (fun hk => ?_) (fun hk => ?_) h.counted
  · rcases getElem?_set_cases hk with ⟨-, e⟩ | ⟨-, hk⟩
    · cases e
    · exact h.answered hk
  · rcases getElem?_set_cases hk with ⟨-, e⟩ | ⟨-, hk⟩
    · cases e
    · exact h.claimed hk

theorem Counted.claim {w : World} (h : Counted w) {k : Nat} {jobId : JobId}
    (hc : claims jobId w.api (.claim jobId) = true) :
    Counted
      { w.setStage k (.claim jobId) .claimed with
        api := Jobs.step w.api (.claim jobId)
        log := .claimed jobId k :: w.log } := by
  refine h.frame (fun _ => rfl) (fun i => (h.workers i).mono fun _ => List.mem_cons_of_mem _)
    (by simp [World.setStage]) (fun _ => List.mem_cons_of_mem _) (fun _ => rfl) (fun hk => ?_) (fun hk => ?_)
    fun j => ?_
  · rcases getElem?_set_cases hk with ⟨-, e⟩ | ⟨-, hk⟩
    · cases e
    · exact List.mem_cons_of_mem _ (h.answered hk)
  · rcases getElem?_set_cases hk with ⟨rfl, e⟩ | ⟨-, hk⟩
    · cases e; exact List.mem_cons_self
    · exact List.mem_cons_of_mem _ (h.claimed hk)
  · by_cases e : jobId = j
    · subst e
      have hn : claimsOf jobId (.claimed jobId k :: w.log) = k :: claimsOf jobId w.log := by
        simp [claimsOf]
      show (claimsOf jobId (.claimed jobId k :: w.log)).length ≤ attempts (Jobs.step w.api _) jobId
      rw [hn, attempts_step, hc]
      exact Nat.succ_le_succ (h.counted jobId)
    · have hn : claimsOf j (.claimed jobId k :: w.log) = claimsOf j w.log := by
        simp [claimsOf, e]
      show (claimsOf j (.claimed jobId k :: w.log)).length ≤ _
      rw [hn]
      exact le_attempts_step (h.counted j) _

theorem Counted.refresh {w : World} (h : Counted w) {k : Nat} {jobId : JobId} {row : CallJob}
    (hk : w.exchanges[k]? = some { query := .claim jobId, stage := .claimed })
    (hr : w.api.job jobId = some row) : Counted (w.setStage k (.claim jobId) (.answered row)) := by
  refine h.frame (fun _ => rfl) h.workers (by simp [World.setStage]) (fun _ => id) (fun _ => rfl)
    (fun hn => ?_) (fun hn => ?_) h.counted
  · rcases getElem?_set_cases hn with ⟨rfl, e⟩ | ⟨-, hn⟩
    · cases e
      rw [show row.jobId = jobId from Table.lookup_key hr]
      exact h.claimed hk
    · exact h.answered hn
  · rcases getElem?_set_cases hn with ⟨-, e⟩ | ⟨-, hn⟩
    · cases e
    · exact h.claimed hn

/-- The successes in the log are neither calls nor claims. -/
theorem callsOf_succeeded (jobId : JobId) (js : List JobId) (log : List Event) :
    callsOf jobId (js.map .succeeded ++ log) = callsOf jobId log := by
  simp [callsOf, List.filterMap_append, List.filterMap_map]

theorem claimsOf_succeeded (jobId : JobId) (js : List JobId) (log : List Event) :
    claimsOf jobId (js.map .succeeded ++ log) = claimsOf jobId log := by
  simp [claimsOf, List.filterMap_append, List.filterMap_map]

theorem Counted.resume {cfg : Config} {w : World} (h : Counted w) {i : Nat} {q : Query}
    {k : Reply q → Worker (Option Time)} {request : Option Nat} {r : Reply q}
    (hi : w.workers i = { prog := .call q k, request := request, waiting := true }) (hr : Entitled w i q r) :
    Counted (w.resume cfg i q r k) := by
  have hlog : ∀ e ∈ w.log, e ∈ (w.resume cfg i q r k).log := fun e he => List.mem_append_right _ he
  refine h.frame ?_ (forall_update ?_ fun j _ => (h.workers j).mono hlog) (Nat.le_refl _) hlog
    (fun jobId => callsOf_succeeded jobId _ _) (fun hk => hlog _ (h.answered hk))
    (fun hk => hlog _ (h.claimed hk)) fun jobId => ?_
  · exact forall_update (Q := fun j (p : Process) => p.request = (w.workers j).request) rfl fun j _ => rfl
  · obtain ⟨g, hp, -⟩ := h.workers i
    rw [hi] at hp
    refine ⟨next g q r, meets_loop cfg (hp.2 r), fun _ jobId hj => ?_⟩
    -- a grant is the API's answer to the request that the worker has waited for
    obtain ⟨job, hg, rfl⟩ := Option.map_eq_some_iff.mp hj
    obtain ⟨n, q', row, hn, hx, hrow⟩ := hr job hg
    exact ⟨n, hn, hlog _ (hrow ▸ h.answered hx)⟩
  · show (claimsOf jobId ((processed q r).toList.map .succeeded ++ w.log)).length ≤ attempts w.api jobId
    rw [claimsOf_succeeded]
    exact h.counted jobId

theorem mem_calledBy {after after' : Option Nat} {q : Query} {jobId : JobId}
    (h : .called jobId after' ∈ calledBy after q) : ∃ body, q = .process body ∧ body.jobId = jobId ∧ after' = after := by
  cases q with
  | process body =>
    obtain ⟨rfl, rfl⟩ : jobId = body.jobId ∧ after' = after := by simpa [calledBy] using h
    exact ⟨body, rfl, rfl, rfl⟩
  | _ => simp [calledBy] at h

theorem claimsOf_calledBy (jobId : JobId) (after : Option Nat) (q : Query) (log : List Event) :
    claimsOf jobId (calledBy after q ++ log) = claimsOf jobId log := by
  cases q <;> rfl

theorem callsOf_calledBy_nodup (jobId : JobId) (after : Option Nat) (q : Query) :
    (callsOf jobId (calledBy after q)).Nodup := by
  cases q with
  | process body =>
    by_cases e : body.jobId = jobId
    · simp [callsOf, calledBy, e]
    · simp [callsOf, calledBy, e]
  | _ => exact List.nodup_nil

/-- The worker's latest request is not yet behind a call, and claimed the job
that it now calls `integration.process` for. -/
theorem Counted.claimed_of_calledBy {w : World} (h : Counted w) {i : Nat} {q : Query} {k : Reply q → Worker (Option Time)}
    {after : Option Nat} (hi : w.workers i = { prog := .call q k, request := after, waiting := false })
    {jobId : JobId} {after' : Option Nat} (hc : .called jobId after' ∈ calledBy after q) :
    ∃ n, after' = some n ∧ after = some n ∧ .claimed jobId n ∈ w.log := by
  obtain ⟨body, rfl, rfl, rfl⟩ := mem_calledBy hc
  obtain ⟨g, hp, hg⟩ := h.workers i
  rw [hi] at hp hg
  obtain ⟨n, hn, hm⟩ := hg rfl body.jobId hp.1
  exact ⟨n, hn, hn, hm⟩

/-- A worker's request is the one that worker `i` now makes, or an earlier one
of another worker. -/
theorem Counted.request_cases {w : World} (h : Counted w) {i j n : Nat} {p : Process}
    (hp : p.request = some w.exchanges.length) (hj : (Function.update w.workers i p j).request = some n) :
    j = i ∧ n = w.exchanges.length ∨ j ≠ i ∧ n < w.exchanges.length ∧ (w.workers j).request = some n := by
  by_cases e : j = i
  · subst e
    rw [Function.update_self, hp] at hj
    exact .inl ⟨rfl, (Option.some.inj hj).symm⟩
  · rw [Function.update_of_ne e] at hj
    exact .inr ⟨e, h.fresh hj, hj⟩

theorem Counted.call {w : World} (h : Counted w) {i : Nat} {q : Query} {k : Reply q → Worker (Option Time)}
    {after : Option Nat} (hi : w.workers i = { prog := .call q k, request := after, waiting := false }) :
    Counted
      { w with
        workers :=
          Function.update w.workers i { prog := .call q k, request := some w.exchanges.length, waiting := true }
        exchanges := w.exchanges ++ [{ query := q, stage := .sent }]
        log := calledBy after q ++ w.log } := by
  have hlog : ∀ e ∈ w.log, e ∈ calledBy after q ++ w.log := fun e he => List.mem_append_right _ he
  have hreq : (w.workers i).request = after := by rw [hi]
  have hsent := h.request q
  refine ⟨forall_update ?_ fun j _ => (h.workers j).mono hlog, ?_, ?_, ?_, ?_, ?_,
    fun hn => hlog _ (hsent.answered hn), fun hn => hlog _ (hsent.claimed hn), ?_⟩
  · obtain ⟨g, hp, -⟩ := h.workers i
    rw [hi] at hp
    exact ⟨g, hp, fun e => by cases e⟩
  · intro j n hj
    dsimp only
    rw [List.length_append, List.length_singleton]
    rcases h.request_cases rfl hj with ⟨-, rfl⟩ | ⟨-, hlt, -⟩ <;> omega
  · intro j j' n hj hj'
    rcases h.request_cases rfl hj with ⟨rfl, hn⟩ | ⟨-, hlt, hj⟩
    · rcases h.request_cases rfl hj' with ⟨rfl, -⟩ | ⟨-, hlt, -⟩
      · rfl
      · omega
    · rcases h.request_cases rfl hj' with ⟨-, hn⟩ | ⟨-, -, hj'⟩
      · omega
      · exact h.own hj hj'
  · intro jobId after' hc
    rcases List.mem_append.mp hc with hc | hc
    · obtain ⟨n, e, e', hm⟩ := h.claimed_of_calledBy hi hc
      exact ⟨n, e, hsent.fresh (hreq.trans e'), hlog _ hm⟩
    · obtain ⟨n, e, hlt, hm⟩ := hsent.called hc
      exact ⟨n, e, hlt, hlog _ hm⟩
  · intro jobId n hc j hj
    rcases List.mem_append.mp hc with hc | hc
    · obtain ⟨m, e, e', -⟩ := h.claimed_of_calledBy hi hc
      cases e
      rcases h.request_cases rfl hj with ⟨-, rfl⟩ | ⟨hne, -, hj⟩
      · exact absurd (h.fresh (hreq.trans e')) (Nat.lt_irrefl _)
      · exact hne (h.own hj (hreq.trans e'))
    · rcases h.request_cases rfl hj with ⟨-, rfl⟩ | ⟨-, -, hj⟩
      · obtain ⟨m, e, hlt, -⟩ := h.called hc
        cases e
        exact absurd hlt (Nat.lt_irrefl _)
      · exact h.past hc j hj
  · intro jobId
    show (callsOf jobId (calledBy after q ++ w.log)).Nodup
    rw [callsOf, List.filterMap_append]
    refine List.nodup_append.mpr ⟨callsOf_calledBy_nodup jobId after q, h.once jobId, fun x hx y hy e => ?_⟩
    subst e
    obtain ⟨n, rfl, e', -⟩ := h.claimed_of_calledBy hi (mem_callsOf.mp hx)
    exact h.past (mem_callsOf.mp hy) i (hreq.trans e')
  · intro jobId
    show (claimsOf jobId (calledBy after q ++ w.log)).length ≤ attempts w.api jobId
    rw [claimsOf_calledBy]
    exact h.counted jobId

theorem Counted.moves {cfg : Config} {w w' : World} (h : Counted w) (hm : Moves cfg w w') : Counted w' := by
  cases hm with
  | skip => exact h
  | api => exact h.api _
  | request => exact h.request _
  | call hi => exact h.call hi
  | resume r hi hr => exact h.resume hi hr
  | @serve k q b hk hb =>
    cases b with
    | none => exact h.served k q
    | some b => exact (h.served k q).api b
  | claim hk hc => exact h.claim hc
  | refresh hk hr => exact h.refresh hk hr

theorem counted_init (cfg : Config) (now : Time) : Counted (.init cfg now) where
  workers _ := ⟨⟨fun _ => False, none⟩, meets_iteration cfg 0, fun _ jobId h => by cases h⟩
  fresh h := by cases h
  own h := by cases h
  called h := by cases h
  past h := by cases h
  once _ := List.nodup_nil
  answered h := by simp [World.init] at h
  claimed h := by simp [World.init] at h
  counted _ := Nat.zero_le _

/-- No premature acknowledgement. In every run of the workers, the job API and
its other clients, `integration.process` has returned for every job that is
`completed`, and it has been called for a job at most as often as the job's
`attempts` counter says. -/
theorem no_premature_acknowledgement (cfg : Config) (now : Time) (as : List Action) (jobId : JobId) :
    (∀ r, (run (step cfg) (.init cfg now) as).api.job jobId = some r → r.status = .completed →
      .succeeded jobId ∈ (run (step cfg) (.init cfg now) as).log) ∧
    (callsOf jobId (run (step cfg) (.init cfg now) as).log).length ≤
      attempts (run (step cfg) (.init cfg now) as).api jobId := by
  have hack := run_inv (acknowledged_init cfg now) (fun w a h => h.moves (moves cfg w a)) as
  have hcount := run_inv (counted_init cfg now) (fun w a h => h.moves (moves cfg w a)) as
  exact ⟨fun r hr hs => hack.api.completed hr hs, hcount.calls_le jobId⟩

/-- Redis has the job's id, and its integration succeeds. -/
def answers : (q : Query) → Reply q
  | .shutdown => false
  | .monotonic => 0
  | .sleep => ()
  | .blpop => .ok (some "job")
  | .list _ _ => none
  | .claim _ => none
  | .complete _ => none
  | .fail _ _ _ => none
  | .reap => none
  | .process _ => some { statusCode := 200, text := "", body := some { status := "processed", detail := none } }

/-- One job, from its creation to its completion. -/
def completingRun : List Action :=
  [.create "job" answeredEvent, .call 0, .reply 0 answers, .call 0, .reply 0 answers, .call 0, .reply 0 answers,
    .call 0, .serve 3, .refresh 3, .receive 0 "", .call 0, .reply 0 answers, .call 0, .serve 5, .update 5]

example :
    let w := run (step ⟨60000000⟩) (.init ⟨60000000⟩ 0) completingRun
    (w.api.job "job").map (·.status) = some .completed ∧ (callsOf "job" w.log).length = 1 ∧
      attempts w.api "job" = 1 := by
  decide

end CallingAgent.Proof.Workers
