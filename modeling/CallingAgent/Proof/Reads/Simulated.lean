import CallingAgent.Proof.Reads.Dates
import CallingAgent.Proof.Reads.NonInterference

/-!
# Simulated calls in the statistics

No query of `get_analytics`, `get_client_stats` and `get_tenant_stats` looks at
`is_simulation`. Two contents of `call_requests` with the same real calls have the same
statistics exactly if there are as many simulated calls in the one as in the other, over
each of the spans that are counted (`simulated_uncounted_iff`).
-/

namespace CallingAgent.Proof.Reads

open CallingAgent.Framework CallingAgent.Impl CallingAgent.Impl.Auth CallingAgent.Impl.Reads
open CallingAgent.Impl.ClientRouter (ownCalls getAnalytics dailyVolume)

variable {env : Env} {db : Session} {calls : Table Caller.id} {clientId : Int}

/-- The session with another content of `call_requests`. -/
def withCalls (db : Session) (calls : Table Caller.id) : Session :=
  { db with database := { db.database with callRequests := calls } }

/-- The contents have the same real calls. -/
def SameReal (db : Session) (calls : Table Caller.id) : Prop :=
  ∀ r, r.isSimulation = false → (r ∈ db.database.callRequests.rows ↔ r ∈ calls.rows)

/-- The simulated calls of a tenant that the session sees. -/
def simulatedCalls (db : Session) (clientId : Int) : List Caller := (ownCalls db clientId).filter (·.isSimulation)

/-- The calls of the last thirty days, on one of them. -/
def countOn (env : Env) (day : Int) (calls : List Caller) : Nat :=
  calls.countP fun call => call.createdAt.any (env.now - days 30 ≤ ·) && call.createdAt.map env.date = some day

/-- As many calls, and as many since the start of the month. -/
def SameTotals (env : Env) (calls calls' : List Caller) : Prop :=
  calls.length = calls'.length ∧
    countSince (startOfMonth env.now) (·.createdAt) calls = countSince (startOfMonth env.now) (·.createdAt) calls'

/-- As many in the last week besides, and on each of the last thirty days. -/
def SameNumbers (env : Env) (calls calls' : List Caller) : Prop :=
  SameTotals env calls calls' ∧
    countSince (env.now - days 7) (·.createdAt) calls = countSince (env.now - days 7) (·.createdAt) calls' ∧
      ∀ day, countOn env day calls = countOn env day calls'

/-! ## Counting -/

/-- The days of the calls that are counted by day. -/
def recentDates (env : Env) (calls : List Caller) : List Int :=
  ((calls.filter fun call => call.createdAt.any (env.now - days 30 ≤ ·)).filterMap (·.createdAt)).map env.date

theorem count_recentDates (env : Env) (day : Int) (calls : List Caller) :
    (recentDates env calls).count day = countOn env day calls := by
  rw [recentDates, List.count, List.countP_map, List.countP_filterMap, List.countP_filter, countOn]
  congr 1
  funext call
  cases call.createdAt with
  | none => rfl
  | some t => simp [Bool.and_comm, Bool.beq_eq_decide_eq]

/-- A date is listed with its number exactly if it has one. -/
theorem mem_dailyVolume {day : Int} {n : Nat} {calls : List Caller} :
    ⟨isoDate day, n⟩ ∈ dailyVolume env calls ↔
      n = ((calls.filterMap (·.createdAt)).map env.date).count day ∧ n ≠ 0 := by
  simp only [dailyVolume, List.mem_map, Finset.mem_sort, List.mem_toFinset, ClientRouter.CallVolumeDay.mk.injEq]
  constructor
  · rintro ⟨d, hd, hiso, rfl⟩
    obtain rfl := isoDate_injective hiso
    have hpos := List.count_pos_iff.mpr (List.mem_map.mpr hd)
    exact ⟨rfl, by omega⟩
  · rintro ⟨rfl, hne⟩
    exact ⟨day, List.mem_map.mp (List.count_pos_iff.mp (Nat.pos_of_ne_zero hne)), rfl, rfl⟩

theorem dailyVolume_eq_iff {calls calls' : List Caller} :
    dailyVolume env calls = dailyVolume env calls' ↔
      ∀ day, ((calls.filterMap (·.createdAt)).map env.date).count day =
        ((calls'.filterMap (·.createdAt)).map env.date).count day := by
  constructor
  · intro h day
    by_cases hn : ((calls.filterMap (·.createdAt)).map env.date).count day = 0
    · by_contra hne
      have hmem := mem_dailyVolume.mpr ⟨rfl, fun e => hne (hn.trans e.symm)⟩
      rw [← h] at hmem
      exact hne (mem_dailyVolume.mp hmem).1.symm
    · have hmem := mem_dailyVolume.mpr ⟨rfl, hn⟩
      rw [h] at hmem
      exact (mem_dailyVolume.mp hmem).1
  · intro h
    have hp := List.perm_iff_count.mpr h
    simp only [dailyVolume, List.toFinset_eq_of_perm _ _ hp, hp.count_eq]

section Contents

variable (hreal : SameReal db calls)
include hreal

/-- The real calls are counted alike. -/
theorem countP_ownCalls_iff (clientId : Int) (p : Caller → Bool) :
    (ownCalls db clientId).countP p = (ownCalls (withCalls db calls) clientId).countP p ↔
      (simulatedCalls db clientId).countP p = (simulatedCalls (withCalls db calls) clientId).countP p := by
  have hperm : ((ownCalls db clientId).filter fun call => !call.isSimulation).Perm
      ((ownCalls (withCalls db calls) clientId).filter fun call => !call.isSimulation) := by
    simp only [ownCalls, Session.callRequests, List.filter_filter]
    refine Table.filter_rows_perm fun r hr => hreal r ?_
    simp only [Bool.and_eq_true, Bool.not_eq_true'] at hr
    exact hr.1
  have hsplit : ∀ l : List Caller, l.countP p =
      (l.filter (·.isSimulation)).countP p + (l.filter fun call => !call.isSimulation).countP p := fun l =>
    List.countP_eq_countP_filter_add l p _
  rw [hsplit, hsplit (ownCalls (withCalls db calls) clientId), hperm.countP_eq]
  exact Nat.add_right_cancel_iff

theorem length_ownCalls_iff (clientId : Int) :
    (ownCalls db clientId).length = (ownCalls (withCalls db calls) clientId).length ↔
      (simulatedCalls db clientId).length = (simulatedCalls (withCalls db calls) clientId).length := by
  simpa using countP_ownCalls_iff hreal clientId fun _ => true

theorem getAnalytics_eq_iff :
    getAnalytics env db clientId = getAnalytics env (withCalls db calls) clientId ↔
      SameNumbers env (simulatedCalls db clientId) (simulatedCalls (withCalls db calls) clientId) := by
  have hday : ∀ day, (recentDates env (ownCalls db clientId)).count day =
      (recentDates env (ownCalls (withCalls db calls) clientId)).count day ↔
        countOn env day (simulatedCalls db clientId) = countOn env day (simulatedCalls (withCalls db calls) clientId) := by
    intro day
    rw [count_recentDates, count_recentDates]
    exact countP_ownCalls_iff hreal _ _
  unfold getAnalytics SameNumbers SameTotals
  simp only [Answer.ok.injEq, ClientRouter.Body.analytics.injEq, ClientRouter.AnalyticsResponse.mk.injEq,
    dailyVolume_eq_iff, length_ownCalls_iff hreal]
  rw [and_assoc]
  refine and_congr_right' (and_congr (countP_ownCalls_iff hreal _ _) (and_congr (countP_ownCalls_iff hreal _ _) ?_))
  exact forall_congr' hday

theorem stats_eq_iff {κ : Type} (client : Client) (tenant : κ) :
    Admin.stats env db client clientId tenant = Admin.stats env (withCalls db calls) client clientId tenant ↔
      SameTotals env (simulatedCalls db clientId) (simulatedCalls (withCalls db calls) clientId) := by
  have htotal := length_ownCalls_iff hreal clientId
  have hmonth := countP_ownCalls_iff hreal clientId fun call =>
    call.createdAt.any (startOfMonth env.now ≤ ·)
  constructor
  · intro h
    exact ⟨htotal.mp (congrArg Admin.Stats.totalCalls h), hmonth.mp (congrArg Admin.Stats.callsThisMonth h)⟩
  · rintro ⟨h, h'⟩
    have ht : ((db.callRequests.filter fun call => call.clientId = some clientId).length) =
      ((withCalls db calls).callRequests.filter fun call => call.clientId = some clientId).length := htotal.mpr h
    have hm : countSince (startOfMonth env.now) (·.createdAt)
        (db.callRequests.filter fun call => call.clientId = some clientId) =
      countSince (startOfMonth env.now) (·.createdAt)
        ((withCalls db calls).callRequests.filter fun call => call.clientId = some clientId) := hmonth.mpr h'
    unfold Admin.stats
    simp only [ht, hm]
    rfl

end Contents

/-- Two contents of `call_requests` with the same real calls: the analytics and the
statistics of a tenant are the same if and only if the simulated calls of the tenant have
the same numbers, in all and since the start of the month, and for the analytics also in
the last week and on each of the last thirty days. -/
theorem simulated_uncounted_iff (env : Env) (db : Session) (calls : Table Caller.id) (hreal : SameReal db calls)
    (clientId : Int) :
    (getAnalytics env db clientId = getAnalytics env (withCalls db calls) clientId ↔
      SameNumbers env (simulatedCalls db clientId) (simulatedCalls (withCalls db calls) clientId)) ∧
    (Admin.getClientStats env db clientId = Admin.getClientStats env (withCalls db calls) clientId ↔
      db.getClient clientId = none ∨
        SameTotals env (simulatedCalls db clientId) (simulatedCalls (withCalls db calls) clientId)) ∧
    (Admin.getTenantStats env db clientId = Admin.getTenantStats env (withCalls db calls) clientId ↔
      db.getClient clientId = none ∨
        SameTotals env (simulatedCalls db clientId) (simulatedCalls (withCalls db calls) clientId)) := by
  have hclient : (withCalls db calls).getClient clientId = db.getClient clientId := rfl
  unfold Admin.getClientStats Admin.getTenantStats
  rw [hclient]
  refine ⟨getAnalytics_eq_iff hreal, ?_⟩
  cases db.getClient clientId with
  | none => simp
  | some client => simp [stats_eq_iff hreal]

/-! ## One simulated call -/

/-- A simulated call of tenant 1. -/
def simulatedCall (customerName : Option String) : Caller where
  id := 1
  customerName := customerName
  phoneNumber := none
  hotelName := none
  checkInDate := none
  checkOutDate := none
  clientId := some 1
  createdAt := some 0
  status := .completed
  callType := .outbound
  isSimulation := true
  customerId := none
  connectionStatus := .connected
  failureReason := none
  durationSeconds := none
  outcome := none

def oneCall (customerName : Option String) : Table Caller.id := ⟨[simulatedCall customerName], List.nodup_singleton _⟩

/-- The session of a database without calls. -/
def noCalls : Session := ⟨platformDatabase, none⟩

/-- With it, the tenant has a call. -/
theorem simulated_call_counted :
    ¬∀ (env : Env) (db : Session) (calls : Table Caller.id), SameReal db calls → ∀ clientId,
      getAnalytics env db clientId = getAnalytics env (withCalls db calls) clientId := by
  intro h
  have hreal : SameReal noCalls (oneCall none) := by
    intro r hr
    refine iff_of_false nofun fun hmem => ?_
    rw [List.mem_singleton.mp hmem] at hr
    cases hr
  have heq := h (postgresEnv tableOrder) noCalls (oneCall none) hreal 1
  simp only [getAnalytics, Answer.ok.injEq, ClientRouter.Body.analytics.injEq, ClientRouter.AnalyticsResponse.mk.injEq] at heq
  exact absurd heq.1 (by decide)

/-- The name of its customer makes no difference. -/
theorem simulated_name_uncounted :
    getAnalytics (postgresEnv tableOrder) (withCalls noCalls (oneCall none)) 1 =
      getAnalytics (postgresEnv tableOrder) (withCalls (withCalls noCalls (oneCall none)) (oneCall (some "A"))) 1 := by
  have hreal : SameReal (withCalls noCalls (oneCall none)) (oneCall (some "A")) := by
    intro r hr
    refine iff_of_false (fun hmem => ?_) fun hmem => ?_
    · rw [List.mem_singleton.mp hmem] at hr
      cases hr
    · rw [List.mem_singleton.mp hmem] at hr
      cases hr
  exact (simulated_uncounted_iff _ _ _ hreal 1).1.mpr ⟨⟨rfl, rfl⟩, rfl, fun day => rfl⟩

end CallingAgent.Proof.Reads
