import CallingAgent.Proof.Admin.AuditFailure
import CallingAgent.Proof.Admin.Described
import CallingAgent.Proof.Admin.Passwordless

/-!
# The audit trail replays the state

One request either leaves no trace or adds the row that describes it (`recorded_or_rejected`),
which continues the chain of its entity and no other (`chain_concat`). A run of them is
`audit_trail_replays`.
-/

namespace CallingAgent.Proof.Admin

open CallingAgent.Framework CallingAgent.Impl CallingAgent.Impl.Auth CallingAgent.Impl.Reads CallingAgent.Impl.Admin
open CallingAgent.Impl.AdminWrites CallingAgent.Spec.AuditTrail

variable {bcrypt : Bcrypt} {db db' : Tables} {request : Request}

/-! ## Chains -/

theorem chain_append {before after : Option Snapshot} {rows : List AuditRow} {row : AuditRow} (h : Chain before rows after)
    (hbefore : row.beforeValue = after) : Chain before (rows ++ [row]) row.afterValue := by
  induction rows generalizing before with
  | nil =>
    obtain rfl : before = after := h
    exact ⟨hbefore, rfl⟩
  | cons first rows ih => exact ⟨h.1, ih h.2⟩

/-- The row of a mutation continues the chains. -/
theorem chain_concat {actor : Claims} {w : Write} {start : Tables} {rows : List AuditRow} {row : AuditRow}
    (h : ∀ e, Chain (current start e) (rows.filter (about e)) (current db e))
    (hrow : Describes actor w db db' row) (e : Entity) :
    Chain (current start e) ((rows ++ [row]).filter (about e)) (current db' e) := by
  obtain ⟨e', habout, hbefore, hafter, hother⟩ := hrow.changed
  rw [List.filter_append]
  by_cases he : e = e'
  · subst he
    rw [List.filter_cons_of_pos habout, List.filter_nil, ← hafter]
    exact chain_append (h e) hbefore
  · have hnot : ¬about e row = true := fun habout' => he (about_unique habout' habout)
    rw [List.filter_cons_of_neg hnot, List.filter_nil, List.append_nil, hother e he]
    exact h e

/-! ## Requests -/

/-- Nothing is committed, or a mutation whose audit row the database takes. -/
theorem request_cases (bcrypt : Bcrypt) (hadmin : ByAdmin db request) :
    (Rejected bcrypt userIdExists db request ∧ step bcrypt userIdExists db request = db) ∨
    ∃ m, mutate bcrypt db request = .ok m ∧ Recorded bcrypt userIdExists db request ∧
      step bcrypt userIdExists db request = { m.tables with auditLogs := db.auditLogs ++ [m.auditRow] } := by
  cases hm : mutate bcrypt db request with
  | ok m =>
    obtain ⟨actor, id, hauthorization, -, hsub, hid⟩ := hadmin
    obtain ⟨hactor, -, -, hcommit⟩ := mutate_eq_ok.mp hm
    obtain ⟨-, -, -, hlogs⟩ := commit_eq_some.mp hcommit
    have hactor' : m.actor = actor :=
      (Option.some.inj (Option.some.inj (hauthorization.symm.trans (Auth.getCurrentUser_eq_ok hactor)))).symm
    have hinserts : userIdExists m = true := inserts_of_user hm (by rw [hactor', hsub]) hid
    have hstep : step bcrypt userIdExists db request = { m.tables with auditLogs := db.auditLogs ++ [m.auditRow] } := by
      unfold step serve writeAuditLog
      rw [hm]
      simp only [hinserts, if_true, hlogs]
    have hreply : (serve bcrypt userIdExists db request).2 = .ok m.change.reply := by
      unfold serve respond
      rw [hm]
      simp only [hinserts, Bool.true_or, if_true]
    refine .inr ⟨m, rfl, ⟨⟨_, hreply⟩, m.auditRow, ?_⟩, hstep⟩
    rw [hstep]
  | httpException statusCode detail =>
    have hserve : serve bcrypt userIdExists db request = (db, .httpException statusCode detail) := by
      unfold serve
      rw [hm]
    have hstep : step bcrypt userIdExists db request = db := congrArg Prod.fst hserve
    refine .inl ⟨⟨fun reply => ?_, hstep⟩, hstep⟩
    rw [hserve]
    exact nofun
  | raised =>
    have hserve : serve bcrypt userIdExists db request = (db, .raised) := by
      unfold serve
      rw [hm]
    have hstep : step bcrypt userIdExists db request = db := congrArg Prod.fst hserve
    refine .inl ⟨⟨fun reply => ?_, hstep⟩, hstep⟩
    rw [hserve]
    exact nofun

/-! ## Runs -/

theorem replays_step {start : Tables} {rows : List AuditRow} (h : Replays start rows db) (hadmin : ByAdmin db request) :
    ∃ rows, Replays start rows (step bcrypt userIdExists db request) := by
  obtain ⟨-, e⟩ | ⟨m, hm, -, e⟩ := request_cases bcrypt hadmin
  · rw [e]
    exact ⟨rows, h⟩
  · have hrow := describes hm
    obtain ⟨entity, habout, -⟩ := hrow.changed
    have hchain := chain_concat h.chain hrow
    rw [e]
    refine ⟨rows ++ [m.auditRow], ?_, fun row hmem => ?_, hchain⟩
    · rw [← List.append_assoc, ← h.auditLogs]
    · rcases List.mem_append.mp hmem with hmem | hmem
      · exact h.ofEntity row hmem
      · rw [List.mem_singleton.mp hmem]
        exact ⟨entity, habout⟩

theorem replays_run (bcrypt : Bcrypt) (db : Tables) (requests : List Request)
    (h : AllSteps (step bcrypt userIdExists) ByAdmin db requests) :
    ∃ rows, Replays db rows (run (step bcrypt userIdExists) db requests) := by
  refine (always_of_step (I := fun db' => ∃ rows, Replays db rows db') ⟨[], ?_⟩ ?_ h).last
  · exact ⟨(List.append_nil _).symm, fun row hmem => absurd hmem List.not_mem_nil, fun e => rfl⟩
  · intro db' request hreplays hadmin
    obtain ⟨rows, hreplays⟩ := hreplays
    exact replays_step hreplays hadmin

/-- Each request is recorded or rejected, the audit rows replay the run, and the passwords
that are submitted have no part in them. -/
theorem audit_trail_replays (bcrypt : Bcrypt) (db : Tables) (requests : List Request)
    (h : AllSteps (step bcrypt userIdExists) ByAdmin db requests) :
    AllSteps (step bcrypt userIdExists)
        (fun db request => Recorded bcrypt userIdExists db request ∨ Rejected bcrypt userIdExists db request) db requests ∧
      (∃ rows, Replays db rows (run (step bcrypt userIdExists) db requests)) ∧
      ∀ requests', requests'.map withoutPassword = requests.map withoutPassword →
        (run (step bcrypt userIdExists) db requests').auditLogs = (run (step bcrypt userIdExists) db requests).auditLogs := by
  refine ⟨fun p request hp => ?_, replays_run bcrypt db requests h, fun requests' e => auditLogs_congr db e⟩
  obtain ⟨hrejected, -⟩ | ⟨m, -, hrecorded, -⟩ := request_cases bcrypt (h p request hp)
  · exact .inr hrejected
  · exact .inl hrecorded

/-- The super admin of `requestOf`. -/
def adminUser : AdminUser where
  id := "u2"
  email := "admin@example.org"
  fullName := "Admin"
  role := some .superAdmin
  status := some .active
  passwordHash := none
  tenantId := none
  createdAt := none

def adminTables : Tables := { noTables with users := ⟨⟨[adminUser], by decide⟩, by decide⟩ }

/-- A client is created, renamed and deleted. -/
def clientHistory : List Request := [creation, requestOf (.updateClient (.ok (1, { name := some "Inn" }))), deletion]

theorem audit_trail_replays_history :
    (run (step Auth.oneHash userIdExists) adminTables clientHistory).auditLogs.map (·.action) =
        ["client.create", "client.update", "client.delete"] ∧
      AllSteps (step Auth.oneHash userIdExists)
        (fun db request => Recorded Auth.oneHash userIdExists db request ∨ Rejected Auth.oneHash userIdExists db request)
        adminTables clientHistory ∧
      ∃ rows, Replays adminTables rows (run (step Auth.oneHash userIdExists) adminTables clientHistory) := by
  have hadmin : AllSteps (step Auth.oneHash userIdExists) ByAdmin adminTables clientHistory :=
    allSteps_cons.mpr ⟨⟨superAdmin, "u2", rfl, rfl, rfl, rfl⟩,
      allSteps_cons.mpr ⟨⟨superAdmin, "u2", rfl, rfl, rfl, rfl⟩,
        allSteps_cons.mpr ⟨⟨superAdmin, "u2", rfl, rfl, rfl, rfl⟩, allSteps_nil⟩⟩⟩
  obtain ⟨hrecorded, hreplays, -⟩ := audit_trail_replays Auth.oneHash adminTables clientHistory hadmin
  exact ⟨by decide, hrecorded, hreplays⟩

end CallingAgent.Proof.Admin
