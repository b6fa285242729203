import CallingAgent.Impl.Tenant

/-!
# Tenant context across requests

The `RESET` in the `finally` of `get_db` is a statement like any other: it opens
a transaction if none is open, and closing the session rolls that transaction
back. So it never takes effect, and a request leaves its tenant on the
connection exactly when the transaction in which it set it is committed
(`Leaks`, `serve_pooled`). The requests on a connection each start without
tenant context if and only if none before them leaks
(`starts_without_tenant_iff`).
-/

namespace CallingAgent.Proof.Tenant

open CallingAgent.Framework CallingAgent.Impl.Tenant

/-- The value that a dependency sets. -/
def tenantValue : Dependency → Option String
  | .db => none
  | .tenantScoped user => some user.tenantValue
  | .internalService => some allTenantsSentinel
  | .login => some allTenantsSentinel

/-- The request sets a tenant, and commits the transaction in which it does. -/
def Leaks (r : Request) : Prop :=
  (∃ v, tenantValue r.dependency = some v ∧ v ≠ "") ∧ commitsFirst r.ops = true

/-- What a request leaves on a connection that has `w`. -/
def leaves (w : Setting) (r : Request) : Setting :=
  match tenantValue r.dependency with
  | none => w
  | some v => if commitsFirst r.ops then some v else w

theorem enter_of_none {d : Dependency} (h : tenantValue d = none) (c : Conn Setting) :
    d.enter .postgresql c = c := by
  cases d with
  | db => rfl
  | _ => cases h

theorem enter_of_some {d : Dependency} {v : String} (h : tenantValue d = some v) (c : Conn Setting) :
    d.enter .postgresql c = c.set (some v) := by
  cases d with
  | db => cases h
  | _ => cases h; rfl

/-- The cleanup of `get_db` never reaches the session: it is what the handler
left. -/
theorem serve_session (c : Conn Setting) (r : Request) :
    serve .postgresql c r = .pooled (run Conn.op (r.dependency.enter .postgresql c) r.ops).session := by
  show Conn.pooled _ = Conn.pooled _
  cases r.raises <;> rfl

theorem serve_pooled (w : Setting) (r : Request) :
    serve .postgresql (.pooled w) r = .pooled (leaves w r) := by
  rw [serve_session, leaves]
  cases h : tenantValue r.dependency with
  | none => rw [enter_of_none h, ((Conn.settled_pooled w).run r.ops).1]
  | some v => rw [enter_of_some h, Conn.session_set]

/-- A request leaves a connection without tenant context so, exactly if it does
not leak. -/
theorem isUnset_leaves {w : Setting} (hw : isUnset w = true) (r : Request) :
    isUnset (leaves w r) = true ↔ ¬ Leaks r := by
  unfold leaves Leaks
  cases h : tenantValue r.dependency with
  | none => simp [hw]
  | some v =>
    cases hc : commitsFirst r.ops with
    | false => simp [hw]
    | true => simp [isUnset]

/-- Without tenant context no tenant's row is visible. -/
theorem tenantIsolation_of_isUnset {g : Setting} (hg : isUnset g = true) {tenantId : Option String}
    (ht : tenantId ≠ some "") : tenantIsolation g tenantId = false := by
  cases g with
  | none => cases tenantId <;> rfl
  | some v =>
    obtain rfl : v = "" := by simpa [isUnset] using hg
    cases tenantId with
    | none => rfl
    | some t =>
      have : t ≠ "" := fun e => ht (congrArg some e)
      simp [tenantIsolation, allTenantsSentinel, this]

theorem settings_db {w : Setting} {r : Request} (h : r.dependency = .db) {g : Setting}
    (hg : g ∈ settings .postgresql (.pooled w) r) : g = w := by
  rw [settings, h] at hg
  exact (Conn.settled_pooled w).seen hg

/-- A connection between requests, without tenant context. -/
def NoTenant (c : Conn Setting) : Prop := ∃ w, c = .pooled w ∧ isUnset w = true

theorem noTenant_serve {c : Conn Setting} (h : NoTenant c) (r : Request) :
    NoTenant (serve .postgresql c r) ↔ ¬ Leaks r := by
  obtain ⟨w, rfl, hw⟩ := h
  rw [serve_pooled, ← isUnset_leaves hw]
  refine ⟨?_, fun h => ⟨_, rfl, h⟩⟩
  rintro ⟨w', e, hw'⟩
  rw [show leaves w r = w' from congrArg Conn.session e]; exact hw'

/-- Tenant context crosses requests on a connection only where one leaks. For
every sequence of requests on a pooled connection: `app.current_tenant` is
unset when each starts, and one that uses plain `get_db` runs with no tenant
context and sees no tenant's row, if and only if no request but the last both
sets a tenant and commits the transaction it sets it in. -/
theorem starts_without_tenant_iff (rs : List Request) :
    (∀ p r, p ++ [r] <+: rs →
      isUnset (run (serve .postgresql) (.pooled none) p).session = true ∧
      (r.dependency = .db →
        ∀ g ∈ settings .postgresql (run (serve .postgresql) (.pooled none) p) r,
          isUnset g = true ∧ ∀ tenantId, tenantId ≠ some "" → tenantIsolation g tenantId = false)) ↔
      ∀ r ∈ rs.dropLast, ¬ Leaks r := by
  have hinit : NoTenant (.pooled none) := ⟨none, rfl, rfl⟩
  have hpooled : ∀ p, ∃ w, run (serve .postgresql) (.pooled none) p = .pooled w := fun p =>
    run_inv (I := fun c : Conn Setting => ∃ w, c = .pooled w) ⟨none, rfl⟩
      (fun c r ⟨w, e⟩ => ⟨leaves w r, by rw [e, serve_pooled]⟩) p
  have hleaks : AllSteps (serve .postgresql) (fun _ r => ¬ Leaks r) (.pooled none) rs.dropLast ↔
      ∀ r ∈ rs.dropLast, ¬ Leaks r := allSteps_iff_forall_mem
  rw [← hleaks,
    ← always_iff_allSteps (I := fun _ => True) (P := NoTenant) trivial hinit
      (fun c r _ h hr => ⟨trivial, (noTenant_serve h r).mpr hr⟩)
      (fun c r _ h h' => (noTenant_serve h r).mp h') rs.dropLast,
    ← always_dropLast hinit]
  constructor
  · intro h p r hp
    obtain ⟨w, e⟩ := hpooled p
    have hu := (h p r hp).1
    rw [e] at hu
    exact ⟨w, e, hu⟩
  · intro h p r hp
    obtain ⟨w, e, hw⟩ := h p r hp
    rw [e]
    refine ⟨hw, fun hr g hg => ?_⟩
    rw [settings_db hr hg]
    exact ⟨hw, fun tenantId => tenantIsolation_of_isUnset hw⟩

/-- `create_call`: the lookup, the insert, the commit and the refresh. -/
def createCallRequest : Request where
  dependency := .internalService
  ops := [.execute true, .flush true, .commit, .execute true]

/-- `keepalive`: one statement, with plain `get_db`. -/
def keepaliveRequest : Request where
  dependency := .db
  ops := [.execute true]

/-- After `create_call`, a route with plain `get_db` runs with the sentinel, and
the policies show it the rows of every tenant. -/
theorem create_call_leaks :
    let c := run (serve .postgresql) (.pooled none) [createCallRequest]
    c.session = some allTenantsSentinel ∧
      settings .postgresql c keepaliveRequest = [some allTenantsSentinel] ∧
      tenantIsolation (some allTenantsSentinel) (some "1") = true ∧
      ¬ ∀ p r, p ++ [r] <+: [createCallRequest, keepaliveRequest] →
        isUnset (run (serve .postgresql) (.pooled none) p).session = true := by
  refine ⟨by decide, by decide, by decide, fun h => ?_⟩
  exact absurd (h [createCallRequest] keepaliveRequest (List.prefix_refl _)) (by decide)

end CallingAgent.Proof.Tenant
