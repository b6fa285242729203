import Mathlib
import CallingAgent.Proof.Reads.Scope

/-!
# What a session sees

Under the setting that `get_tenant_scoped_db` makes for a user of a tenant, the
policy shows the rows of the token's tenant and no others (`visible_tenantScopedDb`).
-/

namespace CallingAgent.Proof.Reads

open CallingAgent.Framework CallingAgent.Impl CallingAgent.Impl.Auth CallingAgent.Impl.Tenant
  CallingAgent.Impl.Reads

variable {user : Claims} {db : Session}

theorem toString_ne_empty (n : Int) : toString n ≠ "" := by
  rw [Int.toString_eq_repr, Int.repr_eq_if]
  split
  · exact Nat.repr_ne_empty
  · intro h
    have := congrArg String.toList h
    simp at this

theorem underscore_notMem_toString (n : Int) : '_' ∉ (toString n).toList := by
  rw [Int.toString_eq_repr, Int.repr_eq_if]
  split
  · rw [Nat.toList_repr]
    exact Nat.underscore_not_in_toDigits
  · rw [String.toList_append, Nat.toList_repr]
    simp [Nat.underscore_not_in_toDigits]

theorem toString_ne_sentinel (n : Int) : toString n ≠ allTenantsSentinel := by
  intro h
  exact underscore_notMem_toString n (h ▸ by decide)

theorem toString_injective {m n : Int} (h : toString m = toString n) : m = n := by
  rw [Int.toString_eq_repr, Int.toString_eq_repr] at h
  exact Int.repr_injective h

/-- The setting of a token with a tenant. -/
theorem tenantValue_some (h : OfTenant user) {n : Int} (hc : user.clientId = some n) (hn : n ≠ 0) :
    (tenantUser user).tenantValue = toString n := by
  have hr : user.role.getD "agent" ≠ "super_admin" := by
    rcases h with h | h <;> rw [h] <;> decide
  simp [User.tenantValue, tenantUser, hc, hr, hn]

/-- The setting of a token without one. -/
theorem tenantValue_noTenant (h : OfTenant user) (hc : noTenant user = true) :
    (tenantUser user).tenantValue = "" := by
  have hr : user.role.getD "agent" ≠ "super_admin" := by
    rcases h with h | h <;> rw [h] <;> decide
  cases hu : user.clientId with
  | none => simp [User.tenantValue, tenantUser, hu, hr]
  | some n =>
    have hn : n = 0 := by simpa [noTenant, hu] using hc
    simp [User.tenantValue, tenantUser, hu, hr, hn]

theorem tenantValue_ne_sentinel (h : OfTenant user) : (tenantUser user).tenantValue ≠ allTenantsSentinel := by
  rcases noTenant_cases user with hc | ⟨n, hc, hn⟩
  · rw [tenantValue_noTenant h hc]
    decide
  · rw [tenantValue_some h hc hn]
    exact toString_ne_sentinel n

/-- The policy shows the rows of the setting's tenant. -/
theorem visible_tenantScopedDb (h : OfTenant user) (hrls : db.rls.isSome) (tenantId : Option String) :
    (tenantScopedDb user db).visible tenantId = decide (tenantId = some (tenantUser user).tenantValue) := by
  obtain ⟨setting, hs⟩ := Option.isSome_iff_exists.mp hrls
  have hne : ¬ (some (tenantUser user).tenantValue = some allTenantsSentinel) := fun e =>
    tenantValue_ne_sentinel h (Option.some.inj e)
  cases tenantId <;> simp [Session.visible, tenantScopedDb, hs, tenantIsolation, hne, Bool.beq_eq_decide_eq]

/-- A numeric tenant column that the policy shows is that of the token. -/
theorem clientId_of_tenantValue (h : OfTenant user) {m : Int} (e : toString m = (tenantUser user).tenantValue) :
    user.clientId = some m := by
  rcases noTenant_cases user with hc | ⟨n, hc, hn⟩
  · rw [tenantValue_noTenant h hc] at e
    exact absurd e (toString_ne_empty m)
  · rw [tenantValue_some h hc hn] at e
    rw [hc, toString_injective e]

end CallingAgent.Proof.Reads
