import CallingAgent.Proof.Admin.Handlers
import CallingAgent.Proof.Auth.Identity

/-!
# A failed audit write

The rows are committed before `_write_audit_log`, so its failure does not change them. Its
rollback expires the row, which the responses of a create and an update are made from: they
raise. A delete has no body and is answered as if nothing had happened
(`audit_failure_invisible_iff`).
-/

namespace CallingAgent.Proof.Admin

open CallingAgent.Framework CallingAgent.Impl CallingAgent.Impl.Auth CallingAgent.Impl.Reads CallingAgent.Impl.Admin
open CallingAgent.Impl.AdminWrites

variable {bcrypt : Bcrypt} {eff : Effects} {db : Tables} {w : Write} {change : Change} {request : Request}

/-- A `DELETE`. -/
def IsDelete : Write → Prop
  | .deleteClient _ | .deleteTenant _ | .deleteUser _ => True
  | _ => False

/-- The request passes its checks, and is committed. -/
def Passes (bcrypt : Bcrypt) (db : Tables) (request : Request) : Prop := ∃ m, mutate bcrypt db request = .ok m

/-- The committed rows and the response are the same whether the audit row is inserted or
refused. -/
def AuditInvisible (bcrypt : Bcrypt) (db : Tables) (request : Request) : Prop :=
  (serve bcrypt (fun _ => true) db request).1.clients = (serve bcrypt (fun _ => false) db request).1.clients ∧
    (serve bcrypt (fun _ => true) db request).1.users = (serve bcrypt (fun _ => false) db request).1.users ∧
      (serve bcrypt (fun _ => true) db request).2 = (serve bcrypt (fun _ => false) db request).2

/-- Only a delete has no body. -/
theorem body_eq_none_iff (h : Handled bcrypt eff db w change) : change.reply.body = none ↔ IsDelete w := by
  cases h with
  | insertClient response hw hcheck hinsert => rcases hw with rfl | rfl <;> exact iff_of_false nofun id
  | replaceClient response notFound hw hcheck => rcases hw with rfl | rfl <;> exact iff_of_false nofun id
  | removeClient hw hclient => rcases hw with rfl | rfl <;> exact iff_of_true rfl trivial
  | insertUser hcheck hinsert => exact iff_of_false nofun id
  | replaceUser huser => exact iff_of_false nofun id
  | suspendUser huser => exact iff_of_true rfl trivial

theorem respond_eq_iff {reply : Reply} : respond true reply = respond false reply ↔ reply.body = none := by
  cases hbody : reply.body with
  | none => simp [respond, hbody]
  | some body => simp [respond, hbody]

/-- The failure of the audit write cannot be seen exactly if the request is a delete. -/
theorem audit_failure_invisible_iff (bcrypt : Bcrypt) (db : Tables) (request : Request) (h : Passes bcrypt db request) :
    AuditInvisible bcrypt db request ↔ IsDelete request.write := by
  obtain ⟨m, hm⟩ := h
  obtain ⟨-, -, hchange, -⟩ := mutate_eq_ok.mp hm
  have hserve : ∀ inserts : Bool, serve bcrypt (fun _ => inserts) db request =
      (writeAuditLog inserts m, respond inserts m.change.reply) := by
    intro inserts
    unfold serve
    rw [hm]
  unfold AuditInvisible
  rw [hserve true, hserve false, respond_eq_iff, body_eq_none_iff (handled hchange)]
  exact ⟨fun h => h.2.2, fun h => ⟨rfl, rfl, h⟩⟩

/-! ## A tenant that is created -/

def noTables : Tables where
  clients := ⟨Table.empty, by decide⟩
  users := ⟨Table.empty, by decide⟩
  auditLogs := []

/-- The token of a super admin. -/
def superAdmin : Claims where
  sub := some "u2"
  role := some "super_admin"
  type := some "access"

def requestOf (write : Write) : Request where
  authorization := some (some superAdmin)
  write := write
  eff := { now := 0, uuid4 := "u1", clientId := 1, salt := "", fits := true }

/-- `POST /admin/clients`, and `DELETE /admin/clients/1` after it. -/
def creation : Request := requestOf (.createClient (.ok { name := "Hotel", slug := "hotel" }))

def deletion : Request := requestOf (.deleteClient (.ok 1))

/-- The client is committed and the request is answered with a 500. -/
theorem failed_audit_raises :
    ¬∀ (bcrypt : Bcrypt) (db : Tables) (request : Request), Passes bcrypt db request →
      AuditInvisible bcrypt db request := by
  intro h
  have hpass : Passes Auth.oneHash noTables creation := ⟨_, rfl⟩
  have hsame := (h Auth.oneHash noTables creation hpass).2.2
  revert hsame
  decide

theorem audit_failure_invisible_deletion :
    AuditInvisible Auth.oneHash (step Auth.oneHash (fun _ => false) noTables creation) deletion :=
  (audit_failure_invisible_iff _ _ _ ⟨_, rfl⟩).mpr trivial

end CallingAgent.Proof.Admin
