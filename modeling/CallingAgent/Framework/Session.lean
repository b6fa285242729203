import CallingAgent.Framework.Run

/-!
# A setting of a database session

A connection has a session-level setting, of any type. A session on it opens a
transaction with its first statement. `set` (a session-scoped `set_config`, or
a `RESET`) changes the setting for the rest of the transaction, and for the
session when the transaction commits; a transaction that does not commit leaves
the session's setting as it was.

A transaction can fail in two ways. It is `aborted` by a statement that raises:
the database then rejects every statement until the transaction ends, and ends
it without effect. It is `inactive` after a flush that raises: the session then
raises at every statement and at `commit`, until it is rolled back.

* `Settled w`: every statement sees `w` from here on, and the session keeps it
  (`Settled.run`, `Settled.seen`);
* `session_set`: after a `set`, the session has the new value exactly if the
  first transaction commits (`commitsFirst`);
* `seen_set_iff`: after a `set`, all statements see the new value exactly if
  none runs after the first transaction was undone (`undoneFirst`), or the
  session had that value before;
* `seen_set_pool_iff`: on a pool, which may hand out another connection for each
  transaction, they do exactly if each later transaction finds that value on
  its connection. Sessions on one connection are those that get their own back
  (`collect_on_own`).
-/

namespace CallingAgent.Framework

inductive TxnStatus
  | active
  | aborted
  | inactive
  deriving DecidableEq

/-- An open transaction, with the setting its statements see. -/
structure Txn (α : Type) where
  setting : α
  status : TxnStatus := .active
  deriving DecidableEq

/-- The transaction after a statement that makes it fail with `status` if
`fails`. -/
def Txn.fail {α : Type} (t : Txn α) (fails : Bool) (status : TxnStatus) : Txn α :=
  if fails then { t with status := status } else t

structure Conn (α : Type) where
  session : α
  txn : Option (Txn α)
  deriving DecidableEq

/-- What code does with a session: a statement, a flush of pending objects, and
the ends of a transaction. `ok` is whether it goes through. -/
inductive SessionOp
  | execute (ok : Bool)
  | flush (ok : Bool)
  | commit
  | rollback
  deriving DecidableEq

/-- Whether an operation issues a statement. -/
def SessionOp.isStatement : SessionOp → Bool
  | .execute _ => true
  | .flush _ => true
  | _ => false

namespace Conn

variable {α : Type}

/-- A connection between two sessions: no transaction is open. -/
def pooled (session : α) : Conn α := ⟨session, none⟩

/-- The open transaction, or the one that the next statement opens. -/
def begun (c : Conn α) : Txn α := c.txn.getD { setting := c.session }

/-- A statement that sets the setting. -/
def set (c : Conn α) (v : α) : Conn α :=
  { c with txn := some (if c.begun.status = .active then { setting := v } else c.begun) }

def op (c : Conn α) : SessionOp → Conn α
  | .execute ok =>
    { c with txn := some (c.begun.fail (!ok && decide (c.begun.status = .active)) .aborted) }
  | .flush ok =>
    { c with txn := some (c.begun.fail (!ok || decide (c.begun.status = .aborted)) .inactive) }
  | .commit =>
    match c.txn with
    | none => c
    | some t =>
      match t.status with
      | .active => pooled t.setting
      | .aborted => pooled c.session
      | .inactive => c
  | .rollback => pooled c.session

/-- The setting that an operation's statement sees, if it runs. -/
def seen (c : Conn α) : SessionOp → List α
  | .execute _ => if c.begun.status = .active then [c.begun.setting] else []
  | .flush _ => if c.begun.status = .active then [c.begun.setting] else []
  | _ => []

/-- A statement that runs sees the setting of its transaction, and nothing else sees any. -/
theorem mem_seen {c : Conn α} {o : SessionOp} {g : α} :
    g ∈ c.seen o ↔ o.isStatement = true ∧ c.begun.status = .active ∧ g = c.begun.setting := by
  cases o <;> simp [seen, SessionOp.isStatement]

/-! ## Sessions without a `set` -/

/-- Every statement that runs sees `w`, and so does the session. -/
def Settled (w : α) (c : Conn α) : Prop :=
  c.session = w ∧ (c.begun.status = .active → c.begun.setting = w)

theorem settled_pooled (w : α) : Settled w (pooled w) := ⟨rfl, fun _ => rfl⟩

theorem settled_of_failed {w v : α} {status : TxnStatus} (h : status ≠ .active) :
    Settled w ⟨w, some ⟨v, status⟩⟩ := ⟨rfl, fun e => absurd e h⟩

theorem fail_active {t : Txn α} {fails : Bool} {status : TxnStatus} (hf : status ≠ .active)
    (h : (t.fail fails status).status = .active) : t.fail fails status = t := by
  cases fails with
  | true => exact absurd h hf
  | false => rfl

theorem Settled.op {w : α} {c : Conn α} (h : Settled w c) (o : SessionOp) : Settled w (c.op o) := by
  obtain ⟨hs, ht⟩ := h
  have hfail : ∀ {fails status}, status ≠ .active →
      Settled w { c with txn := some (c.begun.fail fails status) } := fun hf =>
    ⟨hs, fun e => by
      have ht' := fail_active hf e
      simp only [begun, Option.getD_some] at e ht' ⊢
      rw [ht'] at e ⊢; exact ht e⟩
  cases o with
  | execute ok => exact hfail (by decide)
  | flush ok => exact hfail (by decide)
  | commit =>
    show Settled w (match c.txn with
      | none => c
      | some t => _)
    split
    · exact ⟨hs, ht⟩
    · rename_i t hc
      simp only [begun, hc, Option.getD_some] at ht
      split
      · rename_i ha
        rw [ht ha]; exact settled_pooled w
      · rw [hs]; exact settled_pooled w
      · exact ⟨hs, by simpa only [begun, hc, Option.getD_some] using ht⟩
  | rollback => rw [← hs]; exact settled_pooled _

theorem Settled.run {w : α} {c : Conn α} (h : Settled w c) (ops : List SessionOp) :
    Settled w (Framework.run Conn.op c ops) := run_inv h (fun _ o h => h.op o) ops

theorem Settled.of_seen {w : α} {c : Conn α} (h : Settled w c) {o : SessionOp} {g : α} (hg : g ∈ c.seen o) :
    g = w := by
  obtain ⟨-, ha, rfl⟩ := mem_seen.mp hg
  exact h.2 ha

theorem Settled.seen {w : α} {c : Conn α} (h : Settled w c) {ops : List SessionOp} {g : α}
    (hg : g ∈ collect Conn.op Conn.seen c ops) : g = w := by
  induction ops generalizing c with
  | nil => cases hg
  | cons o ops ih =>
    rcases List.mem_append.mp hg with hg | hg
    · exact h.of_seen hg
    · exact ih (h.op o) hg

/-! ## Sessions with a `set` -/

end Conn

/-- The first transaction commits: no statement or rollback comes to its end
before a `commit` does. -/
def commitsFirst : List SessionOp → Bool
  | .execute true :: ops => commitsFirst ops
  | .flush true :: ops => commitsFirst ops
  | .commit :: _ => true
  | _ => false

/-- A statement is issued after the transaction that failed with `status` has
been ended: by a rollback, or, if a statement aborted it, by a `commit`. -/
def runsAgain (status : TxnStatus) : List SessionOp → Bool
  | [] => false
  | .rollback :: ops => ops.any SessionOp.isStatement
  | .commit :: ops =>
    if status = .aborted then ops.any SessionOp.isStatement else runsAgain status ops
  | .flush _ :: ops => runsAgain .inactive ops
  | .execute _ :: ops => runsAgain status ops

/-- The first transaction is undone, and a statement is issued after that. -/
def undoneFirst : List SessionOp → Bool
  | [] => false
  | .execute true :: ops => undoneFirst ops
  | .flush true :: ops => undoneFirst ops
  | .execute false :: ops => runsAgain .aborted ops
  | .flush false :: ops => runsAgain .inactive ops
  | .commit :: _ => false
  | .rollback :: ops => ops.any SessionOp.isStatement

namespace Conn

variable {α : Type}

theorem set_pooled (w v : α) : (pooled w).set v = ⟨w, some { setting := v }⟩ := rfl

/-- The session's setting after a session that began with a `set`. -/
theorem session_set (w v : α) (ops : List SessionOp) :
    (run Conn.op ((pooled w).set v) ops).session = if commitsFirst ops then v else w := by
  rw [set_pooled]
  induction ops with
  | nil => rfl
  | cons o ops ih =>
    rw [run_cons]
    cases o with
    | execute ok =>
      cases ok with
      | true => exact ih
      | false => exact ((settled_of_failed (by decide)).run ops).1
    | flush ok =>
      cases ok with
      | true => exact ih
      | false => exact ((settled_of_failed (by decide)).run ops).1
    | commit => exact ((settled_pooled v).run ops).1
    | rollback => exact ((settled_pooled w).run ops).1

/-- Outside a transaction, the first statement runs. -/
theorem exists_seen_pooled {w : α} {ops : List SessionOp} (h : ops.any SessionOp.isStatement = true) :
    w ∈ collect Conn.op Conn.seen (pooled w) ops := by
  induction ops with
  | nil => cases h
  | cons o ops ih =>
    cases o with
    | execute ok => exact List.mem_append_left _ (List.mem_singleton_self w)
    | flush ok => exact List.mem_append_left _ (List.mem_singleton_self w)
    | commit => exact ih h
    | rollback => exact ih h

theorem seen_of_no_statement {c : Conn α} {ops : List SessionOp} (h : ops.any SessionOp.isStatement = false) :
    collect Conn.op Conn.seen c ops = [] := by
  induction ops generalizing c with
  | nil => rfl
  | cons o ops ih =>
    simp only [List.any_cons, Bool.or_eq_false_iff] at h
    cases o with
    | execute => cases h.1
    | flush => cases h.1
    | commit => exact ih h.2
    | rollback => exact ih h.2

theorem seen_pooled {w : α} (ops : List SessionOp) :
    if ops.any SessionOp.isStatement then w ∈ collect Conn.op Conn.seen (pooled w) ops
    else collect Conn.op Conn.seen (pooled w) ops = [] := by
  split
  · exact exists_seen_pooled (by assumption)
  · exact seen_of_no_statement (Bool.eq_false_iff.mpr (by assumption))

/-- After a failed transaction, a statement runs exactly if one is issued after
its end, and it sees the session's setting. -/
theorem seen_failed {w v : α} {status : TxnStatus} (hf : status ≠ .active) (ops : List SessionOp) :
    if runsAgain status ops then w ∈ collect Conn.op Conn.seen ⟨w, some ⟨v, status⟩⟩ ops
    else collect Conn.op Conn.seen ⟨w, some ⟨v, status⟩⟩ ops = [] := by
  induction ops generalizing status with
  | nil => rfl
  | cons o ops ih =>
    cases status with
    | active => exact absurd rfl hf
    | aborted =>
      cases o with
      | execute ok => cases ok <;> exact ih hf
      | flush ok =>
        have hinactive : TxnStatus.inactive ≠ .active := by decide
        cases ok <;> exact ih hinactive
      | commit => exact seen_pooled ops
      | rollback => exact seen_pooled ops
    | inactive =>
      cases o with
      | execute ok => cases ok <;> exact ih hf
      | flush ok => cases ok <;> exact ih hf
      | commit => exact ih hf
      | rollback => exact seen_pooled ops

/-- All statements of a session that began with a `set` see the new value
exactly if none is issued after its first transaction was undone, or the
session had that value already. -/
theorem seen_set_iff (w v : α) (ops : List SessionOp) :
    (∀ g ∈ collect Conn.op Conn.seen ((pooled w).set v) ops, g = v) ↔ w = v ∨ undoneFirst ops = false := by
  -- Once the first transaction has failed or was rolled back, statements see `w`.
  have hlost : ∀ {c : Conn α} {ops : List SessionOp} {again : Bool}, Settled w c →
      (if again then w ∈ collect Conn.op Conn.seen c ops else collect Conn.op Conn.seen c ops = []) →
      ((∀ g ∈ collect Conn.op Conn.seen c ops, g = v) ↔ w = v ∨ again = false) := by
    intro c ops again hc hw
    refine ⟨fun h => ?_, fun h g hg => ?_⟩
    · cases again with
      | true => exact .inl (h w hw)
      | false => exact .inr rfl
    · rcases h with rfl | rfl
      · exact hc.seen hg
      · rw [show collect Conn.op Conn.seen c ops = [] from hw] at hg; cases hg
  rw [set_pooled]
  induction ops with
  | nil => exact ⟨fun _ => .inr rfl, fun _ g hg => by cases hg⟩
  | cons o ops ih =>
    cases o with
    | execute ok =>
      cases ok with
      | true => exact List.forall_mem_cons.trans ((and_iff_right rfl).trans ih)
      | false =>
        exact List.forall_mem_cons.trans ((and_iff_right rfl).trans
          (hlost (settled_of_failed (by decide)) (seen_failed (by decide) ops)))
    | flush ok =>
      cases ok with
      | true => exact List.forall_mem_cons.trans ((and_iff_right rfl).trans ih)
      | false =>
        exact List.forall_mem_cons.trans ((and_iff_right rfl).trans
          (hlost (settled_of_failed (by decide)) (seen_failed (by decide) ops)))
    | commit => exact ⟨fun _ => .inr rfl, fun _ g hg => (settled_pooled v).seen hg⟩
    | rollback =>
      show (∀ g ∈ collect Conn.op Conn.seen (pooled w) ops, g = v) ↔ w = v ∨ ops.any _ = false
      exact hlost (settled_pooled w) (seen_pooled ops)

/-! ## Sessions on a pool

A session gives its connection back when a transaction ends, and takes one when the next
begins. An operation comes with the setting of the connection that the pool would hand out. -/

/-- A statement outside a transaction takes a connection. -/
def takes (c : Conn α) (a : SessionOp × α) : Bool := a.1.isStatement && c.txn.isNone

def take (c : Conn α) (a : SessionOp × α) : Conn α := if c.takes a then pooled a.2 else c

def opOn (c : Conn α) (a : SessionOp × α) : Conn α := (c.take a).op a.1

def seenOn (c : Conn α) (a : SessionOp × α) : List α := (c.take a).seen a.1

/-- What is found on the connections that are taken. -/
def found (c : Conn α) (a : SessionOp × α) : List α := if c.takes a then [a.2] else []

/-- The open transaction has the setting `v`, unless it has failed. -/
def Holds (v : α) (c : Conn α) : Prop := ∀ t, c.txn = some t → t.status = .active → t.setting = v

theorem seen_pooled_statement (w : α) {o : SessionOp} (ho : o.isStatement = true) : (pooled w).seen o = [w] := by
  cases o with
  | execute | flush => rfl
  | commit | rollback => cases ho

theorem holds_pooled (v w : α) : Holds v (pooled w) := fun _ h => by cases h

theorem holds_fail {v : α} {c : Conn α} {fails : Bool} {status : TxnStatus} (hf : status ≠ .active)
    (h : c.begun.status = .active → c.begun.setting = v) :
    Holds v { c with txn := some (c.begun.fail fails status) } := by
  intro t ht ha
  obtain rfl : c.begun.fail fails status = t := Option.some.inj ht
  have hsame := fail_active hf ha
  rw [hsame] at ha ⊢
  exact h ha

/-- A statement that sees `v` leaves a transaction that has it. -/
theorem holds_op {v : α} {c : Conn α} (h : Holds v c) {o : SessionOp} (hseen : ∀ g ∈ c.seen o, g = v) :
    Holds v (c.op o) := by
  have hbegun : o.isStatement = true → c.begun.status = .active → c.begun.setting = v := fun ho ha =>
    hseen _ (mem_seen.mpr ⟨ho, ha, rfl⟩)
  cases o with
  | execute ok => exact holds_fail (by decide) (hbegun rfl)
  | flush ok => exact holds_fail (by decide) (hbegun rfl)
  | commit =>
    show Holds v (match c.txn with
      | none => c
      | some t => _)
    split
    · exact h
    · split
      · exact holds_pooled v _
      · exact holds_pooled v _
      · exact h
  | rollback => exact holds_pooled v _

/-- A statement in an open transaction sees its setting, and another what it finds. -/
theorem seenOn_iff {v : α} {c : Conn α} (h : Holds v c) (a : SessionOp × α) :
    (∀ g ∈ c.seenOn a, g = v) ↔ ∀ g ∈ c.found a, g = v := by
  have hopen : ∀ (o : SessionOp) (t : Txn α), c.txn = some t → ∀ g ∈ c.seen o, g = v := by
    intro o t ht g hg
    obtain ⟨-, ha, rfl⟩ := mem_seen.mp hg
    have hbegun : c.begun = t := by rw [begun, ht, Option.getD_some]
    rw [hbegun] at ha ⊢
    exact h t ht ha
  obtain ⟨o, g⟩ := a
  cases ht : c.txn with
  | some t =>
    have hkeeps : c.takes (o, g) = false := by rw [takes, ht]; exact Bool.and_false _
    rw [seenOn, take, found, hkeeps]
    exact iff_of_true (hopen o t ht) fun g hg => by cases hg
  | none =>
    cases ho : o.isStatement with
    | false =>
      have hkeeps : c.takes (o, g) = false := by rw [takes, ho]; rfl
      rw [seenOn, take, found, hkeeps]
      refine iff_of_true (fun x hx => ?_) fun x hx => by cases hx
      exact nomatch ho.symm.trans (mem_seen.mp hx).1
    | true =>
      have htakes : c.takes (o, g) = true := by rw [takes, ho, ht]; rfl
      have hseen : c.seenOn (o, g) = [g] := by
        rw [seenOn, take, htakes]
        exact seen_pooled_statement g ho
      rw [hseen, found, htakes]
      exact Iff.rfl

theorem holds_opOn {v : α} {c : Conn α} (h : Holds v c) {a : SessionOp × α} (hseen : ∀ g ∈ c.seenOn a, g = v) :
    Holds v (c.opOn a) := by
  refine holds_op ?_ hseen
  unfold take
  split
  · exact holds_pooled v _
  · exact h

theorem seen_pool_iff {v : α} {c : Conn α} (h : Holds v c) (steps : List (SessionOp × α)) :
    (∀ g ∈ collect Conn.opOn Conn.seenOn c steps, g = v) ↔ ∀ g ∈ collect Conn.opOn Conn.found c steps, g = v := by
  induction steps generalizing c with
  | nil => exact Iff.rfl
  | cons a steps ih =>
    rw [collect_cons, collect_cons, List.forall_mem_append, List.forall_mem_append, ← seenOn_iff h a]
    exact and_congr_right fun hseen => ih (holds_opOn h hseen)

/-- All statements of a session that began with a `set` see the new value exactly if each
transaction after the first finds it on its connection. -/
theorem seen_set_pool_iff (w v : α) (steps : List (SessionOp × α)) :
    (∀ g ∈ collect Conn.opOn Conn.seenOn ((pooled w).set v) steps, g = v) ↔
      ∀ g ∈ collect Conn.opOn Conn.found ((pooled w).set v) steps, g = v := by
  refine seen_pool_iff (fun t ht _ => ?_) steps
  rw [set_pooled] at ht
  obtain rfl := Option.some.inj ht
  rfl

/-- The connection that is taken is the one that was given back. -/
def TakesOwn (c : Conn α) (a : SessionOp × α) : Prop := c.takes a = true → a.2 = c.session

theorem take_own {c : Conn α} {a : SessionOp × α} (h : c.TakesOwn a) : c.take a = c := by
  unfold take
  split
  · rename_i htakes
    obtain ⟨-, hnone⟩ := Bool.and_eq_true_iff.mp htakes
    rw [h htakes, pooled, ← Option.isNone_iff_eq_none.mp hnone]
  · rfl

/-- On its own connection, a session is as it is without a pool. -/
theorem collect_on_own {c : Conn α} {steps : List (SessionOp × α)} (h : AllSteps Conn.opOn TakesOwn c steps) :
    collect Conn.opOn Conn.seenOn c steps = collect Conn.op Conn.seen c (steps.map Prod.fst) := by
  induction steps generalizing c with
  | nil => rfl
  | cons a steps ih =>
    obtain ⟨hown, h⟩ := allSteps_cons.mp h
    have htake := take_own hown
    rw [collect_cons, List.map_cons, collect_cons, ih h, seenOn, opOn, htake]

/-- The connection of the next transaction, with the setting `found` if it is another one. -/
def next (c : Conn α) : Option α → Conn α
  | some setting => c.take (.execute true, setting)
  | none => c

end Conn

end CallingAgent.Framework
