import CallingAgent.Impl.Finalize

/-!
# Finalizations that overlap

`finalize_call` tests whether the call has ended on the row it has loaded, and
its `UPDATE` goes by the primary key alone. Two requests that have both loaded
a call that was open both write: the second overwrites the first, after the
first has been answered (`Overwrites`), and leaves the connection status of the
first where its own is the one it has loaded (`Mixes`). These are the only steps
that go wrong: `finalized_call_immutable_iff`, `outcome_columns_agree_iff`.

`Opened` is what every step keeps: a call is as it was created or has ended,
and a request commits what it has found open.
-/

namespace CallingAgent.Proof.Calls

open CallingAgent.Framework CallingAgent.Impl CallingAgent.Impl.Calls CallingAgent.Impl.Finalize

/-- The columns of a call that say how it ended. -/
structure Outcome where
  status : CallStatus
  connectionStatus : ConnectionStatus
  endedAt : Option Time
  endReason : Option String
  deriving DecidableEq

def outcome (r : Call) : Outcome := ⟨r.status, r.connectionStatus, r.endedAt, r.endReason⟩

/-- The columns of a call that `create_call` fixes. -/
structure SameCall (r r' : Call) : Prop where
  callId : r'.callId = r.callId
  tenantId : r'.tenantId = r.tenantId
  agentId : r'.agentId = r.agentId
  providerCallId : r'.providerCallId = r.providerCallId
  startedAt : r'.startedAt = r.startedAt
  isSimulation : r'.isSimulation = r.isSimulation

theorem SameCall.refl (r : Call) : SameCall r r := ⟨rfl, rfl, rfl, rfl, rfl, rfl⟩

theorem SameCall.trans {r r' r'' : Call} (h : SameCall r r') (h' : SameCall r' r'') : SameCall r r'' :=
  ⟨h'.callId.trans h.callId, h'.tenantId.trans h.tenantId, h'.agentId.trans h.agentId,
    h'.providerCallId.trans h.providerCallId, h'.startedAt.trans h.startedAt,
    h'.isSimulation.trans h.isSimulation⟩

/-- The call is as `create_call` has left it. -/
structure Open (r : Call) : Prop where
  status : r.status = .active
  connectionStatus : r.connectionStatus = .connected
  endedAt : r.endedAt = none
  endReason : r.endReason = none

/-- The call has ended, and says why. -/
def Ended (r : Call) : Prop := r.endedAt.isSome = true ∧ r.endReason.isSome = true

/-! ## The flush -/

section Flush

variable {loaded : Call} {body : FinalizeRequest} {r : Call}

theorem endStatus_ne_active (endReason : String) : (endStatus endReason).1 ≠ .active := by
  unfold endStatus endReasonMap
  split <;> decide

theorem written_of_ne {α : Type} [DecidableEq α] {loaded assigned current : α} (h : assigned ≠ loaded) :
    written loaded assigned current = assigned := if_neg h

/-- The flush of a call that was open when it was loaded: three columns are
written, and the connection status if it is not `connected`. -/
theorem flush_set (h : Open loaded) :
    (flushStmt loaded body).set r =
      { r with
        endedAt := some body.endedAt
        endReason := some body.endReason
        status := (endStatus body.endReason).1
        connectionStatus :=
          written .connected (endStatus body.endReason).2 r.connectionStatus } := by
  simp only [flushStmt, h.status, h.connectionStatus, h.endedAt, h.endReason, written_of_ne (Option.some_ne_none _),
    written_of_ne (endStatus_ne_active _)]

theorem flush_same (loaded : Call) (body : FinalizeRequest) (r : Call) :
    SameCall r ((flushStmt loaded body).set r) := ⟨rfl, rfl, rfl, rfl, rfl, rfl⟩

/-- A request that nothing interrupts writes what `finalizeCall` does. -/
theorem flush_self (h : Open loaded) :
    (flushStmt loaded body).set loaded = (finalizeStmt loaded.callId body).set loaded := by
  rw [flush_set h, h.connectionStatus]
  unfold written
  split
  · rename_i e
    simp only [finalizeStmt]
    rw [show ((endReasonMap body.endReason).getD (.failed, .failedPreConnect)).2 = .connected from e]
    rfl
  · rfl

end Flush

/-! ## What a step does -/

/-- What a step can do to the world. -/
inductive FStep (w : World) (a : Action) : World → Prop
  | skip (ha : ∀ req, a = .commit req → ∀ call body, w.requests req ≠ some (.loaded call body)) : FStep w a w
  | create {body : CallCreateRequest} {calls : CallTable} (ha : a = .create body)
      (h : w.calls.insert (newCall body) = some calls) : FStep w a { w with calls := calls }
  | get {call : Call} (ha : ∀ req, a ≠ .commit req) (h : w.calls.lookup call.callId = some call) :
      FStep w a { w with log := .state call :: w.log }
  | reject {req : Nat} {answer : Answer FinalizeResponse} (ha : ∀ req, a ≠ .commit req) :
      FStep w a (w.setRequest req (.answered answer))
  | reply {req : Nat} {call : Call} {response : FinalizeResponse} (ha : ∀ req, a ≠ .commit req)
      (h : w.calls.lookup call.callId = some call)
      (hr : call.endedAt = some response.endedAt ∧ response = alreadyFinalized call response.endedAt ∨
        finalized call = .ok response) :
      FStep w a
        { w.setRequest req (.answered (.ok response)) with log := .finalized response :: w.log }
  | load {req : Nat} {call : Call} {body : FinalizeRequest} (ha : ∀ req, a ≠ .commit req)
      (h : w.calls.lookup call.callId = some call) (he : call.endedAt = none) :
      FStep w a (w.setRequest req (.loaded call body))
  | commit {req : Nat} {call : Call} {body : FinalizeRequest} (ha : a = .commit req)
      (h : w.requests req = some (.loaded call body)) :
      FStep w a
        { w.setRequest req (.committed call.callId) with calls := w.calls.update (flushStmt call body) }

theorem createCall_cases (calls : CallTable) (body : CallCreateRequest) :
    (createCall calls body).1 = calls ∨
      ∃ calls', calls.insert (newCall body) = some calls' ∧ (createCall calls body).1 = calls' := by
  unfold createCall
  split
  · exact .inl rfl
  · split
    · rename_i calls' h; exact .inr ⟨calls', h, rfl⟩
    · exact .inl rfl

theorem fStep (w : World) (a : Action) : FStep w a (step w a) := by
  have hlookup : ∀ {c : CallId} {call : Call}, w.calls.lookup c = some call →
      w.calls.lookup call.callId = some call := fun h => by rw [Table.lookup_key h]; exact h
  cases a with
  | create body =>
    rcases createCall_cases w.calls body with e | ⟨calls, h, e⟩ <;> simp only [step, e]
    · exact .skip (by simp)
    · exact .create rfl h
  | get callId =>
    simp only [step]
    split
    · rename_i call h; exact .get (by simp) (hlookup h)
    · exact .skip (by simp)
  | load req callId body =>
    simp only [step]
    split
    · exact .skip (by simp)
    · split
      · exact .reject (by simp)
      · rename_i call h
        split
        · rename_i t ht; exact .reply (by simp) (hlookup h) (.inl ⟨ht, rfl⟩)
        · rename_i ht; exact .load (by simp) (hlookup h) ht
  | commit req =>
    simp only [step]
    split
    · rename_i call body h; exact .commit rfl h
    · rename_i hn
      refine .skip fun req' e call body h => ?_
      cases e; exact hn call body h
  | refresh req =>
    simp only [step]
    split
    · split
      · rename_i call h
        cases hf : finalized call with
        | ok response => exact .reply (by simp) (hlookup h) (.inr hf)
        | httpException => exact .reject (by simp)
        | raised => exact .reject (by simp)
      · exact .reject (by simp)
    · exact .skip (by simp)

/-! ## Calls that are open -/

/-- A call is as it was created or has ended, and what a request has loaded was
open. -/
structure Opened (w : World) : Prop where
  rows : ∀ {r}, r ∈ w.calls.rows → Open r ∨ Ended r
  loaded : ∀ {req call body}, w.requests req = some (.loaded call body) → Open call

theorem opened_setRequest {w : World} {req : Nat} {phase : Phase} {calls : CallTable} {log : List Reply}
    (h : Opened w) (hrows : ∀ {r}, r ∈ calls.rows → Open r ∨ Ended r)
    (hl : ∀ call body, phase = .loaded call body → Open call) :
    Opened { calls := calls, requests := Function.update w.requests req (some phase), log := log } := by
  refine ⟨hrows, fun {req' call body} hreq => ?_⟩
  rcases update_cases hreq with ⟨-, e⟩ | ⟨-, hreq⟩
  · exact hl call body e.symm
  · exact h.loaded hreq

theorem opened_step (w : World) (a : Action) (h : Opened w) : Opened (step w a) := by
  have hs := fStep w a
  generalize step w a = w' at hs
  cases hs with
  | skip => exact h
  | create _ hi =>
    refine ⟨fun hr => ?_, h.loaded⟩
    rcases (Table.mem_insert hi).mp hr with hr | rfl
    · exact h.rows hr
    · exact .inl ⟨rfl, rfl, rfl, rfl⟩
  | get => exact ⟨h.rows, h.loaded⟩
  | reject => exact opened_setRequest h h.rows fun _ _ e => by cases e
  | reply => exact opened_setRequest h h.rows fun _ _ e => by cases e
  | @load req call body _ hl he =>
    refine opened_setRequest h h.rows fun call' body' e => ?_
    cases e
    rcases h.rows (Table.lookup_mem hl) with ho | ⟨ht, -⟩
    · exact ho
    · rw [he] at ht; cases ht
  | @commit req call body _ hreq =>
    refine opened_setRequest h (fun hr => ?_) fun _ _ e => by cases e
    obtain ⟨r, hr₀, rfl⟩ := List.mem_map.mp hr
    rcases (flushStmt call body).row_cases r with e | ⟨-, e⟩ <;> rw [e]
    · exact h.rows hr₀
    · rw [flush_set (h.loaded hreq)]; exact .inr ⟨rfl, rfl⟩

theorem opened_init : Opened .init where
  rows h := by cases h
  loaded h := by cases h

/-! ## What the create fixes -/

theorem same_step {w : World} {c : CallId} {r : Call} (h : w.calls.lookup c = some r) (a : Action) :
    ∃ r', (step w a).calls.lookup c = some r' ∧ SameCall r r' := by
  have hs := fStep w a
  generalize step w a = w' at hs
  cases hs with
  | @create body calls _ hi =>
    refine ⟨r, ?_, .refl r⟩
    have hne : (newCall body).callId ≠ c := fun e => by
      have := (Table.insert_eq_some hi).1
      rw [e, h] at this; cases this
    show calls.lookup c = some r
    rw [Table.lookup_insert hi, if_neg hne, h]
  | @commit req call body =>
    refine ⟨(flushStmt call body).row r, ?_, ?_⟩
    · show (w.calls.update _).lookup c = _
      rw [Table.lookup_update, h]; rfl
    · rcases (flushStmt call body).row_cases r with e | ⟨-, e⟩ <;> rw [e]
      · exact .refl r
      · exact flush_same call body r
  | skip => exact ⟨r, h, .refl r⟩
  | get => exact ⟨r, h, .refl r⟩
  | reject => exact ⟨r, h, .refl r⟩
  | reply => exact ⟨r, h, .refl r⟩
  | load => exact ⟨r, h, .refl r⟩

theorem same_run {w : World} {c : CallId} {r : Call} (h : w.calls.lookup c = some r) (as : List Action) :
    ∃ r', (run step w as).calls.lookup c = some r' ∧ SameCall r r' := by
  induction as using List.reverseRecOn with
  | nil => exact ⟨r, h, .refl r⟩
  | append_singleton as a ih =>
    obtain ⟨x, hx, hs⟩ := ih
    obtain ⟨r', hr', hs'⟩ := same_step hx a
    exact ⟨r', by rw [run_concat]; exact hr', hs.trans hs'⟩

/-! ## A finalized call is immutable -/

def Reply.callId : Reply → CallId
  | .state call => call.callId
  | .finalized response => response.callId

/-- How the call ended, as the reply has it. -/
def Reply.outcome : Reply → Outcome
  | .state call => Calls.outcome call
  | .finalized response =>
    ⟨response.status, response.connectionStatus, some response.endedAt, some response.endReason⟩

/-- Every reply that comes after `finalize_call` was answered with a state of
the call has that state, and so would `get_call` now. -/
structure Agreed (w : World) : Prop where
  now : ∀ {x}, .finalized x ∈ w.log →
    ∃ r, w.calls.lookup x.callId = some r ∧ outcome r = Reply.outcome (.finalized x)
  log : w.log.Pairwise fun later earlier =>
    ∀ x, earlier = .finalized x → Reply.callId later = x.callId →
      Reply.outcome later = Reply.outcome (.finalized x)

/-- The call has ended as the request says it did. The connection status of a
request that says `connected` is not written. -/
structure Repeats (body : FinalizeRequest) (r : Call) : Prop where
  endedAt : r.endedAt = some body.endedAt
  endReason : r.endReason = some body.endReason
  status : r.status = (endStatus body.endReason).1
  connectionStatus : (endStatus body.endReason).2 = .connected ∨ r.connectionStatus = (endStatus body.endReason).2

/-- A request commits over the end of a call that `finalize_call` was already
answered with, and says something else: the call has ended since the request
loaded it. -/
def Overwrites (w : World) (a : Action) : Prop :=
  ∃ req call body r x, a = .commit req ∧ w.requests req = some (.loaded call body) ∧
    w.calls.lookup call.callId = some r ∧ .finalized x ∈ w.log ∧ x.callId = call.callId ∧ ¬ Repeats body r

theorem outcome_flush_iff {loaded r : Call} {body : FinalizeRequest} (h : Open loaded) :
    outcome ((flushStmt loaded body).set r) = outcome r ↔ Repeats body r := by
  have hconn : written .connected (endStatus body.endReason).2 r.connectionStatus = r.connectionStatus ↔
      (endStatus body.endReason).2 = .connected ∨ r.connectionStatus = (endStatus body.endReason).2 := by
    unfold written
    split
    · rename_i e; simp [e]
    · rename_i e; simp [e, eq_comm]
  rw [flush_set h]
  simp only [outcome, Outcome.mk.injEq, hconn]
  constructor
  · rintro ⟨hs, hc, ht, hr⟩
    exact ⟨ht.symm, hr.symm, hs.symm, hc⟩
  · rintro ⟨ht, hr, hs, hc⟩
    exact ⟨hs.symm, hc, ht.symm, hr.symm⟩

/-- The reply of `finalize_call` has the outcome of the row it was made from. -/
theorem reply_outcome {call : Call} {response : FinalizeResponse} (he : Open call ∨ Ended call)
    (h : call.endedAt = some response.endedAt ∧ response = alreadyFinalized call response.endedAt ∨
      finalized call = .ok response) :
    response.callId = call.callId ∧ Reply.outcome (.finalized response) = outcome call := by
  rcases h with ⟨ht, e⟩ | h
  · obtain ⟨reason, hreason⟩ : ∃ reason, call.endReason = some reason := by
      rcases he with ho | ⟨-, hr⟩
      · rw [ho.endedAt] at ht; cases ht
      · exact Option.isSome_iff_exists.mp hr
    rw [e]
    refine ⟨rfl, ?_⟩
    simp only [Reply.outcome, outcome, alreadyFinalized, ht, hreason, Option.getD_some]
  · unfold finalized at h
    split at h
    · rename_i ht hr
      cases h
      exact ⟨rfl, by simp only [Reply.outcome, outcome, ht, hr]⟩
    · cases h

/-- A reply with the state of a call as it is. -/
theorem Agreed.reply {w : World} (h : Agreed w) {requests : Nat → Option Phase} {y : Reply} {call : Call}
    (hc : w.calls.lookup call.callId = some call) (hid : Reply.callId y = call.callId)
    (ho : Reply.outcome y = outcome call) :
    Agreed { calls := w.calls, requests := requests, log := y :: w.log } := by
  refine ⟨fun {x} hx => ?_, List.pairwise_cons.mpr ⟨fun z hz x e hx => ?_, h.log⟩⟩
  · rcases List.mem_cons.mp hx with e | hx
    · subst e
      exact ⟨call, by rw [← hc]; exact congrArg _ hid, ho.symm⟩
    · exact h.now hx
  · -- An earlier answer of `finalize_call` had the state of the call as it is.
    subst e
    obtain ⟨r, hr, hout⟩ := h.now hz
    rw [← hx, hid, hc] at hr
    cases hr
    rw [ho, hout]

theorem Agreed.commit {w : World} (ho : Opened w) (h : Agreed w) {req : Nat} {call : Call} {body : FinalizeRequest}
    (hreq : w.requests req = some (.loaded call body)) :
    Agreed { w.setRequest req (.committed call.callId) with calls := w.calls.update (flushStmt call body) } ↔
      ¬ Overwrites w (.commit req) := by
  constructor
  · rintro h' ⟨req', call', body', r, x, e, hreq', hr, hx, hid, hne⟩
    cases e
    rw [hreq] at hreq'
    cases hreq'
    obtain ⟨r₀, hr₀, hout⟩ := h.now hx
    obtain ⟨r₁, hr₁, hout'⟩ := h'.now hx
    rw [hid, hr] at hr₀
    cases hr₀
    have hg : (flushStmt call body).guard r = true := by simp [flushStmt, Table.lookup_key hr]
    rw [Table.lookup_update, hid, hr, Option.map_some, Update.row_of_guard hg] at hr₁
    cases hr₁
    exact hne ((outcome_flush_iff (ho.loaded hreq)).mp (hout'.trans hout.symm))
  · intro hn
    refine ⟨fun {x} hx => ?_, h.log⟩
    obtain ⟨r, hr, hout⟩ := h.now hx
    refine ⟨(flushStmt call body).row r, ?_, ?_⟩
    · show (w.calls.update _).lookup _ = _
      rw [Table.lookup_update, hr]; rfl
    · rcases (flushStmt call body).row_cases r with e | ⟨hg, e⟩
      · rw [e]; exact hout
      · rw [e]
        have hid : x.callId = call.callId := by
          simp only [flushStmt, beq_iff_eq] at hg
          rw [← Table.lookup_key hr, hg]
        by_contra hne
        refine hn ⟨req, call, body, r, x, rfl, hreq, hid ▸ hr, hx, hid, fun e' => hne ?_⟩
        rw [(outcome_flush_iff (ho.loaded hreq)).mpr e', hout]

theorem agreed_step {w : World} {a : Action} (ho : Opened w) (h : Agreed w) :
    Agreed (step w a) ↔ ¬ Overwrites w a := by
  have hquiet : (∀ req, a = .commit req → ∀ call body, w.requests req ≠ some (.loaded call body)) →
      ¬ Overwrites w a := by
    rintro ha ⟨req, call, body, -, -, e, hreq, -⟩
    exact ha req e call body hreq
  have hs := fStep w a
  generalize step w a = w' at hs
  cases hs with
  | skip ha => exact iff_of_true h (hquiet ha)
  | @create body calls ha hi =>
    refine iff_of_true ⟨fun {x} hx => ?_, h.log⟩ (hquiet fun req e => by rw [ha] at e; cases e)
    obtain ⟨r, hr, hout⟩ := h.now hx
    have hne : (newCall body).callId ≠ x.callId := fun e => by
      have := (Table.insert_eq_some hi).1
      rw [e, hr] at this; cases this
    exact ⟨r, by show calls.lookup _ = _; rw [Table.lookup_insert hi, if_neg hne, hr], hout⟩
  | get ha hl => exact iff_of_true (h.reply hl rfl rfl) (hquiet fun req e => absurd e (ha req))
  | reject ha => exact iff_of_true ⟨h.now, h.log⟩ (hquiet fun req e => absurd e (ha req))
  | reply ha hl hr =>
    obtain ⟨hid, hout⟩ := reply_outcome (ho.rows (Table.lookup_mem hl)) hr
    exact iff_of_true (h.reply hl hid hout) (hquiet fun req e => absurd e (ha req))
  | load ha => exact iff_of_true ⟨h.now, h.log⟩ (hquiet fun req e => absurd e (ha req))
  | commit ha hreq => rw [ha]; exact h.commit ho hreq

/-- A finalized call is immutable, exactly if no request commits over it: in
every state of a run, every answer of `get_call` and `finalize_call` after one
of `finalize_call` has the same outcome of the call, as `get_call` would have
now, exactly if no step of the run is a request that commits over the outcome
of a call that `finalize_call` was already answered with. What `create_call`
fixes never changes. -/
theorem finalized_call_immutable_iff (as : List Action) :
    (Always step Agreed .init as ↔ AllSteps step (fun w a => ¬ Overwrites w a) .init as) ∧
      ∀ p, p <+: as → ∀ c r, (run step .init p).calls.lookup c = some r →
        ∃ r', (run step .init as).calls.lookup c = some r' ∧ SameCall r r' := by
  refine ⟨?_, fun p hp c r h => ?_⟩
  · refine always_iff_allSteps (I := Opened) opened_init ⟨fun h => (by cases h), List.Pairwise.nil⟩
      (fun w a ho h hC => ⟨opened_step w a ho, (agreed_step ho h).mpr hC⟩)
      (fun w a ho h h' => (agreed_step ho h).mp h') as
  · obtain ⟨q, rfl⟩ := hp
    rw [run_append]
    exact same_run h q

def newBody : CallCreateRequest := { callId := "call", tenantId := "tenant", agentId := "agent", startedAt := 0 }

def noAnswer : FinalizeRequest := { endedAt := 1, endReason := "no_answer" }

def callerHangup : FinalizeRequest := { endedAt := 2, endReason := "caller_hangup" }

/-- Two requests load an open call; one is answered before the other commits. -/
def overlappingRun : List Action :=
  [.create newBody, .load 0 "call" noAnswer, .load 1 "call" callerHangup, .commit 0, .refresh 0, .commit 1]

/-- The call is then no longer as the first request was answered. -/
theorem finalized_call_overwritten :
    ¬ Agreed (run step .init overlappingRun) ∧
      ((run step .init (overlappingRun.take 5)).calls.lookup "call").map outcome =
        some ⟨.noAnswer, .attempted, some 1, some "no_answer"⟩ ∧
      ((run step .init overlappingRun).calls.lookup "call").map outcome =
        some ⟨.completed, .attempted, some 2, some "caller_hangup"⟩ := by
  have hlog : (run step .init overlappingRun).log =
      [.finalized ⟨"call", .noAnswer, .attempted, false, 1, "no_answer"⟩] := rfl
  have hnow : ((run step .init overlappingRun).calls.lookup "call").map outcome =
      some ⟨.completed, .attempted, some 2, some "caller_hangup"⟩ := by decide
  refine ⟨fun h => ?_, by decide, hnow⟩
  obtain ⟨r, hr, hout⟩ := h.now (by rw [hlog]; exact List.mem_singleton_self _)
  rw [hr, Option.map_some, hout] at hnow
  cases hnow

/-! ## The outcome columns agree -/

/-- A call that has ended has the status and connection status of its end
reason, and one that has not is as it was created. -/
def ColumnsAgree (w : World) : Prop :=
  ∀ r ∈ w.calls.rows,
    (r.endedAt ≠ none → ∃ reason, r.endReason = some reason ∧ (r.status, r.connectionStatus) = endStatus reason) ∧
    (r.endedAt = none → r.status = .active ∧ r.connectionStatus = .connected ∧ r.endReason = none)

/-- A request whose end reason is one of a call that was connected commits over
the end of a call that was not: the call has ended since the request loaded
it. -/
def Mixes (w : World) (a : Action) : Prop :=
  ∃ req call body r, a = .commit req ∧ w.requests req = some (.loaded call body) ∧
    w.calls.lookup call.callId = some r ∧ (endStatus body.endReason).2 = .connected ∧
    r.connectionStatus ≠ .connected

/-- What an open call lacks, the columns of a row agree without. -/
theorem Open.agree {r : Call} (h : Open r) :
    (r.endedAt ≠ none → ∃ reason, r.endReason = some reason ∧ (r.status, r.connectionStatus) = endStatus reason) ∧
    (r.endedAt = none → r.status = .active ∧ r.connectionStatus = .connected ∧ r.endReason = none) :=
  ⟨fun hn => absurd h.endedAt hn, fun _ => ⟨h.status, h.connectionStatus, h.endReason⟩⟩

/-- The connection status that the flush leaves is that of the end reason,
unless that is the one that was loaded and the row has another. -/
theorem written_connected {assigned current : ConnectionStatus} :
    written .connected assigned current = assigned ↔ ¬ (assigned = .connected ∧ current ≠ .connected) := by
  unfold written
  split
  · rename_i e; rw [e]; simp
  · rename_i e; simp [e]

theorem columnsAgree_commit {w : World} (ho : Opened w) (h : ColumnsAgree w) {req : Nat} {call : Call}
    {body : FinalizeRequest} (hreq : w.requests req = some (.loaded call body)) :
    ColumnsAgree { w.setRequest req (.committed call.callId) with calls := w.calls.update (flushStmt call body) } ↔
      ¬ Mixes w (.commit req) := by
  have hset : ∀ r, (flushStmt call body).set r = _ := fun r => flush_set (ho.loaded hreq)
  constructor
  · rintro h' ⟨req', call', body', r, e, hreq', hr, hb, hne⟩
    cases e
    rw [hreq] at hreq'
    cases hreq'
    have hg : (flushStmt call body).guard r = true := by simp [flushStmt, Table.lookup_key hr]
    have hmem : (flushStmt call body).set r ∈ (w.calls.update (flushStmt call body)).rows := by
      rw [← Update.row_of_guard hg]; exact List.mem_map_of_mem (Table.lookup_mem hr)
    have hrow := (h' _ hmem).1
    rw [hset] at hrow
    obtain ⟨reason, e, hcols⟩ := hrow (Option.some_ne_none _)
    cases e
    exact written_connected.mp (Prod.mk.inj hcols).2 ⟨hb, hne⟩
  · intro hn r' hr'
    obtain ⟨r, hr, rfl⟩ := List.mem_map.mp hr'
    rcases (flushStmt call body).row_cases r with e | ⟨hg, e⟩
    · rw [e]; exact h r hr
    · rw [e, hset]
      refine ⟨fun _ => ⟨body.endReason, rfl, ?_⟩, fun e => by cases e⟩
      refine Prod.ext rfl (written_connected.mpr ?_)
      rintro ⟨hb, hne⟩
      have hid : r.callId = call.callId := by simpa [flushStmt] using hg
      exact hn ⟨req, call, body, r, rfl, hreq, hid ▸ Table.lookup_of_mem hr, hb, hne⟩

theorem columnsAgree_step {w : World} {a : Action} (ho : Opened w) (h : ColumnsAgree w) :
    ColumnsAgree (step w a) ↔ ¬ Mixes w a := by
  have hquiet : (∀ req, a = .commit req → ∀ call body, w.requests req ≠ some (.loaded call body)) →
      ¬ Mixes w a := by
    rintro ha ⟨req, call, body, -, e, hreq, -⟩
    exact ha req e call body hreq
  have hs := fStep w a
  generalize step w a = w' at hs
  cases hs with
  | skip ha => exact iff_of_true h (hquiet ha)
  | @create body calls ha hi =>
    refine iff_of_true (fun r hr => ?_) (hquiet fun req e => by rw [ha] at e; cases e)
    rcases (Table.mem_insert hi).mp hr with hr | rfl
    · exact h r hr
    · exact Open.agree ⟨rfl, rfl, rfl, rfl⟩
  | get ha => exact iff_of_true h (hquiet fun req e => absurd e (ha req))
  | reject ha => exact iff_of_true h (hquiet fun req e => absurd e (ha req))
  | reply ha => exact iff_of_true h (hquiet fun req e => absurd e (ha req))
  | load ha => exact iff_of_true h (hquiet fun req e => absurd e (ha req))
  | commit ha hreq => rw [ha]; exact columnsAgree_commit ho h hreq

/-- The outcome columns agree in every state of a run exactly if no step of it
is a request that commits, with an end reason of a call that was connected,
over the end of a call that was not. -/
theorem outcome_columns_agree_iff (as : List Action) :
    Always step ColumnsAgree .init as ↔ AllSteps step (fun w a => ¬ Mixes w a) .init as :=
  always_iff_allSteps (I := Opened) opened_init (fun _ h => by cases h)
    (fun w a ho h hC => ⟨opened_step w a ho, (columnsAgree_step ho h).mpr hC⟩)
    (fun _ _ ho h h' => (columnsAgree_step ho h).mp h') as

/-- The call was `attempted`, by the request that ended it first, and is
`completed` for `caller_hangup`. -/
theorem outcome_columns_mixed : ¬ ColumnsAgree (run step .init overlappingRun) := by
  intro h
  have hrow : (run step .init overlappingRun).calls.lookup "call" =
      some
        { newCall newBody with
          status := .completed
          connectionStatus := .attempted
          endedAt := some 2
          endReason := some "caller_hangup" } := by decide
  obtain ⟨reason, e, hcols⟩ := (h _ (Table.lookup_mem hrow)).1 (by decide)
  cases e
  exact absurd hcols (by decide)

end CallingAgent.Proof.Calls
