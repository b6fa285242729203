import CallingAgent.Proof.Gateway.Provenance

/-!
# The provenance of calls

A request to finalize a call that has loaded the row ends the call with its commit,
even when another request has ended it since: the row then is as the last of them
says, but for a connection status. If nothing comes between the two, the request is
served as it is alone (`load_commit`). What a step keeps of the sources of calls
(`Attributed`) such a commit keeps too (`attributed_commit`), and the calls of every
run have their sources (`calls_sourced`).
-/

namespace CallingAgent.Proof.Gateway

open CallingAgent.Framework CallingAgent.Impl CallingAgent.Impl.Calls CallingAgent.Impl.Exotel

variable {env : Env} {s : Overlap} {w : World} {h : Nat} {x : Handler} {o : OverlapAction}

/-! ## Steps -/

/-- The world after the commit of a request that has loaded `call`. -/
def committed (w : World) (h : Nat) (x : Handler) (call : Call) (f : FinalizeRequest) : World :=
  World.setHandler { w with calls := w.calls.update (Finalize.flushStmt call f) } h
    { x with request := none, answer := some .finalized }

/-- What a step can do. -/
inductive OStep (env : Env) (s : Overlap) : OverlapAction → Overlap → Prop
  | skip {o : OverlapAction} : OStep env s o s
  | alone {a : Action} (ha : ∀ h session, a = .serve h session → s.loaded h = none) :
      OStep env s (.alone a) { s with world := step env s.world a }
  | load {h : Nat} {x : Handler} {c : CallId} {f : FinalizeRequest} {call : Call}
      (hx : s.world.handlers h = some x) (hr : x.request = some (.finalize c f))
      (hl : s.world.calls.lookup c = some call) (ho : call.endedAt = none) :
      OStep env s (.load h) { s with loaded := Function.update s.loaded h (some call) }
  | commit {h : Nat} {x : Handler} {c : CallId} {f : FinalizeRequest} {call : Call}
      (hl : s.loaded h = some call) (hx : s.world.handlers h = some x) (hr : x.request = some (.finalize c f)) :
      OStep env s (.commit h) ⟨committed s.world h x call f, Function.update s.loaded h none⟩

theorem oStep (env : Env) (s : Overlap) (o : OverlapAction) : OStep env s o (overlapStep env s o) := by
  cases o with
  | alone a =>
    cases a with
    | serve h session =>
      cases hl : s.loaded h with
      | some call => simp only [overlapStep, hl]; exact .skip
      | none =>
        simp only [overlapStep, hl]
        refine .alone fun h' _ e => ?_
        cases e
        exact hl
    | _ => exact .alone nofun
  | load h =>
    simp only [overlapStep]
    split
    · rename_i c f _ hreq
      obtain ⟨x, hx, hr⟩ := Option.bind_eq_some_iff.mp hreq
      split
      · rename_i call hl
        split
        · exact .skip
        · rename_i ho
          exact .load hx hr hl (Option.not_isSome_iff_eq_none.mp ho)
      · exact .skip
    · exact .skip
  | commit h =>
    simp only [overlapStep]
    split
    · rename_i call x hl hx
      split
      · rename_i c f hr
        exact .commit hl hx hr
      · exact .skip
    · exact .skip

/-- A request whose row is loaded and committed with nothing in between is served as it
is alone. -/
theorem load_commit {call : Call} {f : FinalizeRequest} (hloaded : s.loaded h = none)
    (hx : s.world.handlers h = some x) (hr : x.request = some (.finalize call.callId f))
    (hcall : call ∈ s.world.calls.rows) (ho : Proof.Calls.Open call) (session : Tenant.Setting) :
    overlapStep env (overlapStep env s (.load h)) (.commit h) = overlapStep env s (.alone (.serve h session)) := by
  have hlookup : s.world.calls.lookup call.callId = some call := Table.lookup_of_mem hcall
  have hrows : ∀ r ∈ s.world.calls.rows,
      (Finalize.flushStmt call f).row r = (finalizeStmt call.callId f).row r := by
    intro r hrow
    by_cases hid : r.callId = call.callId
    · obtain rfl := Table.eq_of_key_eq hrow hcall hid
      rw [Update.row_of_guard (by simp [Finalize.flushStmt]), Update.row_of_guard (by simp [finalizeStmt])]
      exact Proof.Calls.flush_self ho
    · rw [Update.row_of_not_guard (by simp [Finalize.flushStmt, hid]),
        Update.row_of_not_guard (by simp [finalizeStmt, hid])]
  have htable : s.world.calls.update (Finalize.flushStmt call f) =
      s.world.calls.update (finalizeStmt call.callId f) := by
    simp only [Table.update, List.map_congr_left hrows]
  have hended : call.endedAt.isSome = false := by rw [ho.endedAt]; rfl
  have hload : overlapStep env s (.load h) = { s with loaded := Function.update s.loaded h (some call) } := by
    simp only [overlapStep, hloaded, hx, hr, Option.bind_some, hlookup, hended, Bool.false_eq_true, if_false]
  rw [hload]
  simp only [overlapStep, Function.update_self, Function.update_idem, hloaded, hx, hr, step, serveRequest, finalizeCall,
    hlookup, hended, Bool.false_eq_true, if_false, succeeded, htable]
  rw [← hloaded, Function.update_eq_self]

/-- A request stays until it is served. -/
theorem request_kept (ho : Once env w) (hx : w.handlers h = some x) {request : ApiRequest}
    (hr : x.request = some request) {a : Action} (ha : ∀ session, a ≠ .serve h session) :
    ∃ y, (step env w a).handlers h = some y ∧ y.request = some request := by
  have hans : x.answer = none := (ho.asks hx).unanswered (by rw [hr]; exact Option.some_ne_none _)
  have hg := gStep env w a
  generalize step env w a = w' at hg
  -- A handler that goes on has an answer, and so no request.
  have hset : ∀ {h' x' y'}, w.handlers h' = some x' → (h = h' → x = x' → y'.request = some request) →
      ∃ y, Function.update w.handlers h' (some y') h = some y ∧ y.request = some request := by
    intro h' x' y' hx' hy
    by_cases hh : h = h'
    · subst hh
      exact ⟨y', Function.update_self .., hy rfl (Option.some.inj (hx.symm.trans hx'))⟩
    · exact ⟨x, by rw [Function.update_of_ne hh]; exact hx, hr⟩
  have hanswered : ∀ {x' : Handler} {answer}, x'.answer = some answer → x ≠ x' := by
    rintro _ _ hx' rfl
    rw [hans] at hx'
    cases hx'
  cases hg with
  | skip => exact ⟨x, hx, hr⟩
  | tick => exact ⟨x, hx, hr⟩
  | @deliver h' _ _ hn =>
    have hne : h ≠ h' := fun e => by rw [e, hn] at hx; cases hx
    exact ⟨x, (Function.update_of_ne hne _ _).trans hx, hr⟩
  | @serve h' session _ _ _ _ hx' _ hs =>
    rw [World.setHandler, hs.frame.1]
    refine hset hx' fun hh => ?_
    exact absurd (by rw [hh]) (ha session)
  | reply _ hx' => exact hset hx' fun _ e => e ▸ hr
  | resolve hx' _ ha' => exact hset hx' fun _ e => absurd e (hanswered ha')
  | create hx' _ ha' => exact hset hx' fun _ e => absurd e (hanswered ha')
  | finalize hx' _ ha' => exact hset hx' fun _ e => absurd e (hanswered ha')
  | started hx' _ ha' => exact hset hx' fun _ e => absurd e (hanswered ha')
  | cleaned hx' _ ha' => exact hset hx' fun _ e => absurd e (hanswered ha')
  | @restart inst =>
    refine ⟨x.restart inst, by simp only [step, hx, Option.map_some], ?_⟩
    rcases restart_cases inst x with e | e <;> rw [e] <;> exact hr

/-! ## The commit -/

/-- A row that is as it was created is open. -/
theorem open_of_untouched {call : Call} (h : call = newCall (requestOf call)) : Proof.Calls.Open call := by
  rw [h]
  exact ⟨rfl, rfl, rfl, rfl⟩

section

variable {call : Call} {f : FinalizeRequest} (hx : w.handlers h = some x)
include hx

theorem change_commit (hr : x.request = some (.finalize call.callId f)) (hc : call = newCall (requestOf call)) :
    Change env w (committed w h x call f) where
  kept {h' x'} hx' := by
    by_cases hh : h' = h
    · subst hh
      obtain rfl := Option.some.inj (hx.symm.trans hx')
      exact ⟨_, setHandler_handlers _ _ _, rfl⟩
    · exact ⟨x', (Function.update_of_ne hh _ _).trans hx', rfl⟩
  sent _ he := he
  asking hy hr' := by
    rcases update_cases hy with ⟨rfl, rfl⟩ | ⟨-, hy⟩
    · cases hr'
    · exact .kept hy hr'
  calls :=
    .ended hx hr (setHandler_handlers _ _ _) rfl (fun r => by simp [Finalize.flushStmt])
      (endedBy_flushStmt (open_of_untouched hc) f) rfl

theorem sources_commit (hw : Sources env w) (hch : Change env w (committed w h x call f)) :
    Sources env (committed w h x call f) := by
  have hl : Later w (committed w h x call f) := later_of_change (Int.le_refl _) hch.sent hch.calls
  refine ⟨fun {h' y} hy => ?_, fun hs => hl.found (hw.entries hs), begun_change hw (Int.le_refl _) hch.calls⟩
  rcases update_cases hy with ⟨rfl, rfl⟩ | ⟨-, hy⟩
  · refine ((hw.handlers hx).later hl).of_about rfl (fun ha => ?_) (fun _ e => by cases e) fun _ e => by cases e
    rcases ha with e | e
    · cases e
    · exact .inr e
  · exact (hw.handlers hy).later hl

/-- The commit of a request keeps what a step keeps. -/
theorem attributed_commit (hr : x.request = some (.finalize call.callId f)) (hc : call = newCall (requestOf call))
    (hw : Attributed env w) : Attributed env (committed w h x call f) := by
  have hch : Change env w (committed w h x call f) := change_commit hx hr hc
  refine hw.change hch (sources_commit hx hw.sources hch) ?_ ?_
  · refine hw.once.set (h := h) rfl (asks_of_none rfl) (fun key hk => ⟨x, hx, hk.1, ?_⟩) id rfl
    rcases hk.2 with ⟨-, e⟩ | hn
    · cases e
    · exact .inr hn
  · exact hw.backed.finalized hx hr rfl rfl rfl rfl rfl

end

/-! ## Whole runs -/

/-- What has been loaded is a call as it was created, and the request that names it
has not been answered. -/
def Loads (s : Overlap) : Prop :=
  ∀ h call, s.loaded h = some call → call = newCall (requestOf call) ∧
    ∃ x f, s.world.handlers h = some x ∧ x.request = some (.finalize call.callId f)

theorem sourced_step (hw : Attributed env s.world) (hl : Loads s) (o : OverlapAction) :
    Attributed env (overlapStep env s o).world ∧ Loads (overlapStep env s o) := by
  have hs := oStep env s o
  generalize overlapStep env s o = s' at hs
  cases hs with
  | skip => exact ⟨hw, hl⟩
  | alone ha =>
    refine ⟨attributed_step hw _, fun h call hloaded => ?_⟩
    obtain ⟨hc, x, f, hx, hr⟩ := hl h call hloaded
    obtain ⟨y, hy, hr'⟩ := request_kept hw.once hx hr fun session e => by
      rw [ha h session e] at hloaded
      cases hloaded
    exact ⟨hc, y, f, hy, hr'⟩
  | @load h x c f call hx hr hlookup ho =>
    refine ⟨hw, fun h' call' hloaded => ?_⟩
    rcases update_cases hloaded with ⟨rfl, rfl⟩ | ⟨-, hloaded⟩
    · refine ⟨hw.untouched _ (Table.lookup_mem hlookup) ho, x, f, hx, ?_⟩
      rw [hr, Table.lookup_key hlookup]
    · exact hl h' call' hloaded
  | @commit h x c f call hloaded hx hr =>
    obtain ⟨hc, x', f', hx', hr'⟩ := hl h call hloaded
    obtain rfl := Option.some.inj (hx.symm.trans hx')
    obtain ⟨rfl, rfl⟩ := ApiRequest.finalize.inj (Option.some.inj (hr.symm.trans hr'))
    refine ⟨attributed_commit hx hr hc hw, fun h' call' hloaded' => ?_⟩
    have hne : h' ≠ h := by
      rintro rfl
      exact nomatch (Function.update_self h' none s.loaded).symm.trans hloaded'
    obtain ⟨hc', x', f', hx', hr'⟩ := hl h' call' ((Function.update_of_ne hne _ _).symm.trans hloaded')
    exact ⟨hc', x', f', (Function.update_of_ne hne _ _).trans hx', hr'⟩

theorem sourced_run (env : Env) (now : Time) (os : List OverlapAction) :
    Attributed env (run (overlapStep env) (.init now) os).world :=
  (run_inv (I := fun s => Attributed env s.world ∧ Loads s) ⟨attributed_init env now, fun _ _ h => by cases h⟩
    (fun _ o h => sourced_step h.1 h.2 o) os).1

/-- A handler of a run is that of a callback that has been delivered. -/
theorem handler_delivered (env : Env) (now : Time) {os : List OverlapAction}
    (hx : (run (overlapStep env) (.init now) os).world.handlers h = some x) :
    .alone (.deliver h x.inst x.payload) ∈ os := by
  induction os using List.reverseRecOn generalizing x with
  | nil => cases hx
  | append_singleton os o ih =>
    rw [run_concat] at hx
    generalize run (overlapStep env) (.init now) os = s at hx ih
    have hs := oStep env s o
    generalize overlapStep env s o = s' at hs hx
    have hbefore : ∀ {z}, s.world.handlers h = some z → x.inst = z.inst → x.payload = z.payload →
        .alone (.deliver h x.inst x.payload) ∈ os ++ [o] := fun hz hi hp => by
      rw [hi, hp]
      exact List.mem_append_left _ (ih hz)
    cases hs with
    | skip => exact hbefore hx rfl rfl
    | @alone a =>
      cases hold : s.world.handlers h with
      | none =>
        rw [handler_new hold hx]
        exact List.mem_append_right _ (List.mem_singleton_self _)
      | some z =>
        obtain ⟨y, hy, hinst, hpay, -⟩ := handler_kept env hold a
        obtain rfl := Option.some.inj (hx.symm.trans hy)
        exact hbefore hold hinst hpay
    | load => exact hbefore hx rfl rfl
    | commit _ hz _ =>
      rcases update_cases hx with ⟨rfl, rfl⟩ | ⟨-, hx⟩
      · exact hbefore hz rfl rfl
      · exact hbefore hx rfl rfl

/-- A callback that was delivered, and whose event has been recorded. -/
structure Arrived (env : Env) (os : List OverlapAction) (w : World) (payload : ExotelCallback) : Prop where
  delivered : ∃ h inst, .alone (.deliver h inst payload) ∈ os
  recorded : Recorded w (eventKey env payload)

theorem Owned.arrived {sel : Call → Prop} {own : ApiRequest → Prop} {P : ExotelCallback → Call → Prop}
    {owner : CallId → Nat} {now : Time} {os : List OverlapAction}
    (hw : Owned env sel own P (run (overlapStep env) (.init now) os).world owner) {r : Call}
    (hr : r ∈ (run (overlapStep env) (.init now) os).world.calls.rows) (hs : sel r) :
    ∃ payload, writtenFor (run (overlapStep env) (.init now) os).world owner r.callId = some payload ∧
      Arrived env os (run (overlapStep env) (.init now) os).world payload ∧ P payload r := by
  obtain ⟨x, hx, hsent, hP⟩ := hw.written r hr hs
  refine ⟨x.payload, by rw [writtenFor, hx, Option.map_some], ⟨⟨_, _, handler_delivered env now hx⟩, ?_⟩, hP⟩
  exact (sourced_run env now os).once.sent_recorded (List.mem_map_of_mem hsent)

/-- The provenance of calls. In every run of any number of gateway processes, with
failed requests and restarts anywhere, and requests to finalize calls that overlap,
every row of `calls` was opened for a delivered and recorded start event with its
`CallSid`, for the tenant and the agent to whom the number dialed is routed; it is as
it was created, or was ended for a delivered and recorded end event of the same
`CallSid`, with the reason and the status of that event and not before it began. No
two rows were opened, or ended, for one event. -/
theorem calls_sourced (env : Env) (now : Time) (os : List OverlapAction) :
    let w := (run (overlapStep env) (.init now) os).world
    ∃ opener closer : CallId → Option ExotelCallback,
      (∀ r ∈ w.calls.rows,
        (∃ payload, opener r.callId = some payload ∧ Arrived env os w payload ∧
          Opens env payload (requestOf r)) ∧
        (r.endedAt = none ∧ r = newCall (requestOf r) ∨
          ∃ payload, closer r.callId = some payload ∧ Arrived env os w payload ∧ Closes env payload r)) ∧
      ∀ r ∈ w.calls.rows, ∀ r' ∈ w.calls.rows, r ≠ r' →
        (opener r.callId).map (eventKey env) ≠ (opener r'.callId).map (eventKey env) ∧
        (r.endedAt ≠ none → r'.endedAt ≠ none →
          (closer r.callId).map (eventKey env) ≠ (closer r'.callId).map (eventKey env)) := by
  intro w
  have hw : Attributed env w := sourced_run env now os
  obtain ⟨opener, hop⟩ := hw.openers
  obtain ⟨closer, hcl⟩ := hw.closers
  refine ⟨writtenFor w opener, writtenFor w closer, fun r hr => ⟨hop.arrived hr trivial, ?_⟩,
    fun r hr r' hr' hne => ⟨fun e => hne ?_, fun he he' e => hne ?_⟩⟩
  · by_cases he : r.endedAt = none
    · exact .inl ⟨he, hw.untouched r hr he⟩
    · exact .inr (hcl.arrived hr he)
  · exact hop.eq_of_key hw.once hr hr' trivial trivial e
  · exact hcl.eq_of_key hw.once hr hr' he he' e

end CallingAgent.Proof.Gateway
