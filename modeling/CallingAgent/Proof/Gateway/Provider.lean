import CallingAgent.Proof.Gateway.Active

/-!
# Calls and their provider call

In a run in which every dependency works, a handler deals only with calls of
its own `CallSid`: the call it creates, the one it finds in the call store, and
their sessions (`Provider`). So what a handler does to one `CallSid` leaves the
calls, the entry and the sessions of every other alone (`Elsewhere`,
`elsewhere_step`).
-/

namespace CallingAgent.Proof.Gateway

open CallingAgent.Framework CallingAgent.Impl CallingAgent.Impl.Calls CallingAgent.Impl.Exotel

/-- `c` is the id of a call of `p`. -/
def RowOf (w : World) (p : String) (c : CallId) : Prop :=
  ∃ r ∈ w.calls.rows, r.callId = c ∧ r.providerCallId = some p

/-- A handler that resolves a number or creates a call serves a start event, one
that finalizes a call an end event, and the call is one of its `CallSid`. -/
structure HandlerProvider (env : Env) (w : World) (x : Handler) : Prop where
  resolving : ∀ {number}, x.phase = .resolving number → env.eventType x.payload ∈ startEvents
  creating : ∀ {call}, x.phase = .creating call → env.eventType x.payload ∈ startEvents
  finalizing : ∀ {c f}, x.phase = .finalizing c f →
    env.eventType x.payload ∈ endEvents ∧ RowOf w x.payload.providerCallId c

structure Provider (env : Env) (w : World) : Prop where
  entries : ∀ {place p c}, w.store place p = some c → RowOf w p c
  sessions : ∀ {place c}, w.sessions place c ≠ none → ∃ p, RowOf w p c
  handlers : ∀ {h x}, w.handlers h = some x → HandlerProvider env w x

variable {env : Env} {w w' : World} {h : Nat} {x y : Handler} {p : String}

/-- A call is a call of one `CallSid`. -/
theorem RowOf.unique {p' : String} {c : CallId} (h : RowOf w p c) (h' : RowOf w p' c) : p = p' := by
  obtain ⟨r, hr, rfl, hp⟩ := h
  obtain ⟨r', hr', e, hp'⟩ := h'
  obtain rfl := Table.eq_of_key_eq hr' hr e
  exact Option.some.inj (hp.symm.trans hp')

theorem ActiveFor.rowOf {r : Call} (h : ActiveFor w p r) : RowOf w p r.callId := ⟨r, h.1, rfl, h.2.1⟩

theorem rowOf_congr (hc : w'.calls = w.calls) {c : CallId} : RowOf w' p c ↔ RowOf w p c := by
  unfold RowOf
  rw [hc]

theorem rowOf_created {call : CallCreateRequest} {calls : CallTable}
    (hi : w.calls.insert (newCall call) = some calls) (hc : w'.calls = calls) {c : CallId} :
    RowOf w' p c ↔ RowOf w p c ∨ call.callId = c ∧ call.providerCallId = some p := by
  unfold RowOf
  rw [hc]
  simp only [Table.mem_insert hi, or_and_right, exists_or, exists_eq_left]
  exact Iff.rfl

theorem rowOf_finalized {k : CallId} {f : FinalizeRequest}
    (hc : w'.calls = w.calls.update (finalizeStmt k f)) {c : CallId} : RowOf w' p c ↔ RowOf w p c := by
  have hrow : ∀ r : Call, ((finalizeStmt k f).row r).callId = r.callId ∧
      ((finalizeStmt k f).row r).providerCallId = r.providerCallId := fun r => by
    rcases (finalizeStmt k f).row_cases r with e | ⟨-, e⟩ <;> rw [e] <;> exact ⟨rfl, rfl⟩
  unfold RowOf
  rw [hc]
  constructor
  · rintro ⟨r, hr, hk⟩
    obtain ⟨r₀, hr₀, rfl⟩ := List.mem_map.mp hr
    rw [(hrow r₀).1, (hrow r₀).2] at hk
    exact ⟨r₀, hr₀, hk⟩
  · rintro ⟨r, hr, hk⟩
    refine ⟨_, List.mem_map.mpr ⟨r, hr, rfl⟩, ?_⟩
    rw [(hrow r).1, (hrow r).2]
    exact hk

/-! ## What the gateways deal with -/

theorem HandlerProvider.mono (hx : HandlerProvider env w x)
    (hc : ∀ {p c}, RowOf w p c → RowOf w' p c) : HandlerProvider env w' x :=
  ⟨hx.resolving, hx.creating, fun e => ⟨(hx.finalizing e).1, hc (hx.finalizing e).2⟩⟩

/-- A handler that is at nothing of the kind. -/
theorem handlerProvider_of_phase (hr : ∀ number, x.phase ≠ .resolving number)
    (hc : ∀ call, x.phase ≠ .creating call) (hf : ∀ c f, x.phase ≠ .finalizing c f) : HandlerProvider env w x :=
  ⟨fun e => absurd e (hr _), fun e => absurd e (hc _), fun e => absurd e (hf _ _)⟩

/-- A step of one handler. -/
theorem Provider.set (hw : Provider env w) (e : w'.handlers = Function.update w.handlers h (some y))
    (hc : ∀ {p c}, RowOf w p c → RowOf w' p c)
    (hs : ∀ {place p c}, w'.store place p = some c → w.store place p = some c ∨ RowOf w' p c)
    (ht : ∀ {place c}, w'.sessions place c ≠ none → w.sessions place c ≠ none ∨ ∃ p, RowOf w' p c)
    (hy : HandlerProvider env w' y) : Provider env w' := by
  refine ⟨fun h => ?_, fun h => ?_, fun {h' z} hz => ?_⟩
  · exact (hs h).elim (fun h => hc (hw.entries h)) id
  · exact (ht h).elim (fun h => (hw.sessions h).imp fun _ => hc) id
  · rw [e] at hz
    rcases update_cases hz with ⟨rfl, rfl⟩ | ⟨-, hz⟩
    · exact hy
    · exact (hw.handlers hz).mono hc

/-- The API serves a handler, which waits as before. -/
theorem Provider.served (hw : Provider env w) (hx : w.handlers h = some x) {answer : ApiAnswer}
    (e : w'.handlers = Function.update w.handlers h (some { x with request := none, answer := some answer }))
    (hc : ∀ {p c}, RowOf w p c → RowOf w' p c) (hs : w'.store = w.store) (ht : w'.sessions = w.sessions) :
    Provider env w' := by
  obtain ⟨h1, h2, h3⟩ := (hw.handlers hx).mono hc
  exact hw.set e hc (fun h => .inl (by rw [← hs]; exact h)) (fun h => .inl (by rw [← ht]; exact h)) ⟨h1, h2, h3⟩

theorem provider_step (hm : Mapping env w) (hw : Provider env w) {a : Action} (hwork : isWorking a = true) :
    Provider env (step env w a) := by
  have hs := gStep env w a
  generalize step env w a = w' at hs
  cases hs with
  | skip => exact hw
  | tick =>
    refine ⟨fun h => hw.entries (tick_store h), fun h => ?_, fun hx => (hw.handlers hx).mono id⟩
    obtain ⟨session, hs⟩ := Option.ne_none_iff_exists'.mp h
    exact hw.sessions (Option.ne_none_iff_exists'.mpr ⟨session, tick_sessions hs⟩)
  | deliver => exact hw.set rfl id .inl .inl (handlerProvider_of_phase nofun nofun nofun)
  | serve hx hr hs =>
    obtain ⟨hh, -, hst, hse⟩ := hs.frame
    refine hw.served hx (by rw [← hh]; rfl) (fun hc => ?_) hst hse
    cases hs with
    | created hi => exact (rowOf_created hi rfl).mpr (.inl hc)
    | finalized => exact (rowOf_finalized rfl).mpr hc
    | _ => exact hc
  | reply => exact hw.set rfl id .inl .inl (handlerProvider_of_phase nofun nofun nofun)
  | resolve _ _ _ hs => exact hw.set rfl id .inl .inl ⟨fun _ => hs, nofun, nofun⟩
  | create hx hp => exact hw.set rfl id .inl .inl ⟨nofun, fun _ => (hw.handlers hx).resolving hp, nofun⟩
  | finalize _ _ _ he hg =>
    refine hw.set rfl id .inl .inl ⟨nofun, nofun, fun e => ⟨he, ?_⟩⟩
    cases e
    exact hw.entries (storeGet_store hg)
  | @started h x call hx hp ha =>
    obtain ⟨r, hr, e⟩ := (hm.creates hx).born hp ha
    have hrow : RowOf w x.payload.providerCallId call.callId := e ▸ hr.rowOf
    refine hw.set rfl id (fun {place p c} h => ?_) (fun {place c} h => ?_)
      (handlerProvider_of_phase nofun nofun nofun)
    · rw [show (World.setHandler _ _ _).store = (w.storePut _ _ _).store from rfl, storePut_store] at h
      split at h
      · rename_i hslot
        obtain rfl := Option.some.inj h
        exact .inr (hslot.2 ▸ hrow)
      · exact .inl h
    · have hse : (w.sessionCreate env x.inst (newSession w call)).sessions place c ≠ none := h
      rw [sessionCreate_sessions] at hse
      split at hse
      · rename_i hslot
        rw [show c = call.callId from hslot.2]
        exact .inr ⟨_, hrow⟩
      · exact .inl hse
  | @cleaned _ x k =>
    refine hw.set rfl id (fun {place p c} h => ?_) (fun {place c} h => ?_)
      (handlerProvider_of_phase nofun nofun nofun)
    · rw [show (World.setHandler _ _ _).store = (w.storePut _ _ none).store from rfl, storePut_store] at h
      split at h
      · cases h
      · exact .inl h
    · have hse : (w.sessionClean env x.inst k).sessions place c ≠ none := h
      rw [sessionClean_sessions] at hse
      split at hse
      · exact absurd rfl hse
      · exact .inl hse
  | restart => cases hwork

theorem provider_init (env : Env) (now : Time) : Provider env (.init now) where
  entries h := by cases h
  sessions h := absurd rfl h
  handlers h := by cases h

/-! ## What a step leaves alone -/

/-- The clock, the calls of `p`, its entries and its sessions are the same in `w`
and `w'`. -/
structure Elsewhere (p : String) (w w' : World) : Prop where
  now : w'.now = w.now
  rows : ∀ {c}, RowOf w' p c ↔ RowOf w p c
  active : ∀ {r}, ActiveFor w' p r ↔ ActiveFor w p r
  entries : ∀ place, w'.store place p = w.store place p
  entriesUntil : w'.storeUntil p = w.storeUntil p
  sessions : ∀ {c}, RowOf w p c → ∀ place, w'.sessions place c = w.sessions place c
  sessionsUntil : ∀ {c}, RowOf w p c → w'.sessionsUntil c = w.sessionsUntil c

theorem elsewhere_of_eq (hc : w'.calls = w.calls) (hk : SameKeys w w') : Elsewhere p w w' where
  now := hk.now
  rows := rowOf_congr hc
  active := by unfold ActiveFor; rw [hc]
  entries place := by rw [hk.store]
  entriesUntil := by rw [hk.storeUntil]
  sessions _ place := by rw [hk.sessions]
  sessionsUntil _ := by rw [hk.sessionsUntil]

/-- A step of a handler of another `CallSid`, or of no start or end event. -/
theorem elsewhere_step (hm : Mapping env w) (hw : Provider env w) {a : Action} (hwork : isWorking a = true)
    (htick : ∀ d, a ≠ .tick d)
    (ha : ∀ {h x}, handlerOf a = some h → w.handlers h = some x →
      env.eventType x.payload ∈ startEvents ∨ env.eventType x.payload ∈ endEvents →
      x.payload.providerCallId ≠ p) : Elsewhere p w (step env w a) := by
  have hs := gStep env w a
  generalize step env w a = w' at hs
  cases hs with
  | @serve h session x _ _ _ hx hr hs =>
    have hphase := (hm.creates hx).awaits hr
    cases hs with
    | @created call calls hi =>
      have hne := ha rfl hx (.inl ((hw.handlers hx).creating hphase))
      have hnot : call.providerCallId ≠ some p := fun e =>
        hne (Option.some.inj (((hm.creates hx).own hphase).symm.trans e))
      exact ⟨rfl, (rowOf_created hi rfl).trans (or_iff_left fun h => hnot h.2),
        (activeFor_created hi rfl).trans (or_iff_left fun h => hnot h.2), fun _ => rfl, rfl, fun _ _ => rfl,
        fun _ => rfl⟩
    | @finalized k f r hl =>
      obtain ⟨he, hk⟩ := (hw.handlers hx).finalizing hphase
      refine ⟨rfl, rowOf_finalized rfl, (activeFor_finalized rfl).trans (and_iff_left_of_imp fun hr e => ?_),
        fun _ => rfl, rfl, fun _ _ => rfl, fun _ => rfl⟩
      exact ha rfl hx (.inr he) (hk.unique (e ▸ hr.rowOf))
    | _ => exact elsewhere_of_eq rfl ⟨rfl, rfl, rfl, rfl, rfl⟩
  | @started h x call hx hp hans =>
    have hne := ha rfl hx (.inl ((hw.handlers hx).creating hp))
    obtain ⟨r, hr, e⟩ := (hm.creates hx).born hp hans
    have hown : ∀ {c}, RowOf w p c → c ≠ call.callId := fun {c} hc e' =>
      hne (hr.rowOf.unique (by rw [e, ← e']; exact hc))
    refine ⟨rfl, rowOf_congr rfl, Iff.rfl, fun place => ?_, ?_, fun {c} hc place => ?_, fun {c} hc => ?_⟩
    · show (w.storePut _ _ _).store place p = _
      rw [storePut_store, if_neg fun h => hne h.2.symm]
    · show (w.storePut _ _ (some call.callId)).storeUntil p = _
      rw [storePut_storeUntil, if_neg fun h => hne h.2.symm]
    · show (w.sessionCreate env x.inst (newSession w call)).sessions place c = _
      rw [sessionCreate_sessions, if_neg fun h => hown hc h.2]
    · show (w.sessionCreate env x.inst (newSession w call)).sessionsUntil c = _
      rw [sessionCreate_sessionsUntil, if_neg fun h => hown hc h.2]
  | @cleaned h x k f hx hp =>
    obtain ⟨he, hk⟩ := (hw.handlers hx).finalizing hp
    have hne := ha rfl hx (.inr he)
    have hown : ∀ {c}, RowOf w p c → c ≠ k := fun hc e => hne (hk.unique (e ▸ hc))
    refine ⟨rfl, rowOf_congr rfl, Iff.rfl, fun place => ?_, ?_, fun {c} hc place => ?_, fun {c} hc => ?_⟩
    · show (w.storePut _ _ _).store place p = _
      rw [storePut_store, if_neg fun h => hne h.2.symm]
    · show (w.storePut _ _ none).storeUntil p = _
      rw [storePut_storeUntil, if_neg fun h => hne h.2.symm]
    · show (w.sessionClean env x.inst k).sessions place c = _
      rw [sessionClean_sessions, if_neg fun h => hown hc h.2]
    · exact sessionClean_sessionsUntil w env x.inst (hown hc)
  | @tick d => exact absurd rfl (htick d)
  | restart => cases hwork
  | _ => exact elsewhere_of_eq rfl ⟨rfl, rfl, rfl, rfl, rfl⟩

end CallingAgent.Proof.Gateway
