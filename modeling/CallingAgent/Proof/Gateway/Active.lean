import CallingAgent.Proof.Gateway.Delivery

/-!
# One active call per provider call

Events are told apart by their spelling, and four spellings open a call, so a
second start event of a provider call is not a duplicate: its handler creates a
second call, whatever the first is doing. In a run in which every dependency
works, that is the only thing that goes wrong (`one_active_call_iff`): as long
as no `calls.create` reaches the API while a call with the same `CallSid` is
active, a `CallSid` has at most one active call, and an entry of the call store
is the id of that call, or of one whose finalization is just returning to the
handler that will delete the entry.

The invariant behind it (`Mapping`) is that every call id the gateways know has
one owner: the handler that is creating it, or the entry of the store that it
becomes (`Owner`).
-/

namespace CallingAgent.Proof.Gateway

open CallingAgent.Framework CallingAgent.Impl CallingAgent.Impl.Calls CallingAgent.Impl.Exotel

/-! ## Runs in which the dependencies work -/

abbrev WorkingAction := { a : Action // isWorking a = true }

def workingStep (env : Env) (w : World) (a : WorkingAction) : World := step env w a.1

/-! ## The property -/

/-- A call of `p` that has been created and not been finalized. -/
def ActiveFor (w : World) (p : String) (r : Call) : Prop :=
  r ∈ w.calls.rows ∧ r.providerCallId = some p ∧ r.status = .active

def OneActive (w : World) : Prop :=
  ∀ p r r', ActiveFor w p r → ActiveFor w p r' → r = r'

/-- A handler waits for the finalization of the call that it found at this
place. -/
def Finalizing (env : Env) (w : World) (place : Place) (p : String) (c : CallId) : Prop :=
  ∃ h x f, w.handlers h = some x ∧ x.phase = .finalizing c f ∧ env.place x.inst = place ∧
    x.payload.providerCallId = p

/-- An entry of the call store is the id of the active call. -/
def Mapped (w : World) : Prop :=
  ∀ place p c, w.store place p = some c → ∃ r, ActiveFor w p r ∧ r.callId = c

/-- The same, unless that call is just being finalized. -/
def MappedOrEnding (env : Env) (w : World) : Prop :=
  ∀ place p c, w.store place p = some c → (∃ r, ActiveFor w p r ∧ r.callId = c) ∨ Finalizing env w place p c

/-- The API is about to create a call for a `CallSid` that has an active one. -/
def SecondCall (w : World) (a : Action) : Prop :=
  ∃ h session x call p r, a = .serve h session ∧ w.handlers h = some x ∧ x.request = some (.create call) ∧
    call.providerCallId = some p ∧ ActiveFor w p r

/-- The API is about to finalize a call that is still in the call store. -/
def EndsMapped (w : World) (a : Action) : Prop :=
  ∃ h session x c f place p, a = .serve h session ∧ w.handlers h = some x ∧ x.request = some (.finalize c f) ∧
    w.store place p = some c

/-! ## The invariant -/

/-- Who knows the id of a call: the handler that is creating it, or a place in
the call store, as its entry or by a handler that finalizes what it found
there. -/
inductive Owner (env : Env) (w : World) : CallId → Nat ⊕ (Place × String) → Prop
  | creating {h : Nat} {x : Handler} {call : CallCreateRequest} (hx : w.handlers h = some x)
      (hp : x.phase = .creating call) : Owner env w call.callId (.inl h)
  | entry {place : Place} {p : String} {c : CallId} (hs : w.store place p = some c) :
      Owner env w c (.inr (place, p))
  | finalizing {h : Nat} {x : Handler} {c : CallId} {f : FinalizeRequest} (hx : w.handlers h = some x)
      (hp : x.phase = .finalizing c f) :
      Owner env w c (.inr (env.place x.inst, x.payload.providerCallId))

/-- The request of a handler is the one it waits for, a call that it has created
is there and active, and one that it finalizes is there. -/
structure Creates (w : World) (x : Handler) : Prop where
  awaits : ∀ {request}, x.request = some request → x.phase = requestPhase request
  unanswered : x.request ≠ none → x.answer = none
  own : ∀ {call}, x.phase = .creating call → call.providerCallId = some x.payload.providerCallId
  unborn : ∀ {call}, x.phase = .creating call → x.answer = none → w.calls.lookup call.callId = none
  born : ∀ {call}, x.phase = .creating call → x.answer = some .created →
    ∃ r, ActiveFor w x.payload.providerCallId r ∧ r.callId = call.callId
  ended : ∀ {c f}, x.phase = .finalizing c f → w.calls.lookup c ≠ none ∧
    (x.answer = none ∨ x.answer = some .finalized)

structure Mapping (env : Env) (w : World) : Prop where
  issued : ∀ {c o}, Owner env w c o → Issued env w c
  unique : ∀ {c o o'}, Owner env w c o → Owner env w c o' → o = o'
  creates : ∀ {h x}, w.handlers h = some x → Creates w x

variable {env : Env} {w w' : World} {h : Nat} {x y : Handler}

/-- Whoever owns an id after a step that changes one handler owned it before, if
that handler and the store name no id that was not named there before. -/
theorem owner_update (e : w'.handlers = Function.update w.handlers h (some y))
    (hs : ∀ {place p c}, w'.store place p = some c → Owner env w c (.inr (place, p)))
    (hc : ∀ {call}, y.phase = .creating call → Owner env w call.callId (.inl h))
    (hf : ∀ {c f}, y.phase = .finalizing c f →
      Owner env w c (.inr (env.place y.inst, y.payload.providerCallId)))
    {c : CallId} {o : Nat ⊕ (Place × String)} (ho : Owner env w' c o) : Owner env w c o := by
  cases ho with
  | creating hx hp =>
    rw [e] at hx
    rcases update_cases hx with ⟨rfl, rfl⟩ | ⟨-, hx⟩
    · exact hc hp
    · exact .creating hx hp
  | entry hs' => exact hs hs'
  | finalizing hx hp =>
    rw [e] at hx
    rcases update_cases hx with ⟨rfl, rfl⟩ | ⟨-, hx⟩
    · exact hf hp
    · exact .finalizing hx hp

theorem Creates.of_calls (hx : Creates w x) (hc : w'.calls = w.calls) : Creates w' x := by
  refine ⟨hx.awaits, hx.unanswered, hx.own, fun hp ha => ?_, fun hp ha => ?_, fun hp => ?_⟩
  · rw [hc]; exact hx.unborn hp ha
  · obtain ⟨r, ⟨hr, hr'⟩, e⟩ := hx.born hp ha
    exact ⟨r, ⟨by rw [hc]; exact hr, hr'⟩, e⟩
  · rw [hc]; exact hx.ended hp

/-- A handler that creates no call. -/
theorem creates_of_phase (hp : ∀ call, x.phase ≠ .creating call)
    (hr : ∀ {request}, x.request = some request → x.phase = requestPhase request)
    (he : ∀ {c f}, x.phase = .finalizing c f → w.calls.lookup c ≠ none ∧ x.answer = none)
    (ha : x.request ≠ none → x.answer = none) : Creates w x :=
  ⟨hr, ha, fun e => absurd e (hp _), fun e => absurd e (hp _), fun e => absurd e (hp _),
    fun e => ⟨(he e).1, .inl (he e).2⟩⟩

/-- A handler that has returned. -/
theorem creates_of_returned (hr : x.request = none) (hp : isWaiting x.phase = false) : Creates w x := by
  have hc : ∀ call, x.phase ≠ .creating call := fun call e => by rw [e] at hp; cases hp
  have hf : ∀ c f, x.phase ≠ .finalizing c f := fun c f e => by rw [e] at hp; cases hp
  exact creates_of_phase hc (fun e => by rw [hr] at e; cases e) (fun e => absurd e (hf _ _))
    fun hn => absurd hr hn

/-- A handler whose request has been served. -/
theorem Creates.served (hx : Creates w x) {answer : ApiAnswer}
    (hborn : answer = .created → ∀ call, x.phase = .creating call →
      ∃ r, ActiveFor w' x.payload.providerCallId r ∧ r.callId = call.callId)
    (hended : ∀ c f, x.phase = .finalizing c f → w'.calls.lookup c ≠ none ∧ answer = .finalized) :
    Creates w' { x with request := none, answer := some answer } := by
  refine ⟨?_, fun hn => absurd rfl hn, hx.own, ?_, fun hp ha => hborn (Option.some.inj ha) _ hp,
    fun hp => ⟨(hended _ _ hp).1, .inr (congrArg some (hended _ _ hp).2)⟩⟩
  · exact fun e => by cases e
  · exact fun _ e => by cases e

/-- A step of one handler that keeps the calls and who owns what. -/
theorem Mapping.keep (hw : Mapping env w) (e : w'.handlers = Function.update w.handlers h (some y))
    (hc : w'.calls = w.calls) (hi : w.issued ≤ w'.issued)
    (ho : ∀ {c o}, Owner env w' c o → Owner env w c o) (hy : Creates w' y) : Mapping env w' := by
  refine ⟨fun h => (hw.issued (ho h)).mono hi, fun h h' => hw.unique (ho h) (ho h'), fun {h' z} hz => ?_⟩
  rw [e] at hz
  rcases update_cases hz with ⟨rfl, rfl⟩ | ⟨-, hz⟩
  · exact hy
  · exact (hw.creates hz).of_calls hc

/-- The handler with a request served, which waits as before. -/
theorem Mapping.owner_served (hx : w.handlers h = some x) {answer : Option ApiAnswer}
    (e : w'.handlers = Function.update w.handlers h (some { x with request := none, answer := answer }))
    (hs : w'.store = w.store) {c : CallId} {o : Nat ⊕ (Place × String)} (ho : Owner env w' c o) :
    Owner env w c o :=
  owner_update e (fun h => .entry (by rw [← hs]; exact h)) (fun hp => .creating hx hp)
    (fun hp => .finalizing (x := x) hx hp) ho

/-- The API answers, and keeps the calls. -/
theorem Mapping.answered (hw : Mapping env w) (hx : w.handlers h = some x) {request : ApiRequest}
    {answer : ApiAnswer} (hr : x.request = some request)
    (e : w'.handlers = Function.update w.handlers h (some { x with request := none, answer := some answer }))
    (hs : w'.store = w.store) (hc : w'.calls = w.calls) (hi : w.issued ≤ w'.issued)
    (ha : answer ≠ .created) (hf : ∀ c f, request = .finalize c f → answer = .finalized) : Mapping env w' := by
  refine hw.keep e hc hi (Mapping.owner_served hx e hs)
    ((hw.creates hx).served (fun h => absurd h ha) fun c f hp => ?_)
  obtain rfl := finalize_of_phase (((hw.creates hx).awaits hr).symm.trans hp)
  rw [hc]
  exact ⟨((hw.creates hx).ended hp).1, hf _ _ rfl⟩

/-- A created call is active, and the others are as before. -/
theorem activeFor_created {call : CallCreateRequest} {calls : CallTable}
    (hi : w.calls.insert (newCall call) = some calls) (hc : w'.calls = calls) {p : String} {r : Call} :
    ActiveFor w' p r ↔ ActiveFor w p r ∨ r = newCall call ∧ call.providerCallId = some p := by
  unfold ActiveFor
  rw [hc, Table.mem_insert hi]
  constructor
  · rintro ⟨hr | rfl, hp, ha⟩
    · exact .inl ⟨hr, hp, ha⟩
    · exact .inr ⟨rfl, hp⟩
  · rintro (⟨hr, hp, ha⟩ | ⟨rfl, hp⟩)
    · exact ⟨.inl hr, hp, ha⟩
    · exact ⟨.inr rfl, hp, rfl⟩

/-- The API has created a call. -/
theorem Mapping.created (hw : Mapping env w) (hx : w.handlers h = some x) {call : CallCreateRequest}
    {calls : CallTable} (hr : x.request = some (.create call)) (hi : w.calls.insert (newCall call) = some calls)
    (e : w'.handlers = Function.update w.handlers h (some { x with request := none, answer := some .created }))
    (hs : w'.store = w.store) (hc : w'.calls = calls) (hissued : w'.issued = w.issued) : Mapping env w' := by
  have hcx := hw.creates hx
  have hp : x.phase = .creating call := hcx.awaits hr
  have hcall : Owner env w call.callId (.inl h) := .creating hx hp
  have hmono : ∀ {c}, Issued env w c → Issued env w' c := fun h => h.mono (le_of_eq hissued.symm)
  have ho : ∀ {c o}, Owner env w' c o → Owner env w c o := Mapping.owner_served hx e hs
  have hkeep : ∀ {c}, w.calls.lookup c ≠ none → w'.calls.lookup c ≠ none := fun h => by
    rw [hc, Table.lookup_insert hi]
    split
    · exact Option.some_ne_none _
    · exact h
  refine ⟨fun h => hmono (hw.issued (ho h)), fun h h' => hw.unique (ho h) (ho h'), fun {h' z} hz => ?_⟩
  · rw [e] at hz
    rcases update_cases hz with ⟨rfl, rfl⟩ | ⟨hne, hz⟩
    · refine hcx.served (fun _ call' hp' => ?_) fun c f hp' => by rw [hp] at hp'; cases hp'
      obtain rfl : call = call' := Phase.creating.inj (hp.symm.trans hp')
      exact ⟨newCall call, (activeFor_created hi hc).mpr (.inr ⟨rfl, hcx.own hp⟩), rfl⟩
    · have hcz := hw.creates hz
      refine ⟨hcz.awaits, hcz.unanswered, hcz.own, fun {call'} hp' ha => ?_, fun hp' ha => ?_,
        fun hp' => ⟨hkeep (hcz.ended hp').1, (hcz.ended hp').2⟩⟩
      · -- Another handler creates another call.
        have hid : (newCall call).callId ≠ call'.callId := fun e' => by
          have := hw.unique hcall (e' ▸ Owner.creating hz hp')
          exact hne (Sum.inl.inj this).symm
        rw [hc, Table.lookup_insert hi, if_neg hid]
        exact hcz.unborn hp' ha
      · obtain ⟨r, hr, e'⟩ := hcz.born hp' ha
        exact ⟨r, (activeFor_created hi hc).mpr (.inl hr), e'⟩

/-- The rows that are active after a finalization. -/
theorem active_of_finalized {calls : CallTable} {c : CallId} {f : FinalizeRequest} {r : Call}
    (hr : r ∈ (calls.update (finalizeStmt c f)).rows) (ha : r.status = .active) :
    r ∈ calls.rows ∧ r.callId ≠ c := by
  have hset : ∀ r : Call, ((finalizeStmt c f).set r).status ≠ .active := fun r => by
    show ((endReasonMap f.endReason).getD (.failed, .failedPreConnect)).1 ≠ .active
    unfold endReasonMap
    split <;> exact nofun
  obtain ⟨r₀, hr₀, rfl⟩ := List.mem_map.mp hr
  rcases (finalizeStmt c f).row_cases r₀ with e | ⟨-, e⟩
  · rw [e] at ha ⊢
    refine ⟨hr₀, fun h => ?_⟩
    rw [Update.row_of_guard (by simpa [finalizeStmt] using h)] at e
    exact hset r₀ (e ▸ ha)
  · rw [e] at ha
    exact absurd ha (hset r₀)

/-- A finalized call is not active, and the others are as before. -/
theorem activeFor_finalized {c : CallId} {f : FinalizeRequest}
    (hc : w'.calls = w.calls.update (finalizeStmt c f)) {p : String} {r : Call} :
    ActiveFor w' p r ↔ ActiveFor w p r ∧ r.callId ≠ c := by
  unfold ActiveFor
  rw [hc]
  constructor
  · rintro ⟨hr, hp, ha⟩
    obtain ⟨hr, hne⟩ := active_of_finalized hr ha
    exact ⟨⟨hr, hp, ha⟩, hne⟩
  · rintro ⟨⟨hr, hp, ha⟩, h⟩
    exact ⟨List.mem_map.mpr ⟨r, hr, Update.row_of_not_guard (by simpa [finalizeStmt] using h)⟩, hp, ha⟩

/-- The API has finalized a call. -/
theorem Mapping.finalized (hw : Mapping env w) (hx : w.handlers h = some x) {c : CallId} {f : FinalizeRequest}
    (hr : x.request = some (.finalize c f))
    (e : w'.handlers = Function.update w.handlers h (some { x with request := none, answer := some .finalized }))
    (hs : w'.store = w.store) (hc : w'.calls = w.calls.update (finalizeStmt c f))
    (hissued : w'.issued = w.issued) : Mapping env w' := by
  have hcx := hw.creates hx
  have hp : x.phase = .finalizing c f := hcx.awaits hr
  have howner : Owner env w c _ := .finalizing hx hp
  have hkeep : ∀ {k}, w.calls.lookup k ≠ none → w'.calls.lookup k ≠ none := fun h => by
    rw [hc, Table.lookup_update]
    exact fun e => h (Option.map_eq_none_iff.mp e)
  have hmono : ∀ {c}, Issued env w c → Issued env w' c := fun h => h.mono (le_of_eq hissued.symm)
  have ho : ∀ {c o}, Owner env w' c o → Owner env w c o := Mapping.owner_served hx e hs
  refine ⟨fun h => hmono (hw.issued (ho h)), fun h h' => hw.unique (ho h) (ho h'), fun {h' z} hz => ?_⟩
  · rw [e] at hz
    rcases update_cases hz with ⟨rfl, rfl⟩ | ⟨-, hz⟩
    · refine hcx.served nofun fun c' f' hp' => ?_
      obtain ⟨rfl, rfl⟩ := Phase.finalizing.inj (hp.symm.trans hp')
      exact ⟨hkeep (hcx.ended hp).1, rfl⟩
    · have hcz := hw.creates hz
      refine ⟨hcz.awaits, hcz.unanswered, hcz.own, fun hp ha => ?_, fun hp ha => ?_,
        fun hp => ⟨hkeep (hcz.ended hp).1, (hcz.ended hp).2⟩⟩
      · rw [hc, Table.lookup_update, hcz.unborn hp ha]; rfl
      · obtain ⟨r, hr, e'⟩ := hcz.born hp ha
        -- A call that is being created is not one that is being finalized.
        refine ⟨r, (activeFor_finalized hc).mpr ⟨hr, fun h => ?_⟩, e'⟩
        have := hw.unique howner (h ▸ e' ▸ Owner.creating hz hp)
        cases this

/-- A handler takes an id of its own. -/
theorem Mapping.create (hb : Backed env w) (hw : Mapping env w) {call : CallCreateRequest}
    (hid : call.callId = (env.uuid4 w.issued).1) (hown : call.providerCallId = some y.payload.providerCallId)
    (e : w'.handlers = Function.update w.handlers h (some y)) (hp : y.phase = .creating call)
    (hr : y.request = some (.create call)) (ha : y.answer = none) (hs : w'.store = w.store)
    (hc : w'.calls = w.calls) (hi : w'.issued = w.issued + 1) : Mapping env w' := by
  have hnew : ∀ {o}, ¬ Owner env w call.callId o := fun ho => not_issued env w (hid ▸ hw.issued ho)
  have ho : ∀ {c o}, Owner env w' c o → Owner env w c o ∨ c = call.callId ∧ o = .inl h := by
    intro c o ho
    cases ho with
    | creating hx hp' =>
      rw [e] at hx
      rcases update_cases hx with ⟨rfl, rfl⟩ | ⟨-, hx⟩
      · obtain rfl := Phase.creating.inj (hp.symm.trans hp')
        exact .inr ⟨rfl, rfl⟩
      · exact .inl (.creating hx hp')
    | entry hs' => exact .inl (.entry (by rw [← hs]; exact hs'))
    | finalizing hx hp' =>
      rw [e] at hx
      rcases update_cases hx with ⟨rfl, rfl⟩ | ⟨-, hx⟩
      · rw [hp] at hp'; cases hp'
      · exact .inl (.finalizing hx hp')
  have hmono : ∀ {c}, Issued env w c → Issued env w' c := fun h => h.mono (by omega)
  refine ⟨fun h => ?_, fun h h' => ?_, fun {h' z} hz => ?_⟩
  · rcases ho h with h | ⟨rfl, -⟩
    · exact hmono (hw.issued h)
    · exact ⟨w.issued, by omega, hid.symm⟩
  · rcases ho h with h | ⟨rfl, rfl⟩ <;> rcases ho h' with h' | ⟨e', rfl⟩
    · exact hw.unique h h'
    · exact absurd (e' ▸ h) hnew
    · exact absurd h' hnew
    · rfl
  · rw [e] at hz
    rcases update_cases hz with ⟨rfl, rfl⟩ | ⟨-, hz⟩
    · refine ⟨fun e => ?_, fun _ => ha, fun hp' => ?_, fun hp' _ => ?_, fun _ e => ?_, fun hp' => ?_⟩
      · rw [hr] at e; cases e; exact hp
      · rw [← Phase.creating.inj (hp.symm.trans hp')]; exact hown
      · rw [← Phase.creating.inj (hp.symm.trans hp'), hc]
        refine Table.lookup_eq_none.mpr fun r hr e => not_issued env w ?_
        rw [← hid, ← e]; exact hb.calls r hr
      · rw [ha] at e; cases e
      · rw [hp] at hp'; cases hp'
    · exact (hw.creates hz).of_calls hc

/-- The id that a handler has created becomes the entry of the store. -/
theorem Mapping.started (hw : Mapping env w) (hx : w.handlers h = some x) {call : CallCreateRequest}
    (hp : x.phase = .creating call) (e : w'.handlers = Function.update w.handlers h (some y))
    (hy : isWaiting y.phase = false) (hr : y.request = none)
    (hs : w'.store = (w.storePut (env.place x.inst) x.payload.providerCallId (some call.callId)).store)
    (hc : w'.calls = w.calls) (hi : w'.issued = w.issued) : Mapping env w' := by
  have hcall : Owner env w call.callId (.inl h) := .creating hx hp
  have hphase : (∀ call, y.phase ≠ .creating call) ∧ ∀ c f, y.phase ≠ .finalizing c f := by
    refine ⟨fun call e => ?_, fun c f e => ?_⟩ <;> rw [e] at hy <;> cases hy
  have ho : ∀ {c o}, Owner env w' c o → Owner env w c o ∧ o ≠ .inl h ∨
      c = call.callId ∧ o = .inr (env.place x.inst, x.payload.providerCallId) := by
    intro c o ho
    cases ho with
    | creating hz hp' =>
      rw [e] at hz
      rcases update_cases hz with ⟨rfl, rfl⟩ | ⟨hne, hz⟩
      · exact absurd hp' (hphase.1 _)
      · exact .inl ⟨.creating hz hp', fun e => hne (Sum.inl.inj e)⟩
    | @entry place p c hs' =>
      rw [hs, storePut_store] at hs'
      split at hs'
      · rename_i hslot
        obtain ⟨rfl, rfl⟩ := hslot
        exact .inr ⟨(Option.some.inj hs').symm, rfl⟩
      · exact .inl ⟨.entry hs', nofun⟩
    | finalizing hz hp' =>
      rw [e] at hz
      rcases update_cases hz with ⟨rfl, rfl⟩ | ⟨-, hz⟩
      · exact absurd hp' (hphase.2 _ _)
      · exact .inl ⟨.finalizing hz hp', nofun⟩
  have hmono : ∀ {c}, Issued env w c → Issued env w' c := fun h => h.mono (le_of_eq hi.symm)
  refine ⟨fun h => ?_, fun h h' => ?_, fun {h' z} hz => ?_⟩
  · rcases ho h with ⟨h, -⟩ | ⟨rfl, -⟩
    · exact hmono (hw.issued h)
    · exact hmono (hw.issued hcall)
  · rcases ho h with ⟨h, hne⟩ | ⟨rfl, rfl⟩ <;> rcases ho h' with ⟨h', hne'⟩ | ⟨e', rfl⟩
    · exact hw.unique h h'
    · exact absurd (hw.unique (e' ▸ h) hcall) hne
    · exact absurd (hw.unique h' hcall) hne'
    · rfl
  · rw [e] at hz
    rcases update_cases hz with ⟨rfl, rfl⟩ | ⟨-, hz⟩
    · exact creates_of_returned hr hy
    · exact (hw.creates hz).of_calls hc

/-- What the invariant is about is unchanged. -/
theorem Mapping.frame (hw : Mapping env w) (hh : w'.handlers = w.handlers)
    (hs : ∀ {place p c}, w'.store place p = some c → w.store place p = some c)
    (hc : w'.calls = w.calls) (hi : w'.issued = w.issued) : Mapping env w' := by
  have ho : ∀ {c o}, Owner env w' c o → Owner env w c o := fun ho => by
    cases ho with
    | creating hx hp => exact .creating (by rw [← hh]; exact hx) hp
    | entry hs' => exact .entry (hs hs')
    | finalizing hx hp => exact .finalizing (by rw [← hh]; exact hx) hp
  have hmono : ∀ {c}, Issued env w c → Issued env w' c := fun h => h.mono (le_of_eq hi.symm)
  refine ⟨fun h => hmono (hw.issued (ho h)), fun h h' => hw.unique (ho h) (ho h'), fun hx => ?_⟩
  rw [hh] at hx; exact (hw.creates hx).of_calls hc

/-- A handler goes on, and owns nothing that it did not own. -/
theorem Mapping.goOn (hw : Mapping env w) (e : w'.handlers = Function.update w.handlers h (some y))
    (hs : ∀ {place p c}, w'.store place p = some c → w.store place p = some c)
    (hc : w'.calls = w.calls) (hi : w'.issued = w.issued)
    (hp : ∀ call, y.phase ≠ .creating call)
    (hf : ∀ {c f}, y.phase = .finalizing c f → w.store (env.place y.inst) y.payload.providerCallId = some c)
    (hy : Creates w' y) : Mapping env w' :=
  hw.keep e hc (le_of_eq hi.symm)
    (owner_update e (fun h => .entry (hs h)) (fun h => absurd h (hp _)) fun h => .entry (hf h)) hy

theorem mapping_step (hb : Backed env w) (hw : Mapping env w) {a : Action} (hwork : isWorking a = true) :
    Mapping env (step env w a) := by
  have hs := gStep env w a
  generalize step env w a = w' at hs
  cases hs with
  | skip => exact hw
  | tick => exact hw.frame rfl tick_store rfl rfl
  | deliver hx =>
    exact hw.goOn rfl id rfl rfl nofun (fun e => by cases e)
      (creates_of_phase nofun (fun e => by cases e; rfl) (fun e => by cases e) fun _ => rfl)
  | serve hx hr hs =>
    cases hs with
    | rejected => exact hw.answered hx hr rfl rfl rfl (le_refl _) (by decide) nofun
    | new => exact hw.answered hx hr rfl rfl rfl (Nat.le_succ _) (by decide) nofun
    | conflict _ ha =>
      exact hw.answered hx hr rfl rfl rfl (Nat.le_succ _) (by rcases ha with rfl | rfl <;> decide) nofun
    | resolved => exact hw.answered hx hr rfl rfl rfl (le_refl _) nofun nofun
    | unresolved => exact hw.answered hx hr rfl rfl rfl (le_refl _) (by decide) nofun
    | created hi => exact hw.created hx hr hi rfl rfl rfl rfl
    | taken => exact hw.answered hx hr rfl rfl rfl (le_refl _) (by decide) nofun
    | finalized => exact hw.finalized hx hr rfl rfl rfl rfl
    | again => exact hw.answered hx hr rfl rfl rfl (le_refl _) (by decide) fun _ _ _ => rfl
    | missing hl =>
      exact absurd hl ((hw.creates hx).ended ((hw.creates hx).awaits hr)).1
  | reply ha hx =>
    rcases ha with ⟨-, -, ha, -⟩ | ⟨rfl, -⟩
    · obtain ⟨answer, ha⟩ := Option.ne_none_iff_exists'.mp ha
      have hr := request_eq_none (hw.creates hx).unanswered ha
      exact hw.goOn rfl id rfl rfl nofun (fun e => by cases e) (creates_of_returned hr rfl)
    · cases hwork
  | resolve =>
    exact hw.goOn rfl id rfl rfl nofun (fun e => by cases e)
      (creates_of_phase nofun (fun e => by cases e; rfl) (fun e => by cases e) fun _ => rfl)
  | create => exact hw.create hb rfl rfl rfl rfl rfl rfl rfl rfl rfl
  | finalize _ _ _ _ hg =>
    exact hw.goOn rfl id rfl rfl nofun (fun e => by cases e; exact storeGet_store hg)
      (creates_of_phase nofun (fun e => by cases e; rfl)
        (fun e => by cases e; exact ⟨hb.entries (storeGet_store hg), rfl⟩) fun _ => rfl)
  | started hx hp ha =>
    have hr := request_eq_none (hw.creates hx).unanswered ha
    exact hw.started hx hp rfl rfl hr rfl rfl rfl
  | cleaned hx _ ha =>
    have hr := request_eq_none (hw.creates hx).unanswered ha
    refine hw.goOn rfl (fun h => ?_) rfl rfl nofun (fun e => by cases e) (creates_of_returned hr rfl)
    rw [show (World.setHandler _ _ _).store = (w.storePut _ _ none).store from rfl, storePut_store] at h
    split at h
    · cases h
    · exact h
  | restart => cases hwork

/-! ## What a step keeps -/

/-- A handler that goes on as it was does not stop finalizing. -/
theorem Finalizing.update {place : Place} {p : String} {c : CallId} (hf : Finalizing env w place p c)
    (e : w'.handlers = Function.update w.handlers h (some y))
    (hy : ∀ x, w.handlers h = some x → ∀ c f, x.phase = .finalizing c f →
      y.phase = x.phase ∧ y.inst = x.inst ∧ y.payload = x.payload) : Finalizing env w' place p c := by
  obtain ⟨h₀, x₀, f, hx₀, hp₀, hplace, hprov⟩ := hf
  by_cases hh : h₀ = h
  · subst hh
    obtain ⟨h1, h2, h3⟩ := hy x₀ hx₀ c f hp₀
    refine ⟨h₀, y, f, by rw [e, Function.update_self], h1.trans hp₀, by rw [h2]; exact hplace, by rw [h3]; exact hprov⟩
  · exact ⟨h₀, x₀, f, by rw [e, Function.update_of_ne hh]; exact hx₀, hp₀, hplace, hprov⟩

theorem MappedOrEnding.keep (hm : MappedOrEnding env w) (ha : ∀ {p r}, ActiveFor w p r → ActiveFor w' p r)
    (hs : ∀ {place p c}, w'.store place p = some c → w.store place p = some c)
    (hf : ∀ {place p c}, Finalizing env w place p c → Finalizing env w' place p c) : MappedOrEnding env w' := by
  intro place p c h
  rcases hm place p c (hs h) with ⟨r, hr, e⟩ | h
  · exact .inl ⟨r, ha hr, e⟩
  · exact .inr (hf h)

/-- The same, for a step of a handler that was not finalizing. -/
theorem MappedOrEnding.goOn (hm : MappedOrEnding env w) (e : w'.handlers = Function.update w.handlers h (some y))
    (hx : ∀ x, w.handlers h = some x → ∀ c f, x.phase ≠ .finalizing c f)
    (hs : ∀ {place p c}, w'.store place p = some c → w.store place p = some c) (hc : w'.calls = w.calls) :
    MappedOrEnding env w' :=
  hm.keep (fun ⟨hr, h⟩ => ⟨by rw [hc]; exact hr, h⟩) hs fun hf =>
    hf.update e fun x hx' c f hp => absurd hp (hx x hx' c f)

/-- The API serves a handler, which waits as before. -/
theorem MappedOrEnding.served (hm : MappedOrEnding env w) (hx : w.handlers h = some x) {answer : ApiAnswer}
    (e : w'.handlers = Function.update w.handlers h (some { x with request := none, answer := some answer }))
    (ha : ∀ {p r}, ActiveFor w p r → ActiveFor w' p r) (hs : w'.store = w.store) : MappedOrEnding env w' :=
  hm.keep ha (fun h => by rw [← hs]; exact h) fun hf => hf.update e fun x' hx' c f _ => by
    rw [hx] at hx'; cases hx'; exact ⟨rfl, rfl, rfl⟩

/-- An entry of a call that the API has just finalized is the one that the
handler of the request found. -/
theorem MappedOrEnding.finalized (hw : Mapping env w) (hm : MappedOrEnding env w) (hx : w.handlers h = some x) {c : CallId}
    {f : FinalizeRequest} (hr : x.request = some (.finalize c f))
    (e : w'.handlers = Function.update w.handlers h (some { x with request := none, answer := some .finalized }))
    (hs : w'.store = w.store) (hc : w'.calls = w.calls.update (finalizeStmt c f)) : MappedOrEnding env w' := by
  have hp : x.phase = .finalizing c f := (hw.creates hx).awaits hr
  have hup : ∀ {place p c}, Finalizing env w place p c → Finalizing env w' place p c := fun hf =>
    hf.update e fun x' hx' c f _ => by rw [hx] at hx'; cases hx'; exact ⟨rfl, rfl, rfl⟩
  intro place p k hk
  rw [hs] at hk
  rcases hm place p k hk with ⟨r, hr, e'⟩ | hf
  · by_cases hkc : k = c
    · subst hkc
      have := hw.unique (.entry hk) (.finalizing hx hp)
      obtain ⟨rfl, rfl⟩ := Prod.mk.inj (Sum.inr.inj this)
      exact .inr (hup ⟨h, x, f, hx, hp, rfl, rfl⟩)
    · exact .inl ⟨r, (activeFor_finalized hc).mpr ⟨hr, by rw [e']; exact hkc⟩, e'⟩
  · exact .inr (hup hf)

theorem not_finalizing {phase : Phase} (hx : w.handlers h = some x) (hp : x.phase = phase)
    (hq : ∀ c f, phase ≠ .finalizing c f) (x' : Handler) (hx' : w.handlers h = some x') (c : CallId)
    (f : FinalizeRequest) : x'.phase ≠ .finalizing c f := by
  obtain rfl : x = x' := Option.some.inj (hx.symm.trans hx')
  rw [hp]; exact hq c f

/-- The entry that a handler writes is the id of the call it has created. -/
theorem MappedOrEnding.started (hw : Mapping env w) (hm : MappedOrEnding env w) (hx : w.handlers h = some x)
    {call : CallCreateRequest} (hp : x.phase = .creating call) (ha : x.answer = some .created)
    (e : w'.handlers = Function.update w.handlers h (some y))
    (hs : w'.store = (w.storePut (env.place x.inst) x.payload.providerCallId (some call.callId)).store)
    (hc : w'.calls = w.calls) : MappedOrEnding env w' := by
  have hactive : ∀ {p r}, ActiveFor w p r → ActiveFor w' p r := fun ⟨hr, h⟩ => ⟨by rw [hc]; exact hr, h⟩
  intro place p c hk
  rw [hs, storePut_store] at hk
  split at hk
  · rename_i hslot
    obtain ⟨rfl, rfl⟩ := hslot
    obtain ⟨r, hr, e'⟩ := (hw.creates hx).born hp ha
    exact .inl ⟨r, hactive hr, e'.trans (Option.some.inj hk)⟩
  · rcases hm place p c hk with ⟨r, hr, e'⟩ | hf
    · exact .inl ⟨r, hactive hr, e'⟩
    · exact .inr (hf.update e fun x' hx' c f hp' => absurd hp' (not_finalizing hx hp nofun x' hx' c f))

/-- The entry of the call that a handler has finalized is deleted. -/
theorem MappedOrEnding.cleaned (hm : MappedOrEnding env w) (hx : w.handlers h = some x)
    (e : w'.handlers = Function.update w.handlers h (some y))
    (hs : w'.store = (w.storePut (env.place x.inst) x.payload.providerCallId none).store)
    (hc : w'.calls = w.calls) : MappedOrEnding env w' := by
  intro place p k hk
  rw [hs, storePut_store] at hk
  split at hk
  · cases hk
  · rename_i hslot
    rcases hm place p k hk with ⟨r, ⟨hr, hr'⟩, e'⟩ | ⟨h₀, x₀, f₀, hx₀, hp₀, hplace, hprov⟩
    · exact .inl ⟨r, ⟨by rw [hc]; exact hr, hr'⟩, e'⟩
    · have hh : h₀ ≠ h := fun hh => by
        subst hh
        obtain rfl : x = x₀ := Option.some.inj (hx.symm.trans hx₀)
        exact hslot ⟨hplace.symm, hprov.symm⟩
      exact .inr ⟨h₀, x₀, f₀, by rw [e, Function.update_of_ne hh]; exact hx₀, hp₀, hplace, hprov⟩

theorem mappedOrEnding_step (hw : Mapping env w) (hm : MappedOrEnding env w) {a : Action} (hwork : isWorking a = true) :
    MappedOrEnding env (step env w a) := by
  have hs := gStep env w a
  generalize step env w a = w' at hs
  cases hs with
  | skip => exact hm
  | tick => exact hm.keep id tick_store id
  | deliver hx => exact hm.goOn rfl (fun x hx' => by rw [hx] at hx'; cases hx') id rfl
  | @serve h _ x _ _ _ hx hr hs =>
    cases hs with
    | created hi => exact hm.served hx rfl (fun h => (activeFor_created hi rfl).mpr (.inl h)) rfl
    | finalized => exact hm.finalized hw hx hr rfl rfl rfl
    | _ => exact hm.served hx rfl id rfl
  | @reply _ h x _ _ ha hx =>
    rcases ha with ⟨-, -, ha, hf⟩ | ⟨rfl, -⟩
    · refine hm.goOn rfl (fun x' hx' c f hp => ?_) id rfl
      rw [hx] at hx'; cases hx'
      rcases ((hw.creates hx).ended hp).2 with hn | hn
      · exact ha hn
      · exact hf c f hp hn
    · cases hwork
  | resolve hx hp => exact hm.goOn rfl (not_finalizing hx hp nofun) id rfl
  | create hx hp => exact hm.goOn rfl (not_finalizing hx hp nofun) id rfl
  | finalize hx hp => exact hm.goOn rfl (not_finalizing hx hp nofun) id rfl
  | started hx hp ha => exact hm.started hw hx hp ha rfl rfl rfl
  | cleaned hx => exact hm.cleaned hx rfl rfl rfl
  | restart => cases hwork

/-- A step that creates no second call keeps one. -/
theorem oneActive_step (hone : OneActive w) {a : Action} (hn : ¬ SecondCall w a) :
    OneActive (step env w a) := by
  have hs := gStep env w a
  generalize step env w a = w' at hs
  cases hs with
  | @serve h session x _ _ _ hx hr hs =>
    cases hs with
    | @created call _ hi =>
      intro p r r' hr₁ hr₂
      have hnone : call.providerCallId = some p → ∀ r, ¬ ActiveFor w p r := fun hp r ha =>
        hn ⟨h, session, x, call, p, r, rfl, hx, hr, hp, ha⟩
      rcases (activeFor_created hi rfl).mp hr₁ with h₁ | ⟨rfl, h₁⟩ <;>
        rcases (activeFor_created hi rfl).mp hr₂ with h₂ | ⟨rfl, h₂⟩
      · exact hone p r r' h₁ h₂
      · exact absurd h₁ (hnone h₂ _)
      · exact absurd h₂ (hnone h₁ _)
      · rfl
    | finalized =>
      intro p r r' hr₁ hr₂
      exact hone p r r' ((activeFor_finalized rfl).mp hr₁).1 ((activeFor_finalized rfl).mp hr₂).1
    | _ => exact hone
  | _ => exact hone

/-- A second call makes two. -/
theorem not_oneActive_of_secondCall (hw : Mapping env w) {a : Action} (h : SecondCall w a) :
    ¬ OneActive (step env w a) := by
  obtain ⟨h, session, x, call, p, r, rfl, hx, hr, hp, ha⟩ := h
  have hcx := hw.creates hx
  have hphase : x.phase = .creating call := hcx.awaits hr
  have hnew := hcx.unborn hphase (hcx.unanswered (by rw [hr]; exact nofun))
  obtain ⟨calls, hi⟩ := Table.exists_insert (r := newCall call) hnew
  have hcalls : (step env w (.serve h session)).calls = calls := by
    simp only [step, hx, hr, serveRequest, createCall, hnew, hi]
    rfl
  intro hone
  have e := hone p r (newCall call) ((activeFor_created hi hcalls).mpr (.inl ha))
    ((activeFor_created hi hcalls).mpr (.inr ⟨rfl, hp⟩))
  exact Table.lookup_eq_none.mp hnew r ha.1 (by rw [e]; rfl)

theorem mapping_init (env : Env) (now : Time) : Mapping env (.init now) where
  issued ho := by cases ho with | creating h => cases h | entry h => cases h | finalizing h => cases h
  unique ho := by cases ho with | creating h => cases h | entry h => cases h | finalizing h => cases h
  creates h := by cases h

/-- A call that is active has not ended. -/
def ActiveOpen (w : World) : Prop := ∀ r ∈ w.calls.rows, r.status = .active → r.endedAt = none

theorem activeOpen_step (hw : ActiveOpen w) (a : Action) : ActiveOpen (step env w a) := by
  have hs := gStep env w a
  generalize step env w a = w' at hs
  cases hs with
  | serve hx hr hs =>
    cases hs with
    | @created call calls hi =>
      intro r hr ha
      rcases (Table.mem_insert hi).mp hr with hr | rfl
      · exact hw r hr ha
      · rfl
    | finalized => exact fun r hr ha => hw r (active_of_finalized hr ha).1 ha
    | _ => exact hw
  | _ => exact hw

/-- A step that finalizes no call of the store keeps every entry at an active
one. -/
theorem mapped_step (hw : Mapping env w) (hm : Mapped w) {a : Action} (hwork : isWorking a = true)
    (hn : ¬ EndsMapped w a) : Mapped (step env w a) := by
  have hs := gStep env w a
  generalize step env w a = w' at hs
  cases hs with
  | @serve h session x _ _ _ hx hr hs =>
    cases hs with
    | created hi =>
      intro place p c hk
      obtain ⟨r, hr, e⟩ := hm place p c hk
      exact ⟨r, (activeFor_created hi rfl).mpr (.inl hr), e⟩
    | @finalized c f _ hl =>
      intro place p k hk
      obtain ⟨r, ha, e⟩ := hm place p k hk
      refine ⟨r, (activeFor_finalized rfl).mpr ⟨ha, fun h' => hn ?_⟩, e⟩
      exact ⟨h, session, x, c, f, place, p, rfl, hx, hr, by rw [← h', e]; exact hk⟩
    | _ => exact hm
  | started hx hp ha =>
    intro place p c hk
    rw [show (World.setHandler _ _ _).store = (w.storePut _ _ _).store from rfl, storePut_store] at hk
    split at hk
    · rename_i hslot
      obtain ⟨rfl, rfl⟩ := hslot
      obtain ⟨r, hr, e⟩ := (hw.creates hx).born hp ha
      exact ⟨r, hr, e.trans (Option.some.inj hk)⟩
    · exact hm place p c hk
  | cleaned =>
    intro place p c hk
    rw [show (World.setHandler _ _ _).store = (w.storePut _ _ none).store from rfl, storePut_store] at hk
    split at hk
    · cases hk
    · exact hm place p c hk
  | tick => exact fun place p c hk => hm place p c (tick_store hk)
  | restart => cases hwork
  | _ => exact hm

/-- A finalization leaves the entry behind. -/
theorem not_mapped_of_endsMapped (ho : ActiveOpen w) (hm : Mapped w) {a : Action} (h : EndsMapped w a) :
    ¬ Mapped (step env w a) := by
  obtain ⟨h, session, x, c, f, place, p, rfl, hx, hr, hk⟩ := h
  obtain ⟨r, ⟨hmem, -, ha⟩, rfl⟩ := hm place p c hk
  have hstep : (step env w (.serve h session)).calls = w.calls.update (finalizeStmt r.callId f) ∧
      (step env w (.serve h session)).store = w.store := by
    have hended : ¬ r.endedAt.isSome = true := by rw [ho r hmem ha]; decide
    simp only [step, hx, hr, serveRequest, finalizeCall, Table.lookup_of_mem hmem, if_neg hended]
    exact ⟨rfl, rfl⟩
  intro hm'
  obtain ⟨r', hr', e⟩ := hm' place p r.callId (by rw [hstep.2]; exact hk)
  exact ((activeFor_finalized hstep.1).mp hr').2 e

/-- One active call per provider call. In every run in which the dependencies
work, with any callbacks in any order and the handlers interleaved in any way,
at every moment each `CallSid` has at most one active call and an entry of the
call store is the id of that call, if and only if no `calls.create` request
reaches the API while a call with the same `CallSid` is active, and no
`calls.finalize` request reaches it while the call is in the store. The second
condition is about the moment between a finalization and the deletion of the
entry by the handler that asked for it: if an entry may be that of a call that
a handler is just finalizing, the first condition alone is the exact one. -/
theorem one_active_call_iff (env : Env) (now : Time) (as : List WorkingAction) :
    (Always (workingStep env) (fun w => OneActive w ∧ Mapped w) (.init now) as ↔
      AllSteps (workingStep env) (fun w a => ¬ SecondCall w a.1 ∧ ¬ EndsMapped w a.1) (.init now) as) ∧
    (Always (workingStep env) (fun w => OneActive w ∧ MappedOrEnding env w) (.init now) as ↔
      AllSteps (workingStep env) (fun w a => ¬ SecondCall w a.1) (.init now) as) := by
  have hinit : OneActive (.init now) := fun _ _ _ h => absurd h.1 List.not_mem_nil
  constructor
  · refine always_iff_allSteps (I := fun w => Backed env w ∧ Mapping env w ∧ ActiveOpen w)
      ⟨backed_init env now, mapping_init env now, fun _ h => absurd h List.not_mem_nil⟩
      ⟨hinit, fun _ _ _ h => by cases h⟩ ?_ ?_ as
    · intro w a ⟨hb, hw, ho⟩ ⟨hone, hm⟩ ⟨hsecond, hends⟩
      exact ⟨⟨backed_step hb a.1, mapping_step hb hw a.2, activeOpen_step ho a.1⟩, oneActive_step hone hsecond,
        mapped_step hw hm a.2 hends⟩
    · intro w a ⟨_, hw, ho⟩ ⟨_, hm⟩ ⟨hone', hm'⟩
      exact ⟨fun hn => not_oneActive_of_secondCall hw hn hone', fun hn => not_mapped_of_endsMapped ho hm hn hm'⟩
  · refine always_iff_allSteps (I := fun w => Backed env w ∧ Mapping env w)
      ⟨backed_init env now, mapping_init env now⟩ ⟨hinit, fun _ _ _ h => by cases h⟩ ?_ ?_ as
    · intro w a ⟨hb, hw⟩ ⟨hone, hm⟩ hn
      exact ⟨⟨backed_step hb a.1, mapping_step hb hw a.2⟩, oneActive_step hone hn,
        mappedOrEnding_step hw hm a.2⟩
    · intro w a ⟨_, hw⟩ _ ⟨hone, _⟩ hn
      exact not_oneActive_of_secondCall hw hn hone

/-! ## A second start event -/

/-- Ids of growing length. -/
def longerIds (n : Nat) : Uuid :=
  ⟨String.ofList (List.replicate (n + 1) 'u'), by simp [String.ext_iff, List.replicate_succ]⟩

/-- A gateway with one route, and a Redis or not; `lower` is that of ASCII. -/
def oneRoute (redis : Bool) : Env where
  lower s := String.ofList (s.toList.map Char.toLower)
  dumps _ _ := "\x7b\x7d"
  routing := some fun number => if number = "+919" then some ("tenant", "agent") else none
  redis := redis
  uuid4 := longerIds
  uuid4_injective a b h := by simpa [longerIds] using congrArg (fun u => u.1.length) h

/-- A callback is handled alone, on fresh connections. -/
def handled (h : Nat) (payload : ExotelCallback) : List Action := delivery h 0 payload fun _ => none

/-- The working actions of a list. -/
def working (as : List Action) : List WorkingAction :=
  as.filterMap fun a => if h : isWorking a = true then some ⟨a, h⟩ else none

def startCallback : ExotelCallback where
  providerCallId := "CA1"
  event := "Start"
  dialedNumber := some "+919"

def answeredCallback : ExotelCallback where
  providerCallId := "CA1"
  event := "answered"
  dialedNumber := some "+919"

def completedCallback : ExotelCallback where
  providerCallId := "CA1"
  event := "completed"

/-- The world after `Start` and then `answered`. -/
def startedTwice : World :=
  run (workingStep (oneRoute true)) (.init 0) (working (handled 0 startCallback ++ handled 1 answeredCallback))

/-- A call of `CA1` as the gateway creates it. -/
def createdCall (callId : CallId) : Call :=
  newCall
    { callId := callId, tenantId := "tenant", agentId := "agent", startedAt := 0, providerCallId := some "CA1" }

/-- Both events create a call, and the store maps the second. -/
theorem two_active_calls :
    startedTwice.calls.rows = [createdCall "uu", createdCall "uuuu"] ∧
      startedTwice.store .redis "CA1" = some "uuuu" ∧ ¬ OneActive startedTwice := by
  refine ⟨by decide, by decide, fun h => ?_⟩
  have e := h "CA1" (createdCall "uu") (createdCall "uuuu") (by unfold ActiveFor; decide)
    (by unfold ActiveFor; decide)
  exact absurd e (by decide)

end CallingAgent.Proof.Gateway
