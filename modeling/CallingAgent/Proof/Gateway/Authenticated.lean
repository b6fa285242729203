import CallingAgent.Proof.Gateway.SessionCache
import CallingAgent.Proof.Gateway.Tasks

/-!
# Only authenticated calls are accepted

A session is put into `_mem` or Redis by a handler that has found it there before,
or by a callback whose call the API has created. `pre` states this of a program, with
what it has come to know as the ghost state (`meets_prog`); in the state of the
system, every session then goes back to an authenticated callback (`Inv`).
-/

namespace CallingAgent.Proof.Gateway.Authenticated

open CallingAgent.Framework CallingAgent.Impl CallingAgent.Impl.VoiceGateway CallingAgent.Proof.Gateway.Tasks
open CallingAgent.Impl.Calls (CallCreateRequest)
open CallingAgent.Impl.SessionManager (Session key)

/-! ## The handlers -/

/-- What a handler has come to know: the calls of which it has seen a session, and
the calls that the API has created for it. -/
structure Knows where
  seen : CallId → Prop
  created : CallCreateRequest → Prop

/-- It has seen the sessions `p`. -/
def Knows.see (g : Knows) (p : CallId → Prop) : Knows := { g with seen := fun c => g.seen c ∨ p c }

/-- The session that `create` makes for a call. -/
def IsNew (call : CallCreateRequest) (session : Session) : Prop :=
  ∃ now, session = ⟨call.callId, call.tenantId, call.agentId, now, .active, none⟩

/-- A session is written only for a call that has one, or for a call just created. -/
def preSession (g : Knows) : SessionManager.Query → Prop
  | .memPut c session => g.seen c ∨ ∃ call, g.created call ∧ call.callId = c ∧ IsNew call session
  | .redisSet k _ => ∃ c, k = key c ∧ g.seen c
  | _ => True

def nextSession (g : Knows) : (q : SessionManager.Query) → SessionManager.Reply q → Knows
  | .memGet c, some _ => g.see (· = c)
  | .memPut c _, _ => g.see (· = c)
  | .redisGet k, .ok (some _) => g.see (key · = k)
  | _, _ => g

/-- A call is created by an authenticated callback, and a websocket is accepted
when its session has been seen. -/
def pre (cfg : Config) (kind : Kind) (g : Knows) : Query → Prop
  | .session q => preSession g q
  | .create _ => ∃ request, kind = .callback request ∧ authenticate cfg request = .ok ()
  | .accept => ∃ c, kind = .websocket c ∧ g.seen c
  | _ => True

def next (g : Knows) : (q : Query) → Reply q → Knows
  | .session q, r => nextSession g q r
  | .create call, .ok _ => { g with created := fun call' => g.created call' ∨ call' = call }
  | _, _ => g

section Sessions

variable {E : Type} {cfg : SessionManager.Config} {c : CallId} {g : Knows}

/-- What is returned has been seen. -/
def Returned (c : CallId) (g : Knows) (x : Except E (Option Session)) : Prop :=
  ∀ session, x = .ok (some session) → g.seen c

theorem meets_save (session : Session) (hc : g.seen c) :
    (SessionManager.save (E := E) cfg c session).Meets preSession nextSession (fun _ _ => True) g := by
  unfold SessionManager.save
  split
  · exact ⟨⟨c, rfl, hc⟩, fun _ => trivial⟩
  · trivial

theorem meets_load : (SessionManager.load (E := E) cfg c).Meets preSession nextSession (Returned c) g := by
  unfold SessionManager.load
  split
  · refine Prog.meets_ask_bind.mpr ⟨trivial, fun r => ?_⟩
    match r with
    | .ok (some raw) => exact fun session _ => .inr rfl
    | .ok none => exact fun session e => by cases e
    | .error e => exact fun session e => by cases e
  · exact fun session e => by cases e

theorem meets_get : (SessionManager.get (E := E) cfg c).Meets preSession nextSession (Returned c) g := by
  refine Prog.meets_ask_bind.mpr ⟨trivial, fun r => ?_⟩
  cases r with
  | some session => exact fun session _ => .inr rfl
  | none =>
    refine Prog.meets_bind.mpr (meets_load.mono fun g' x hx => ?_)
    match x with
    | .ok (some data) => exact ⟨.inl (hx data rfl), fun _ session _ => .inr rfl⟩
    | .ok none => exact fun session e => by cases e
    | .error e => exact fun session e => by cases e

theorem meets_endMem : (SessionManager.endMem (E := E) c).Meets preSession nextSession (fun _ _ => True) g := by
  refine Prog.meets_ask_bind.mpr ⟨trivial, fun r => ?_⟩
  cases r with
  | some session => exact ⟨.inl (.inr rfl), fun _ => trivial⟩
  | none => trivial

theorem meets_endSession :
    (SessionManager.endSession (E := E) cfg c).Meets preSession nextSession (fun _ _ => True) g := by
  refine Prog.meets_bind.mpr (meets_endMem.mono fun g' x _ => ?_)
  cases x with
  | error e => trivial
  | ok a =>
    refine Prog.meets_bind.mpr (meets_load.mono fun g'' x hx => ?_)
    match x with
    | .ok (some data) => exact meets_save _ (hx data rfl)
    | .ok none => trivial
    | .error e => trivial

theorem meets_remove : (SessionManager.remove (E := E) cfg c).Meets preSession nextSession (fun _ _ => True) g := by
  refine Prog.meets_ask_bind.mpr ⟨trivial, fun _ => ?_⟩
  split
  · exact ⟨trivial, fun _ => trivial⟩
  · trivial

theorem meets_create {call : CallCreateRequest} (hcall : g.created call) :
    (SessionManager.create (E := E) cfg call.callId call.tenantId call.agentId).Meets preSession nextSession
      (fun _ _ => True) g := by
  refine Prog.meets_ask_bind.mpr ⟨trivial, fun now => Prog.meets_ask_bind.mpr ⟨.inr ⟨call, hcall, rfl, now, rfl⟩, ?_⟩⟩
  exact fun _ => meets_save _ (.inr rfl)

theorem meets_addTurn (role : SessionManager.Role) (text : String) :
    (SessionManager.addTurn (E := E) cfg c role text).Meets preSession nextSession (fun _ _ => True) g := by
  refine Prog.meets_bind.mpr (meets_get.mono fun g' x hx => ?_)
  match x with
  | .ok none => trivial
  | .error e => trivial
  | .ok (some session) =>
    refine Prog.meets_ask_bind.mpr ⟨trivial, fun now => Prog.meets_ask_bind.mpr ⟨.inl (hx session rfl), fun _ => ?_⟩⟩
    exact meets_save _ (.inr rfl)

end Sessions

section Handlers

variable {cfg : Config} {kind : Kind} {c : CallId} {g : Knows}

theorem meets_session {α : Type} {p : SessionManager.Method Exc α} {post : Knows → Except Exc α → Prop}
    (hp : p.Meets preSession nextSession post g) : (session p).Meets (pre cfg kind) next post g :=
  hp.translate fun _ _ hq => Prog.meets_ask.mpr ⟨hq, fun r => ⟨r, rfl, rfl⟩⟩

theorem safeSession (cfg : Config) (kind : Kind) (c : CallId) : SafeSession (pre cfg kind) next cfg c where
  get _ := meets_session (meets_get.mono fun _ _ _ => trivial)
  endSession _ := meets_session meets_endSession
  remove _ := meets_session meets_remove
  addTurn role text _ := meets_session (meets_addTurn role text)
  clock _ := meets_session ⟨trivial, fun _ => trivial⟩

theorem pre_of_plain (g : Knows) (q : Query) (hq : Plain q) : pre cfg kind g q := by
  cases q <;> first | exact hq.elim | trivial

/-- The call is created by the callback, and its session is made after that. -/
theorem safe_createSession {request : CallbackRequest} (hauth : authenticate cfg request = .ok ())
    (payload : Exotel.ExotelCallback) (tenantId agentId : String) :
    (createSession cfg payload tenantId agentId).Safe (pre cfg (.callback request)) next := by
  refine Prog.Safe.bind (safe_ask pre_of_plain trivial) fun callId => ?_
  refine (safeSession cfg _ callId).clock.bind fun now => fun g => ?_
  refine Prog.meets_ask_bind.mpr ⟨⟨request, rfl, hauth⟩, fun r => ?_⟩
  cases r with
  | error e =>
    simp only [except?]
    split
    · trivial
    · trivial
  | ok a =>
    let call : CallCreateRequest := ⟨callId, tenantId, agentId, now, some payload.providerCallId, false⟩
    have hcall : (next g (.create call) (.ok a)).created call := .inr rfl
    have hsession : (session (SessionManager.create cfg.sessions callId tenantId agentId)).Meets
        (pre cfg (.callback request)) next (fun _ _ => True) (next g (.create call) (.ok a)) :=
      meets_session (meets_create hcall)
    show Prog.Meets _ _ _ (session _ >>= _) _
    refine Prog.meets_bind.mpr (hsession.mono fun g' x _ => ?_)
    cases x with
    | error e => trivial
    | ok a => exact ⟨trivial, fun _ => trivial⟩

/-- A websocket is accepted only if its session has been found. -/
theorem safe_voiceWebsocket (hallow : cfg.allowUnresolvedSessions = false) :
    (voiceWebsocket cfg c).Safe (pre cfg (.websocket c)) next := by
  refine Prog.Safe.bind (safe_ask pre_of_plain trivial) fun draining => ?_
  split
  · exact safe_close pre_of_plain _ _
  · refine fun g => Prog.meets_bind.mpr ((meets_session meets_get).mono fun g' x hx => ?_)
    match x with
    | .error e => trivial
    | .ok none =>
      dsimp only
      rw [hallow]
      exact safe_close pre_of_plain _ _ _
    | .ok (some session) =>
      refine Prog.meets_ask_bind.mpr ⟨⟨c, rfl, hx session rfl⟩, fun r => ?_⟩
      refine (safe_orRaise r).bind (fun _ => ?_) _
      refine Prog.Safe.bind (Prog.safe_ask fun _ => trivial) fun _ => ?_
      exact (safe_runCall pre_of_plain (safeSession cfg _ c)).tryFinally (Prog.safe_ask fun _ => trivial)

theorem safe_prog (hallow : cfg.allowUnresolvedSessions = false) (kind : Kind) :
    (kind.prog cfg).Safe (pre cfg kind) next := by
  cases kind with
  | websocket c => exact (safe_voiceWebsocket hallow).bind fun _ => Prog.safe_pure _
  | conversation c text =>
    exact (safe_converse pre_of_plain (safeSession cfg _ c) text).bind fun _ => Prog.safe_pure _
  | callback request =>
    refine (safe_callback pre_of_plain (safeSession cfg _) request fun hauth => ?_).bind fun _ => Prog.safe_pure _
    exact safe_createSession hauth

end Handlers

/-! ## The system -/

/-- Coroutine `h` is a callback that carries the configured token. -/
def Authentic (cfg : Config) (tasks : List Task) (h : Nat) : Prop :=
  ∃ t request, tasks[h]? = some t ∧ t.kind = .callback request ∧ request.token = some cfg.webhookToken

/-- Such a callback has created call `c` in the API, and its session. -/
def Created (cfg : Config) (tasks : List Task) (trace : List Event) (c : CallId) : Prop :=
  ∃ h call session, Authentic cfg tasks h ∧ call.callId = c ∧ IsNew call session ∧
    ⟨h, .create call, .ok ()⟩ ∈ trace ∧ ⟨h, .session (.memPut c session), ()⟩ ∈ trace

/-- There is a session of `c`, in Redis or in a process. -/
def HasSession (w : World) (c : CallId) : Prop := w.redis (key c) ≠ none ∨ ∃ i, (w.processes i).mem c ≠ none

/-- What coroutine `h` knows is so. -/
structure Justified (cfg : Config) (tasks : List Task) (trace : List Event) (h : Nat) (g : Knows) : Prop where
  seen : ∀ c, g.seen c → Created cfg tasks trace c
  created : ∀ call, g.created call → Authentic cfg tasks h ∧ ⟨h, .create call, .ok ()⟩ ∈ trace

structure Inv (cfg : Config) (w : World) : Prop where
  sessions : ∀ c, HasSession w c → Created cfg w.tasks w.trace c
  tasks : ∀ h t, w.tasks[h]? = some t →
    ∃ g, Justified cfg w.tasks w.trace h g ∧ t.prog.Meets (pre cfg t.kind) next (fun _ _ => True) g
  accepted : ∀ later earlier h r, w.trace = later ++ ⟨h, .accept, r⟩ :: earlier →
    ∃ t c, w.tasks[h]? = some t ∧ t.kind = .websocket c ∧ Created cfg w.tasks earlier c

/-- The coroutines are still there, each for what it was for. -/
def Kept (tasks tasks' : List Task) : Prop :=
  ∀ (h : Nat) (t : Task), tasks[h]? = some t → ∃ t' : Task, tasks'[h]? = some t' ∧ t'.kind = t.kind

section Monotone

variable {cfg : Config} {tasks tasks' : List Task} {trace trace' : List Event} {h : Nat} {c : CallId} {g : Knows}

theorem Authentic.mono (hk : Kept tasks tasks') (ha : Authentic cfg tasks h) : Authentic cfg tasks' h := by
  obtain ⟨t, request, ht, hkind, htoken⟩ := ha
  obtain ⟨t', ht', hkind'⟩ := hk h t ht
  exact ⟨t', request, ht', hkind'.trans hkind, htoken⟩

theorem Created.mono (hk : Kept tasks tasks') (ht : trace ⊆ trace') (hc : Created cfg tasks trace c) :
    Created cfg tasks' trace' c := by
  obtain ⟨h, call, session, ha, hid, hnew, hcreate, hput⟩ := hc
  exact ⟨h, call, session, ha.mono hk, hid, hnew, ht hcreate, ht hput⟩

theorem Justified.mono (hk : Kept tasks tasks') (ht : trace ⊆ trace') (hj : Justified cfg tasks trace h g) :
    Justified cfg tasks' trace' h g :=
  ⟨fun c hc => (hj.seen c hc).mono hk ht, fun call hc => ⟨(hj.created call hc).1.mono hk, ht (hj.created call hc).2⟩⟩

theorem kept_set {n : Nat} {t t' : Task} (ht : tasks[n]? = some t) (hkind : t'.kind = t.kind) :
    Kept tasks (tasks.set n t') := by
  intro h t₀ ht₀
  by_cases e : n = h
  · subst e
    obtain rfl : t = t₀ := Option.some.inj (ht.symm.trans ht₀)
    exact ⟨t', List.getElem?_set_self (List.getElem?_eq_some_iff.mp ht).1, hkind⟩
  · exact ⟨t₀, (List.getElem?_set_ne e).trans ht₀, rfl⟩

end Monotone

variable {cfg : Config} {w w' : World}

/-- A step that answers no call and makes no session. -/
theorem Inv.quiet (hI : Inv cfg w) (hk : Kept w.tasks w'.tasks) (htrace : w'.trace = w.trace)
    (hsession : ∀ c, HasSession w' c → HasSession w c)
    (htask : ∀ (h : Nat) (t' : Task), w'.tasks[h]? = some t' →
      (∃ t : Task, w.tasks[h]? = some t ∧ t'.kind = t.kind ∧ t'.prog = t.prog) ∨ t'.prog.Safe (pre cfg t'.kind) next) :
    Inv cfg w' := by
  have hsub : w.trace ⊆ w'.trace := by rw [htrace]; exact List.Subset.refl _
  refine ⟨fun c hc => (hI.sessions c (hsession c hc)).mono hk hsub, fun h t' ht' => ?_, fun later earlier h r e => ?_⟩
  · rcases htask h t' ht' with ⟨t, ht, hkind, hprog⟩ | hsafe
    · obtain ⟨g, hj, hmeets⟩ := hI.tasks h t ht
      rw [hkind, hprog]
      exact ⟨g, hj.mono hk hsub, hmeets⟩
    · exact ⟨⟨fun _ => False, fun _ => False⟩, ⟨fun _ hc => hc.elim, fun _ hc => hc.elim⟩, hsafe _⟩
  · obtain ⟨t, c, ht, hkind, hc⟩ := hI.accepted later earlier h r (htrace ▸ e)
    obtain ⟨t', ht', hkind'⟩ := hk h t ht
    exact ⟨t', c, ht', hkind'.trans hkind, hc.mono hk (List.Subset.refl _)⟩

theorem Inv.spawn (hallow : cfg.allowUnresolvedSessions = false) (hI : Inv cfg w) (i : Nat) (kind : Kind) :
    Inv cfg (w.spawn cfg i kind) := by
  rcases spawn_cases cfg w i kind with e | ⟨current, e⟩
  · rw [e]; exact hI
  · rw [e]
    refine hI.quiet (fun h t ht => ⟨t, ?_, rfl⟩) rfl (fun c hc => ?_) fun h t' ht' => ?_
    · exact (List.getElem?_append_left (List.getElem?_eq_some_iff.mp ht).1).trans ht
    · exact hc.imp_right fun ⟨j, hj⟩ => ⟨j, by rwa [withCurrent_mem] at hj⟩
    · rcases getElem?_concat_cases ht' with ht' | ⟨-, rfl⟩
      · exact .inl ⟨t', ht', rfl, rfl⟩
      · exact .inr (safe_prog hallow kind)

theorem Inv.restart (hI : Inv cfg w) (i : Nat) :
    Inv cfg { w.setProcess i .init with tasks := w.tasks.map (Task.restart i) } := by
  refine hI.quiet (fun h t ht => ⟨t.restart i, ?_, ?_⟩) rfl (fun c hc => ?_) fun h t' ht' => .inl ?_
  · rw [List.getElem?_map, ht]; rfl
  · unfold Task.restart; split <;> rfl
  · refine hc.imp_right fun ⟨j, hj⟩ => ⟨j, ?_⟩
    dsimp only at hj
    rw [setProcess_processes] at hj
    split at hj
    · exact absurd rfl hj
    · exact hj
  · rw [List.getElem?_map] at ht'
    obtain ⟨t, ht, rfl⟩ := Option.map_eq_some_iff.mp ht'
    refine ⟨t, ht, ?_⟩
    unfold Task.restart
    split <;> exact ⟨rfl, rfl⟩

/-- A process changes in anything but its `_mem`. -/
theorem Inv.setProcess (hI : Inv cfg w) {i : Nat} {p : Process} (hp : p.mem = (w.processes i).mem) :
    Inv cfg (w.setProcess i p) := by
  refine hI.quiet (fun h t ht => ⟨t, ht, rfl⟩) rfl (fun c hc => ?_) fun h t ht => .inl ⟨t, ht, rfl, rfl⟩
  refine hc.imp_right fun ⟨j, hj⟩ => ⟨j, ?_⟩
  rw [setProcess_processes] at hj
  split at hj
  · rename_i e
    rw [hp] at hj
    rw [e]
    exact hj
  · exact hj

/-- Redis drops a key. -/
theorem Inv.expire (hI : Inv cfg w) (k : String) : Inv cfg { w with redis := Function.update w.redis k none } := by
  refine hI.quiet (fun h t ht => ⟨t, ht, rfl⟩) rfl (fun c hc => ?_) fun h t ht => .inl ⟨t, ht, rfl, rfl⟩
  refine hc.imp_left fun hr => ?_
  dsimp only at hr
  rw [Function.update_apply] at hr
  split at hr
  · exact absurd rfl hr
  · exact hr

theorem token_of_authenticate {request : CallbackRequest} (h : authenticate cfg request = .ok ()) :
    request.token = some cfg.webhookToken := by
  unfold authenticate at h
  cases hf : request.token.filter (· ≠ "") with
  | none => rw [hf] at h; cases h
  | some token =>
    rw [hf] at h
    have htoken : token = cfg.webhookToken := by
      simp only [compareDigest] at h
      split at h
      · rename_i heq
        split at heq
        · simpa using heq
        · cases heq
      · cases h
      · cases h
    rw [← htoken]
    exact Option.eq_some_of_filter_eq_some hf

section Answer

variable {g : Knows} {c : CallId} {i : Nat} {outcome : SessionManager.Outcome} {env : (q : Query) → Reply q} {q : Query}

theorem mem_answer {s : SessionManager.Store} {q : SessionManager.Query} (h : (s.answer q).1.mem c ≠ none) :
    s.mem c ≠ none ∨ ∃ session, q = .memPut c session := by
  cases q with
  | memPut d session =>
    by_cases e : c = d
    · exact .inr ⟨session, by rw [e]⟩
    · exact .inl (by simpa only [SessionManager.Store.answer, Function.update_of_ne e] using h)
  | memPop d =>
    by_cases e : c = d
    · exact absurd (by rw [e]; exact Function.update_self ..) h
    · exact .inl (by simpa only [SessionManager.Store.answer, Function.update_of_ne e] using h)
  | redisSet k value => exact .inl h
  | redisDelete k => exact .inl h
  | _ => exact .inl h

theorem redis_write {s : SessionManager.Store} {k k' : String} {value : Option String}
    (h : (s.write k' value).1.redis k ≠ none) : s.redis k ≠ none ∨ k = k' ∧ value ≠ none := by
  simp only [SessionManager.Store.write] at h
  split at h
  · exact .inl h
  · rw [Function.update_apply] at h
    split at h
    · rename_i e; exact .inr ⟨e, h⟩
    · exact .inl h

theorem redis_answer {s : SessionManager.Store} {q : SessionManager.Query} {k : String}
    (h : (s.answer q).1.redis k ≠ none) : s.redis k ≠ none ∨ ∃ value, q = .redisSet k value := by
  cases q with
  | redisSet k' value => exact (redis_write h).imp_right fun ⟨e, _⟩ => ⟨value, by rw [e]⟩
  | redisDelete k' => exact .inl ((redis_write h).resolve_right fun ⟨_, e⟩ => e rfl)
  | _ => exact .inl h

theorem hasSession_serve (h : HasSession (w.serve i outcome env q).1 c) :
    HasSession w c ∨ (∃ session, q = .session (.memPut c session)) ∨ ∃ value, q = .session (.redisSet (key c) value) := by
  cases q with
  | session q =>
    rcases h with hr | ⟨j, hm⟩
    · rcases redis_answer hr with hr | ⟨value, rfl⟩
      · exact .inl (.inl hr)
      · exact .inr (.inr ⟨value, rfl⟩)
    · simp only [World.serve, setProcess_processes] at hm
      split at hm
      · rcases mem_answer hm with hm | ⟨session, rfl⟩
        · exact .inl (.inr ⟨i, hm⟩)
        · exact .inr (.inl ⟨session, rfl⟩)
      · exact .inl (.inr ⟨j, hm⟩)
  | onCallStarted =>
    refine .inl (h.imp_right fun ⟨j, hm⟩ => ⟨j, ?_⟩)
    simp only [World.serve, setProcess_processes] at hm
    split at hm
    · rename_i e; rwa [e]
    · exact hm
  | onCallEnded =>
    refine .inl (h.imp_right fun ⟨j, hm⟩ => ⟨j, ?_⟩)
    simp only [World.serve, setProcess_processes] at hm
    split at hm
    · rename_i e; rwa [e]
    · exact hm
  | _ => exact .inl h

/-- What a handler sees is there, unless it has put it there. -/
theorem seen_next (h : (next g q (w.serve i outcome env q).2).seen c) :
    g.seen c ∨ HasSession w c ∨ ∃ session, q = .session (.memPut c session) := by
  cases q with
  | session q =>
    cases q with
    | memGet d =>
      simp only [next, World.serve, SessionManager.Store.answer] at h
      cases hm : (w.processes i).mem d with
      | none => rw [hm] at h; exact .inl h
      | some session =>
        rw [hm] at h
        rcases h with h | rfl
        · exact .inl h
        · exact .inr (.inl (.inr ⟨i, by rw [hm]; exact Option.some_ne_none _⟩))
    | memPut d session =>
      rcases h with h | rfl
      · exact .inl h
      · exact .inr (.inr ⟨session, rfl⟩)
    | redisGet k =>
      simp only [next, World.serve, SessionManager.Store.answer] at h
      split at h
      · cases hr : w.redis k with
        | none => rw [hr] at h; exact .inl h
        | some raw =>
          rw [hr] at h
          rcases h with h | rfl
          · exact .inl h
          · exact .inr (.inl (.inl (by rw [hr]; exact Option.some_ne_none _)))
      · exact .inl h
    | _ => exact .inl h
  | create call =>
    generalize (w.serve i outcome env (.create call)).2 = r at h
    cases r <;> exact .inl h
  | _ => exact .inl h

theorem created_next {n : Nat} {r : Reply q} {call : CallCreateRequest} (h : (next g q r).created call) :
    g.created call ∨ (⟨n, q, r⟩ : Event) = ⟨n, .create call, .ok ()⟩ := by
  cases q with
  | session q =>
    have hsame : (nextSession g q r).created = g.created := by
      unfold nextSession
      split <;> rfl
    exact .inl (by rwa [next, hsame] at h)
  | create call' =>
    cases r with
    | ok a =>
      rcases h with h | rfl
      · exact .inl h
      · exact .inr rfl
    | error e => exact .inl h
  | _ => exact .inl h

end Answer

/-- What coroutine `n` puts into `_mem`, it has seen or has made for a call just created. -/
theorem created_of_memPut {n : Nat} {t : Task} {g : Knows} {c : CallId} {session : Session}
    {tasks' : List Task} (hk : Kept w.tasks tasks') (hj : Justified cfg w.tasks w.trace n g)
    (hpre : pre cfg t.kind g (.session (.memPut c session))) :
    Created cfg tasks' (⟨n, .session (.memPut c session), ()⟩ :: w.trace) c := by
  rcases hpre with hseen | ⟨call, hcall, hid, hnew⟩
  · exact (hj.seen c hseen).mono hk (List.subset_cons_self ..)
  · obtain ⟨hauth, hcreate⟩ := hj.created call hcall
    exact ⟨n, call, session, hauth.mono hk, hid, hnew, List.mem_cons_of_mem _ hcreate, List.mem_cons_self ..⟩

theorem hasSession_resume {n : Nat} {t : Task} {q : Query} {r : Reply q} {rest : Handler (Option Exotel.Reply)} {c : CallId}
    (h : HasSession (w.resume n t q r rest) c) : HasSession w c := by
  refine h.imp_right fun ⟨j, hm⟩ => ⟨j, ?_⟩
  rwa [← withCurrent_mem w t.inst j]

/-- A coroutine has its call answered. -/
theorem Inv.go (hI : Inv cfg w) (n : Nat) (outcome : SessionManager.Outcome) (env : (q : Query) → Reply q) :
    Inv cfg (step cfg w (.go n outcome env)) := by
  rcases go_cases cfg w n outcome env with e | ⟨t, q, k, ht, hq, -, e⟩
  · rw [e]; exact hI
  rw [e]
  obtain ⟨g, hj, hmeets⟩ := hI.tasks n t ht
  rw [hq] at hmeets
  obtain ⟨hpre, hrest⟩ := hmeets
  let t' := taskAfter t q (k (w.serve t.inst outcome env q).2)
  have hk : Kept w.tasks (w.tasks.set n t') := kept_set ht rfl
  have hsub : w.trace ⊆ ⟨n, q, (w.serve t.inst outcome env q).2⟩ :: w.trace := List.subset_cons_self ..
  have hput : ∀ c, (∃ session, q = .session (.memPut c session)) →
      Created cfg (w.tasks.set n t') (⟨n, q, (w.serve t.inst outcome env q).2⟩ :: w.trace) c := by
    rintro c ⟨session, rfl⟩
    exact created_of_memPut hk hj hpre
  refine ⟨fun c hc => ?_, fun h t₁ ht₁ => ?_, fun later earlier h r e => ?_⟩
  · simp only [resume_tasks, resume_trace, serve_tasks, serve_trace]
    rcases hasSession_serve (hasSession_resume hc) with hc | hput' | ⟨value, rfl⟩
    · exact (hI.sessions c hc).mono hk hsub
    · exact hput c hput'
    · obtain ⟨d, hkey, hseen⟩ := hpre
      obtain rfl := SessionOps.key_injective hkey
      exact (hj.seen _ hseen).mono hk hsub
  · simp only [resume_tasks, resume_trace, serve_tasks, serve_trace] at ht₁ ⊢
    rcases getElem?_set_cases ht₁ with ⟨rfl, rfl⟩ | ⟨-, ht₁⟩
    · refine ⟨next g q _, ⟨fun c hc => ?_, fun call hc => ?_⟩, hrest _⟩
      · rcases seen_next hc with hc | hc | hput'
        · exact (hj.seen c hc).mono hk hsub
        · exact (hI.sessions c hc).mono hk hsub
        · exact hput c hput'
      · rcases created_next (n := h) hc with hc | hnew
        · exact ⟨(hj.created call hc).1.mono hk, hsub (hj.created call hc).2⟩
        · obtain rfl : q = .create call := congrArg Event.query hnew
          obtain ⟨request, hkind, hauth⟩ := hpre
          refine ⟨⟨t', request, List.getElem?_set_self (List.getElem?_eq_some_iff.mp ht).1, hkind, ?_⟩, ?_⟩
          · exact token_of_authenticate hauth
          · rw [← hnew]
            exact List.mem_cons_self ..
    · obtain ⟨g₁, hj₁, hmeets₁⟩ := hI.tasks h t₁ ht₁
      exact ⟨g₁, hj₁.mono hk hsub, hmeets₁⟩
  · simp only [resume_tasks, resume_trace, serve_tasks, serve_trace] at e ⊢
    rcases List.cons_eq_append_iff.mp e with ⟨rfl, hsplit⟩ | ⟨later, rfl, hsplit⟩
    · obtain ⟨hev, rfl⟩ := List.cons.inj hsplit
      obtain rfl : h = n := congrArg Event.task hev
      obtain rfl : q = .accept := (congrArg Event.query hev).symm
      obtain ⟨c, hkind, hseen⟩ := hpre
      refine ⟨t', c, List.getElem?_set_self (List.getElem?_eq_some_iff.mp ht).1, hkind, ?_⟩
      exact (hj.seen c hseen).mono hk (List.Subset.refl _)
    · obtain ⟨t₁, c, ht₁, hkind, hc⟩ := hI.accepted later earlier h r hsplit
      obtain ⟨t₂, ht₂, hkind₂⟩ := hk h t₁ ht₁
      exact ⟨t₂, c, ht₂, hkind₂.trans hkind, hc.mono hk (List.Subset.refl _)⟩

theorem drainLoop_mem (p : Process) (waited : Int) : (p.drainLoop cfg waited).mem = p.mem := by
  unfold Process.drainLoop
  repeat' split
  all_goals rfl

theorem shutdown_mem (p : Process) : (p.shutdown cfg).mem = p.mem := by
  unfold Process.shutdown
  split
  · exact drainLoop_mem _ _
  · rfl

theorem wake_mem (p : Process) : (p.wake cfg).mem = p.mem := by
  unfold Process.wake
  split
  · exact drainLoop_mem _ _
  · rfl

theorem inv_step (hallow : cfg.allowUnresolvedSessions = false) (hI : Inv cfg w) (a : Action) :
    Inv cfg (step cfg w a) := by
  cases a with
  | tick d => exact hI.quiet (fun h t ht => ⟨t, ht, rfl⟩) rfl (fun c hc => hc) fun h t ht => .inl ⟨t, ht, rfl, rfl⟩
  | expire k => exact hI.expire k
  | connect i callId => exact hI.spawn hallow i _
  | callback i request => exact hI.spawn hallow i _
  | turn h text =>
    rcases turn_cases cfg w h text with e | ⟨t, callId, -, -, -, -, e⟩ <;> rw [e]
    · exact hI
    · exact hI.spawn hallow _ _
  | go h outcome env => exact hI.go h outcome env
  | shutdown i => exact hI.setProcess (shutdown_mem _)
  | wake i => exact hI.setProcess (wake_mem _)
  | restart i => exact hI.restart i

theorem inv_init (cfg : Config) (now : Time) : Inv cfg (.init now) where
  sessions c hc := by rcases hc with hc | ⟨i, hc⟩ <;> exact absurd rfl hc
  tasks h t ht := by simp [World.init] at ht
  accepted later earlier h r e := by simp [World.init] at e

/-! ## Websockets and the sessions of other calls -/

/-- A coroutine for the websocket of call `c`. -/
def ServesCall (c : CallId) (kind : Kind) : Prop := kind = .websocket c ∨ ∃ text, kind = .conversation c text

/-- A call that concerns the session of no call but `c`. -/
def Within (c : CallId) : Query → Prop
  | .session q => SessionOps.About c q
  | _ => True

theorem within_of_plain {c : CallId} (_ : Unit) (q : Query) (hq : Plain q) : Within c q := by
  cases q <;> first | exact hq.elim | trivial

theorem only_voiceWebsocket (cfg : Config) (c : CallId) : (voiceWebsocket cfg c).Only (Within c) := by
  have hrun : (runCall cfg c).Only (Within c) := safe_runCall within_of_plain (safeSession_only fun _ hq => hq)
  have haccept : (acceptCall cfg c).Only (Within c) := by
    refine Prog.Safe.bind (Prog.only_ask trivial) fun r => (safe_orRaise r).bind fun _ => ?_
    exact Prog.Safe.bind (Prog.only_ask trivial) fun _ => hrun.tryFinally (Prog.only_ask trivial)
  refine Prog.Safe.bind (Prog.only_ask trivial) fun draining => ?_
  split
  · exact safe_close within_of_plain _ _
  · refine (only_session SessionOps.only_get fun _ hq => hq).bind fun existing => ?_
    cases existing with
    | some session => exact haccept
    | none =>
      dsimp only
      split
      · exact safe_close within_of_plain _ _
      · exact (only_session (SessionOps.only_create _ _) fun _ hq => hq).bind fun _ => haccept

theorem only_prog {c : CallId} {kind : Kind} (h : ServesCall c kind) : (kind.prog cfg).Only (Within c) := by
  rcases h with rfl | ⟨text, rfl⟩
  · exact (only_voiceWebsocket cfg c).bind fun _ => Prog.safe_pure _
  · have hconverse : (converse cfg c text).Only (Within c) :=
      safe_converse within_of_plain (safeSession_only fun _ hq => hq) text
    exact hconverse.bind fun _ => Prog.safe_pure _

theorem tasks_within (cfg : Config) (now : Time) (as : List Action) :
    ∀ t ∈ (run (step cfg) (.init now) as).tasks, ∀ c, ServesCall c t.kind → t.prog.Only (Within c) := by
  refine tasks_run (T := fun kind p => ∀ c, ServesCall c kind → p.Only (Within c)) (fun _ _ h => only_prog h) ?_ now as
  exact fun kind q k r h c hc _ => (h c hc ()).2 r

/-- The sessions of `d` are as they were. -/
def SameSessions (d : CallId) (w w' : World) : Prop :=
  w'.redis (key d) = w.redis (key d) ∧ ∀ i, (w'.processes i).mem d = (w.processes i).mem d

theorem sameSessions_refl (d : CallId) (w : World) : SameSessions d w w := ⟨rfl, fun _ => rfl⟩

theorem sameSessions_spawn (cfg : Config) (d : CallId) (w : World) (i : Nat) (kind : Kind) :
    SameSessions d w (w.spawn cfg i kind) := by
  rcases spawn_cases cfg w i kind with e | ⟨current, e⟩ <;> rw [e]
  · exact sameSessions_refl d w
  · exact ⟨rfl, fun j => congrFun (withCurrent_mem w i j current) d⟩

/-- The answer to a call for `c` leaves the sessions of `d` as they are. -/
theorem sameSessions_serve {c d : CallId} (hcd : d ≠ c) {q : Query} (hq : Within c q) (w : World) (i : Nat)
    (outcome : SessionManager.Outcome) (env : (q : Query) → Reply q) :
    SameSessions d w (w.serve i outcome env q).1 := by
  cases q with
  | session q =>
    obtain ⟨hmem, hredis⟩ := SessionOps.answer_of_ne (s := ⟨(w.processes i).mem, w.redis, w.now, [outcome]⟩) hcd hq
    refine ⟨hredis, fun j => ?_⟩
    simp only [World.serve, setProcess_processes]
    split
    · rename_i e; rw [e]; exact hmem
    · rfl
  | onCallStarted =>
    refine ⟨rfl, fun j => ?_⟩
    simp only [World.serve, setProcess_processes]
    split
    · rename_i e; rw [e]
    · rfl
  | onCallEnded =>
    refine ⟨rfl, fun j => ?_⟩
    simp only [World.serve, setProcess_processes]
    split
    · rename_i e; rw [e]
    · rfl
  | _ => exact sameSessions_refl d w

/-- A step of a websocket for `c`: it connects, or one of its coroutines starts or goes on. -/
def ByWebsocket (c : CallId) (w : World) : Action → Prop
  | .connect _ callId => callId = c
  | .turn h _ | .go h _ _ => ∃ t, w.tasks[h]? = some t ∧ ServesCall c t.kind
  | _ => False

theorem sameSessions_step {c d : CallId} (hcd : d ≠ c) {w : World}
    (hw : ∀ t ∈ w.tasks, ∀ c, ServesCall c t.kind → t.prog.Only (Within c)) {a : Action} (ha : ByWebsocket c w a) :
    SameSessions d w (step cfg w a) := by
  cases a with
  | connect i callId => exact sameSessions_spawn cfg d w i _
  | turn h text =>
    rcases turn_cases cfg w h text with e | ⟨t, callId, -, -, -, -, e⟩ <;> rw [e]
    · exact sameSessions_refl d w
    · exact sameSessions_spawn cfg d w _ _
  | go h outcome env =>
    rcases go_cases cfg w h outcome env with e | ⟨t, q, k, ht, hq, -, e⟩ <;> rw [e]
    · exact sameSessions_refl d w
    · obtain ⟨t', ht', hserves⟩ := ha
      obtain rfl : t = t' := Option.some.inj (ht.symm.trans ht')
      have honly := hw t (List.mem_of_getElem? ht) c hserves
      rw [hq] at honly
      obtain ⟨hredis, hmem⟩ := sameSessions_serve hcd (honly ()).1 w t.inst outcome env
      refine ⟨hredis, fun j => ?_⟩
      rw [← hmem j]
      exact congrFun (withCurrent_mem (w.serve t.inst outcome env q).1 t.inst j _) d
  | _ => exact ha.elim

/-- Whatever happens, with any number of gateway processes: before a websocket is
accepted, a callback with the configured token has created its call in the API and
its session; so it is with every call that has a session; and no step of a
websocket touches the session of another call. -/
theorem accepted_authenticated (cfg : Config) (hallow : cfg.allowUnresolvedSessions = false) (now : Time)
    (as : List Action) :
    let w := run (step cfg) (.init now) as
    (∀ later earlier h r, w.trace = later ++ ⟨h, .accept, r⟩ :: earlier →
      ∃ t c, w.tasks[h]? = some t ∧ t.kind = .websocket c ∧ Created cfg w.tasks earlier c) ∧
    (∀ c, HasSession w c → Created cfg w.tasks w.trace c) ∧
    (∀ a c d, ByWebsocket c w a → d ≠ c → SameSessions d w (step cfg w a)) := by
  intro w
  have hI : Inv cfg w := run_inv (inv_init cfg now) (fun _ a hI => inv_step hallow hI a) as
  exact ⟨hI.accepted, hI.sessions, fun a c d ha hcd => sameSessions_step hcd (tasks_within cfg now as) ha⟩

/-- What the handlers are given when everything works and the call is `c1`. -/
def answers : (q : Query) → Reply q
  | .session .now => 0
  | .session (.memGet _) => none
  | .session (.memPut _ _) => ()
  | .session (.memPop _) => ()
  | .session (.redisGet _) => .ok none
  | .session (.redisSet _ _) => .ok ()
  | .session (.redisDelete _) => .ok ()
  | .isDraining => false
  | .onCallStarted => ()
  | .onCallEnded => ()
  | .transport => .ok ()
  | .uuid4 => "c1"
  | .storeGet _ => none
  | .storeSet _ _ => ()
  | .storeDelete _ => ()
  | .close _ _ => .ok ()
  | .accept => .ok ()
  | .parseTelephonyWebsocket => .ok ()
  | .addWorkers => .ok ()
  | .run => .ok ()
  | .cleanup => .ok ()
  | .generateResponse => .ok "Hello! How can I help you?"
  | .pushFrame _ => .ok ()
  | .record _ => .ok false
  | .resolve _ => .ok ("t1", "a1")
  | .create _ => .ok ()
  | .finalize _ _ => .ok ()

/-- A start event with the token, and then the websocket of its call, up to its acceptance. -/
def oneCall : List Action :=
  .callback 0 ⟨some "secret", none, some ⟨"CA7", "Connected", some "+919", none, by decide, by decide⟩⟩ ::
    List.replicate 9 (.go 0 .done answers) ++ .connect 0 "c1" :: List.replicate 3 (.go 1 .done answers)

/-- A gateway with some codec. -/
noncomputable def gateway : Config where
  sessions :=
    { codec := (SessionCache.exists_codec SessionCache.callerSession SessionCache.callerText (by decide)).choose
      redis := true }
  allowUnresolvedSessions := false
  drainTimeoutSeconds := 300
  webhookToken := "secret"
  routing := true
  lower s := String.ofList (s.toList.map Char.toLower)

theorem accepted_authenticated_one_call :
    let w := run (step gateway) (.init 0) oneCall
    ∃ h r earlier t c, w.trace = ⟨h, .accept, r⟩ :: earlier ∧ w.tasks[h]? = some t ∧ t.kind = .websocket c ∧
      Created gateway w.tasks earlier c := by
  intro w
  obtain ⟨h, -⟩ := accepted_authenticated gateway rfl 0 oneCall
  have hhead : (w.trace.map fun e => decide (e.query = .accept)).head? = some true := by decide +kernel
  cases htrace : w.trace with
  | nil => rw [htrace] at hhead; cases hhead
  | cons e earlier =>
    obtain ⟨n, q, r⟩ := e
    rw [htrace] at hhead
    obtain rfl : q = .accept := by simpa using hhead
    obtain ⟨t, c, ht, hkind, hc⟩ := h [] earlier n r htrace
    exact ⟨n, r, earlier, t, c, rfl, ht, hkind, hc⟩

end CallingAgent.Proof.Gateway.Authenticated
