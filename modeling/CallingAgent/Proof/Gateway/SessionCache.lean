import Mathlib.Data.Countable.Basic
import Mathlib.Logic.Equiv.List
import CallingAgent.Proof.Gateway.SessionOps
import CallingAgent.Spec.CallSessions

/-!
# The cache of the session manager

`_mem` is a cache of what is in Redis: as long as Redis does not fail, every
session in it is the one whose JSON is stored (`Coherent`), and each method acts
on what is stored as on the one copy of `Spec.CallSessions` (`exec_spec`). What
is stored outlives a restart, so a restart goes unnoticed.
-/

namespace CallingAgent.Proof.Gateway.SessionCache

open CallingAgent.Framework CallingAgent.Impl CallingAgent.Impl.SessionManager CallingAgent.Spec.CallSessions
  CallingAgent.Proof.Gateway.SessionOps

/-- The sessions stored in Redis. -/
def view (cfg : Config) (s : Store) : Sessions := fun c => (s.redis (key c)).map cfg.codec.loads

/-- Redis holds texts of sessions, those in `_mem` among them, and does not fail. -/
structure Coherent (cfg : Config) (s : Store) : Prop where
  faults : s.faults = []
  written : ∀ c text, s.redis (key c) = some text → ∃ session, text = cfg.codec.dumps session
  mem : ∀ c session, s.mem c = some session → s.redis (key c) = some (cfg.codec.dumps session)

variable {cfg : Config} {s : Store} {c : CallId}

theorem Coherent.view_of_mem (h : Coherent cfg s) {session : Session} (hm : s.mem c = some session) :
    view cfg s c = some session := by
  rw [view, h.mem c session hm, Option.map_some, cfg.codec.loads_dumps]

theorem Coherent.redis_of_view (h : Coherent cfg s) {session : Session} (hv : view cfg s c = some session) :
    s.redis (key c) = some (cfg.codec.dumps session) := by
  obtain ⟨text, htext, hload⟩ := Option.map_eq_some_iff.mp hv
  obtain ⟨session', rfl⟩ := h.written c text htext
  rw [cfg.codec.loads_dumps] at hload
  rw [htext, hload]

theorem Coherent.mem_of_view_none (h : Coherent cfg s) (hv : view cfg s c = none) : s.mem c = none := by
  cases hm : s.mem c with
  | none => rfl
  | some session => rw [h.view_of_mem hm] at hv; cases hv

/-- What is in `_mem`, or else in Redis, is what is in Redis. -/
theorem Coherent.update_mem (h : Coherent cfg s) :
    Coherent cfg { s with mem := Function.update s.mem c (view cfg s c) } := by
  refine ⟨h.faults, h.written, fun d session hd => ?_⟩
  dsimp only at hd ⊢
  by_cases e : d = c
  · subst e
    rw [Function.update_self] at hd
    exact h.redis_of_view hd
  · rw [Function.update_of_ne e] at hd
    exact h.mem d session hd

/-- Both copies of a session are written, or deleted. -/
theorem Coherent.set (h : Coherent cfg s) (x : Option Session) {mem : CallId → Option Session}
    (hmem : ∀ d session, mem d = some session → d = c ∧ x = some session ∨ d ≠ c ∧ s.mem d = some session) :
    Coherent cfg { s with mem := mem, redis := Function.update s.redis (key c) (x.map cfg.codec.dumps) } := by
  refine ⟨h.faults, fun d text hd => ?_, fun d session hd => ?_⟩
  · dsimp only at hd
    by_cases e : d = c
    · subst e
      rw [Function.update_self] at hd
      obtain ⟨session, -, htext⟩ := Option.map_eq_some_iff.mp hd
      exact ⟨session, htext.symm⟩
    · rw [Function.update_of_ne fun k => e (key_injective k)] at hd
      exact h.written d text hd
  · rcases hmem d session hd with ⟨rfl, hx⟩ | ⟨e, hd⟩
    · simp [hx]
    · dsimp only
      rw [Function.update_of_ne fun k => e (key_injective k)]
      exact h.mem d session hd

theorem Coherent.update (h : Coherent cfg s) (x : Option Session) :
    Coherent cfg { s with
      mem := Function.update s.mem c x
      redis := Function.update s.redis (key c) (x.map cfg.codec.dumps) } := by
  refine h.set x fun d session hd => ?_
  by_cases e : d = c
  · subst e
    rw [Function.update_self] at hd
    exact .inl ⟨rfl, hd⟩
  · rw [Function.update_of_ne e] at hd
    exact .inr ⟨e, hd⟩

theorem view_update (x : Option Session) {mem : CallId → Option Session} :
    view cfg { s with mem := mem, redis := Function.update s.redis (key c) (x.map cfg.codec.dumps) } =
      Function.update (view cfg s) c x := by
  funext d
  simp only [view]
  by_cases e : d = c
  · subst e
    rw [Function.update_self, Function.update_self]
    cases x <;> simp [cfg.codec.loads_dumps]
  · rw [Function.update_of_ne e, Function.update_of_ne fun k => e (key_injective k)]
    rfl

/-! ## The methods without faults -/

section

variable (hr : cfg.redis = true)

include hr

theorem serve_save (hf : s.faults = []) (session : Session) :
    (save (E := Empty) cfg c session).serve Store.answer s =
      ({ s with redis := Function.update s.redis (key c) (some (cfg.codec.dumps session)) }, .ok ()) := by
  simp [save, hr, Store.answer, Store.write, Store.outcome, hf]

theorem serve_load (hf : s.faults = []) (hw : ∀ text, s.redis (key c) = some text → ∃ x, text = cfg.codec.dumps x) :
    (load (E := Empty) cfg c).serve Store.answer s = (s, .ok (view cfg s c)) := by
  have hs : { s with faults := [] } = s := congrArg (Store.mk _ _ _) hf.symm
  simp only [load, hr, if_true, Prog.serve_ask_bind, Store.answer, Store.outcome, hf, List.headD_nil,
    List.tail_nil, hs]
  cases hv : s.redis (key c) with
  | none => simp [view, hv]
  | some text =>
    obtain ⟨session, rfl⟩ := hw text hv
    simp [view, hv, cfg.codec.dumps_ne_empty]

theorem serve_get (h : Coherent cfg s) :
    (SessionManager.get (E := Empty) cfg c).serve Store.answer s =
      ({ s with mem := Function.update s.mem c (view cfg s c) }, .ok (view cfg s c)) := by
  cases hm : s.mem c with
  | some session => rw [serve_get_of_mem hm, h.view_of_mem hm, update_mem_eq_self hm]
  | none =>
    simp only [SessionManager.get, Prog.serve_ask_bind, Store.answer, hm]
    rw [Prog.serve_bind, serve_load hr h.faults (h.written c)]
    cases hv : view cfg s c with
    | none => rw [update_mem_eq_self hm]; rfl
    | some session => rfl

/-- `end` reads and writes the two copies one after the other. -/
theorem serve_endSession (h : Coherent cfg s) :
    (endSession (E := Empty) cfg c).serve Store.answer s =
      ({ s with
          mem := Function.update s.mem c ((s.mem c).map Session.ended)
          redis := Function.update s.redis (key c) (((view cfg s c).map Session.ended).map cfg.codec.dumps) },
        .ok ()) := by
  rw [endSession, Prog.serve_bind, serve_endMem]
  dsimp only
  have hload : (load (E := Empty) cfg c).serve Store.answer
      { s with mem := Function.update s.mem c ((s.mem c).map Session.ended) } = (_, .ok (view cfg s c)) :=
    serve_load hr h.faults (h.written c)
  rw [Prog.serve_bind, hload]
  cases hv : view cfg s c with
  | none =>
    have hredis : s.redis (key c) = none := Option.map_eq_none_iff.mp hv
    rw [Option.map_none, Option.map_none, ← hredis, Function.update_eq_self]
    rfl
  | some session =>
    have hf : { s with mem := Function.update s.mem c ((s.mem c).map Session.ended) }.faults = [] := h.faults
    exact serve_save hr hf session.ended

theorem serve_remove (hf : s.faults = []) :
    (remove (E := Empty) cfg c).serve Store.answer s =
      ({ s with mem := Function.update s.mem c none, redis := Function.update s.redis (key c) none }, .ok ()) := by
  simp [remove, hr, Store.answer, Store.write, Store.outcome, hf]

theorem serve_create (hf : s.faults = []) (tenantId agentId : String) :
    (create (E := Empty) cfg c tenantId agentId).serve Store.answer s =
      ({ s with
          mem := Function.update s.mem c (some ⟨c, tenantId, agentId, s.now, .active, none⟩)
          redis := Function.update s.redis (key c)
            (some (cfg.codec.dumps ⟨c, tenantId, agentId, s.now, .active, none⟩)) }, .ok ()) := by
  simp only [create, Prog.serve_ask_bind, Store.answer]
  rw [serve_save hr (by exact hf)]

theorem serve_addTurn (h : Coherent cfg s) (role : Role) (text : String) :
    (addTurn (E := Empty) cfg c role text).serve Store.answer s =
      match view cfg s c with
      | none => (s, .ok ())
      | some session =>
        ({ s with
            mem := Function.update s.mem c (some (session.addTurn ⟨role, text, s.now⟩))
            redis := Function.update s.redis (key c)
              (some (cfg.codec.dumps (session.addTurn ⟨role, text, s.now⟩))) }, .ok ()) := by
  rw [addTurn, Prog.serve_bind, serve_get hr h]
  cases hv : view cfg s c with
  | none =>
    rw [update_mem_eq_self (h.mem_of_view_none hv)]
    rfl
  | some session =>
    simp only [Prog.serve_ask_bind, Store.answer, Function.update_idem]
    rw [serve_save hr (by exact h.faults)]

/-- One call: the copies stay the same, and what is stored changes, and the result
is, as if it were the only copy. -/
theorem exec_spec (h : Coherent cfg s) (op : Op) :
    Coherent cfg (s.exec cfg op).1 ∧ view cfg (s.exec cfg op).1 = apply s.now (view cfg s) op ∧
      (s.exec cfg op).1.now = s.now ∧ (s.exec cfg op).2 = result (view cfg s) op := by
  cases op with
  | create c tenantId agentId =>
    simp only [Store.exec, Op.prog, Prog.serve_bind, Prog.serve_pure, serve_create hr h.faults]
    exact ⟨h.update (some _), view_update (some _), trivial, rfl⟩
  | get c =>
    rw [Store.exec, Op.prog, serve_get hr h]
    exact ⟨h.update_mem, rfl, rfl, rfl⟩
  | endSession c =>
    simp only [Store.exec, Op.prog, Prog.serve_bind, Prog.serve_pure, serve_endSession hr h]
    refine ⟨h.set _ fun d session hd => ?_, view_update _, trivial, rfl⟩
    by_cases e : d = c
    · subst e
      rw [Function.update_self] at hd
      obtain ⟨x, hx, hd⟩ := Option.map_eq_some_iff.mp hd
      rw [h.view_of_mem hx, ← hd]
      exact .inl ⟨rfl, rfl⟩
    · rw [Function.update_of_ne e] at hd
      exact .inr ⟨e, hd⟩
  | remove c =>
    simp only [Store.exec, Op.prog, Prog.serve_bind, Prog.serve_pure, serve_remove hr h.faults]
    exact ⟨h.update none, view_update none, trivial, rfl⟩
  | addTurn c role text =>
    simp only [Store.exec, Op.prog, Prog.serve_bind, Prog.serve_pure, serve_addTurn hr h]
    cases hv : view cfg s c with
    | none =>
      refine ⟨h, ?_, rfl, rfl⟩
      simp only [apply, hv, Option.map_none]
      rw [← hv, Function.update_eq_self]
    | some session =>
      refine ⟨h.update (some _), ?_, rfl, rfl⟩
      simp only [apply, hv, Option.map_some]
      exact view_update (some _)

/-! ## Runs, with and without restarts -/

/-- A step, whatever `_mem` holds: a restart changes nothing that is stored. -/
theorem step_spec (h : Coherent cfg s) (a : Action) : Coherent cfg (step cfg s a) := by
  cases a with
  | tick d => exact ⟨h.faults, h.written, h.mem⟩
  | call op => exact (exec_spec hr h op).1
  | restart => exact ⟨h.faults, h.written, fun c session hc => by cases hc⟩

/-- Two managers over the same stored sessions give the same results and leave the
same sessions stored. -/
theorem step_congr {s s' : Store} (h : Coherent cfg s) (h' : Coherent cfg s') (hview : view cfg s = view cfg s')
    (hnow : s.now = s'.now) (a : Action) :
    view cfg (step cfg s a) = view cfg (step cfg s' a) ∧ (step cfg s a).now = (step cfg s' a).now ∧
      results cfg s a = results cfg s' a := by
  cases a with
  | tick d => exact ⟨hview, by simp only [step, hnow], rfl⟩
  | call op =>
    obtain ⟨-, hv, hn, hres⟩ := exec_spec hr h op
    obtain ⟨-, hv', hn', hres'⟩ := exec_spec hr h' op
    simp only [step, results]
    rw [hv, hv', hn, hn', hres, hres', hview, hnow]
    exact ⟨rfl, rfl, rfl⟩
  | restart => exact ⟨hview, hnow, rfl⟩

/-- The same calls without the restarts. -/
theorem run_filter_restart (h : Coherent cfg s) (as : List Action) :
    let s₁ := run (step cfg) s (as.filter fun a => !a.isRestart)
    let s₂ := run (step cfg) s as
    (Coherent cfg s₁ ∧ Coherent cfg s₂) ∧ view cfg s₁ = view cfg s₂ ∧ s₁.now = s₂.now ∧
      collect (step cfg) (results cfg) s (as.filter fun a => !a.isRestart) =
        collect (step cfg) (results cfg) s as := by
  induction as using List.reverseRecOn with
  | nil => exact ⟨⟨h, h⟩, rfl, rfl, rfl⟩
  | append_singleton as a ih =>
    obtain ⟨⟨h₁, h₂⟩, hview, hnow, hres⟩ := ih
    simp only [List.filter_append, List.filter_singleton, run_concat, collect_concat]
    cases ha : a.isRestart with
    | false =>
      obtain ⟨hview', hnow', hres'⟩ := step_congr hr h₁ h₂ hview hnow a
      simp only [Bool.not_false, cond_true, run_concat, collect_concat]
      exact ⟨⟨step_spec hr h₁ a, step_spec hr h₂ a⟩, hview', hnow', by rw [hres, hres']⟩
    | true =>
      cases a with
      | restart =>
        simp only [Bool.not_true, cond_false, List.append_nil]
        exact ⟨⟨h₁, step_spec hr h₂ .restart⟩, hview, hnow, by rw [hres]; exact (List.append_nil _).symm⟩
      | tick d => cases ha
      | call op => cases ha

end

/-- As long as Redis neither fails nor expires keys, what `_mem` holds is what is
stored, a new manager over the same Redis answers `get` in the same way, and all
calls of a run give the results they would give without its restarts. -/
theorem cache_transparent (cfg : Config) (hr : cfg.redis = true) (s₀ : Store) (hmem : ∀ c, s₀.mem c = none)
    (hfaults : s₀.faults = [])
    (hwritten : ∀ c text, s₀.redis (key c) = some text → ∃ session, text = cfg.codec.dumps session)
    (as : List Action) :
    let s := run (step cfg) s₀ as
    (∀ c session, s.mem c = some session → ∃ text, s.redis (key c) = some text ∧ cfg.codec.loads text = session) ∧
    (∀ c, (s.restart.exec cfg (.get c)).2 = (s.exec cfg (.get c)).2) ∧
    collect (step cfg) (results cfg) s₀ (as.filter fun a => !a.isRestart) =
      collect (step cfg) (results cfg) s₀ as := by
  intro s
  have h₀ : Coherent cfg s₀ := ⟨hfaults, hwritten, fun c session hc => by rw [hmem c] at hc; cases hc⟩
  obtain ⟨⟨-, h⟩, -, -, hres⟩ := run_filter_restart hr h₀ as
  refine ⟨fun c session hc => ⟨_, h.mem c session hc, cfg.codec.loads_dumps session⟩, fun c => ?_, hres⟩
  have hstep := step_congr hr (step_spec hr h .restart) h rfl rfl (.call (.get c))
  exact (List.cons.inj hstep.2.2).1

/-! ## A codec -/

instance countableChar : Countable Char := Function.Injective.countable (f := Char.toNat) fun _ _ h => Char.toNat_inj.mp h

instance countableString : Countable String :=
  Function.Injective.countable (f := String.toList) fun _ _ h => String.toList_inj.mp h

instance countableTurn : Countable Turn :=
  Function.Injective.countable (f := fun t : Turn => (decide (t.role = .user), t.text, t.time)) fun x y h => by
    obtain ⟨rx, _, _⟩ := x
    obtain ⟨ry, _, _⟩ := y
    cases rx <;> cases ry <;> simp_all

instance countableSession : Countable Session :=
  Function.Injective.countable
    (f := fun x : Session => (x.callId, x.tenantId, x.agentId, x.startedAt, decide (x.status = .active), x.turns))
    fun x y h => by
      obtain ⟨_, _, _, _, sx, _⟩ := x
      obtain ⟨_, _, _, _, sy, _⟩ := y
      cases sx <;> cases sy <;> simp_all

/-- There is a codec with a given text for a given session: other sessions have
longer texts. -/
theorem exists_codec (session : Session) (text : String) (hne : text ≠ "") :
    ∃ codec : Codec, codec.dumps session = text := by
  obtain ⟨f, hf⟩ := exists_injective_nat Session
  have : Nonempty Session := ⟨session⟩
  let other (x : Session) : String := String.ofList (List.replicate (f x + 1 + text.length) 'x')
  have hlen : ∀ x, (other x).length = f x + 1 + text.length := fun x => by
    rw [String.length_ofList, List.length_replicate]
  have hother : ∀ x, other x ≠ text := fun x e => by
    have := hlen x
    rw [e] at this
    omega
  refine ⟨{ dumps := fun x => if x = session then text else other x
            loads := fun t => if t = text then session else Function.invFun f (t.length - text.length - 1)
            loads_dumps := fun x => ?_
            dumps_ne_empty := fun x => ?_ }, if_pos rfl⟩
  · by_cases e : x = session
    · rw [if_pos e, if_pos rfl, e]
    · rw [if_neg e, if_neg (hother x), hlen, show f x + 1 + text.length - text.length - 1 = f x by omega]
      exact Function.leftInverse_invFun hf x
  · split
    · exact hne
    · intro e
      have := hlen x
      rw [e, String.length_empty] at this
      omega

/-- A session of a caller who has not spoken yet. -/
def callerSession : Session := ⟨"c1", "t1", "a1", 0, .active, none⟩

/-- Its JSON, with the braces written as their codes. -/
def callerText : String :=
  "\x7b\"call_id\": \"c1\", \"tenant_id\": \"t1\", \"agent_id\": \"a1\", " ++
    "\"started_at\": \"1970-01-01T00:00:00+00:00\", \"status\": \"active\"\x7d"

theorem cache_transparent_after_restart :
    ∃ cfg : Config, cfg.redis = true ∧ cfg.codec.dumps callerSession = callerText ∧
      ∃ s₀ : Store, s₀.redis (key "c1") = some callerText ∧
        collect (step cfg) (results cfg) s₀ [.call (.addTurn "c1" .user "hello"), .call (.get "c1")] =
          collect (step cfg) (results cfg) s₀ [.call (.addTurn "c1" .user "hello"), .restart, .call (.get "c1")] := by
  obtain ⟨codec, hcodec⟩ := exists_codec callerSession callerText (by decide)
  let s₀ : Store := ⟨fun _ => none, fun k => if k = key "c1" then some callerText else none, 0, []⟩
  have hwritten : ∀ c text, s₀.redis (key c) = some text → ∃ session, text = codec.dumps session := by
    intro c text h
    refine ⟨callerSession, ?_⟩
    rw [hcodec]
    simp only [s₀] at h
    split at h
    · exact (Option.some.inj h).symm
    · cases h
  have h := cache_transparent ⟨codec, true⟩ rfl s₀ (fun _ => rfl) rfl hwritten
    [.call (.addTurn "c1" .user "hello"), .restart, .call (.get "c1")]
  exact ⟨⟨codec, true⟩, rfl, hcodec, s₀, by simp [s₀], h.2.2⟩

end CallingAgent.Proof.Gateway.SessionCache
