import CallingAgent.Impl.SessionManager

/-!
# What the methods of the session manager touch

Whatever becomes of their Redis commands, the methods for a call touch nothing of
other calls (`exec_mem_of_ne`, `exec_redis_of_ne`), and a session that is in
`_mem` is served from there (`exec_get_of_mem`, `exec_addTurn_mem`).
-/

namespace CallingAgent.Proof.Gateway.SessionOps

open CallingAgent.Framework CallingAgent.Impl CallingAgent.Impl.SessionManager

/-- The call that a method is called for. -/
def callOf : Op → CallId
  | .create callId _ _ => callId
  | .get callId => callId
  | .endSession callId => callId
  | .remove callId => callId
  | .addTurn callId _ _ => callId

/-- A call-out is about `callId`. -/
def About (callId : CallId) : Query → Prop
  | .now => True
  | .memGet c => c = callId
  | .memPut c _ => c = callId
  | .memPop c => c = callId
  | .redisGet k => k = key callId
  | .redisSet k _ => k = key callId
  | .redisDelete k => k = key callId

theorem key_injective {c d : CallId} (h : key c = key d) : c = d := (String.append_right_inj _).mp h

section

variable {E : Type} {cfg : Config} {c : CallId}

theorem only_save (session : Session) : (save (E := E) cfg c session).Only (About c) := by
  unfold save
  split
  · exact Prog.Safe.bind (Prog.only_ask rfl) fun _ => Prog.safe_pure _
  · exact Prog.safe_pure _

theorem only_load : (load (E := E) cfg c).Only (About c) := by
  unfold load
  split
  · refine Prog.Safe.bind (Prog.only_ask rfl) fun r => ?_
    split <;> exact Prog.safe_pure _
  · exact Prog.safe_pure _

theorem only_get : (SessionManager.get (E := E) cfg c).Only (About c) := by
  refine Prog.Safe.bind (Prog.only_ask rfl) fun r => ?_
  split
  · exact Prog.safe_pure _
  · refine only_load.bind fun x => ?_
    split
    · exact Prog.Safe.bind (Prog.only_ask rfl) fun _ => Prog.safe_pure _
    · exact Prog.safe_pure _

theorem only_endMem : (endMem (E := E) c).Only (About c) := by
  refine Prog.Safe.bind (Prog.only_ask rfl) fun r => ?_
  split
  · exact Prog.only_ask rfl
  · exact Prog.safe_pure _

theorem only_endSession : (endSession (E := E) cfg c).Only (About c) := by
  refine only_endMem.bind fun _ => only_load.bind fun x => ?_
  split
  · exact only_save _
  · exact Prog.safe_pure _

theorem only_remove : (remove (E := E) cfg c).Only (About c) := by
  refine Prog.Safe.bind (Prog.only_ask rfl) fun _ => ?_
  split
  · exact Prog.Safe.bind (Prog.only_ask rfl) fun _ => Prog.safe_pure _
  · exact Prog.safe_pure _

theorem only_create (tenantId agentId : String) : (create (E := E) cfg c tenantId agentId).Only (About c) :=
  Prog.Safe.bind (Prog.only_ask trivial) fun _ => Prog.Safe.bind (Prog.only_ask rfl) fun _ => only_save _

theorem only_addTurn (role : Role) (text : String) : (addTurn (E := E) cfg c role text).Only (About c) := by
  refine only_get.bind fun x => ?_
  split
  · exact Prog.safe_pure _
  · exact Prog.Safe.bind (Prog.only_ask trivial) fun _ => Prog.Safe.bind (Prog.only_ask rfl) fun _ => only_save _

theorem only_prog (cfg : Config) (op : Op) : (op.prog (E := E) cfg).Only (About (callOf op)) := by
  cases op with
  | create c tenantId agentId => exact (only_create tenantId agentId).bind fun _ => Prog.safe_pure _
  | get c => exact only_get
  | endSession c => exact only_endSession.bind fun _ => Prog.safe_pure _
  | remove c => exact only_remove.bind fun _ => Prog.safe_pure _
  | addTurn c role text => exact (only_addTurn role text).bind fun _ => Prog.safe_pure _

end

variable {cfg : Config} {s : Store} {c d : CallId}

/-- An answer to a call-out about `d` leaves what belongs to `c` as it is. -/
theorem answer_of_ne (hcd : c ≠ d) {q : Query} (h : About d q) :
    (s.answer q).1.mem c = s.mem c ∧ (s.answer q).1.redis (key c) = s.redis (key c) := by
  have hkey : key c ≠ key d := fun e => hcd (key_injective e)
  cases q with
  | now => exact ⟨rfl, rfl⟩
  | memGet x => exact ⟨rfl, rfl⟩
  | memPut x session =>
    cases h
    exact ⟨Function.update_of_ne hcd _ _, rfl⟩
  | memPop x =>
    cases h
    exact ⟨Function.update_of_ne hcd _ _, rfl⟩
  | redisGet k => exact ⟨rfl, rfl⟩
  | redisSet k value =>
    cases h
    refine ⟨rfl, ?_⟩
    simp only [Store.answer, Store.write]
    split
    · rfl
    · exact Function.update_of_ne hkey _ _
  | redisDelete k =>
    cases h
    refine ⟨rfl, ?_⟩
    simp only [Store.answer, Store.write]
    split
    · rfl
    · exact Function.update_of_ne hkey _ _

/-- A method for `d` leaves what belongs to `c` as it is. -/
theorem exec_of_ne (op : Op) (hcd : c ≠ callOf op) :
    (s.exec cfg op).1.mem c = s.mem c ∧ (s.exec cfg op).1.redis (key c) = s.redis (key c) := by
  have hkeep : ∀ (t : Store) (q : Query),
      (t.mem c = s.mem c ∧ t.redis (key c) = s.redis (key c)) → About (callOf op) q →
        ((t.answer q).1.mem c = s.mem c ∧ (t.answer q).1.redis (key c) = s.redis (key c)) := by
    intro t q ht hq
    obtain ⟨hm, hr⟩ := answer_of_ne (s := t) hcd hq
    exact ⟨hm.trans ht.1, hr.trans ht.2⟩
  exact Prog.Only.serve (s := s)
    (I := fun t => t.mem c = s.mem c ∧ t.redis (key c) = s.redis (key c)) (only_prog (E := Empty) cfg op)
    ⟨rfl, rfl⟩ hkeep

/-! ## A session in `_mem` -/

variable {session : Session}

theorem serve_get_of_mem {E : Type} (h : s.mem c = some session) :
    (SessionManager.get (E := E) cfg c).serve Store.answer s = (s, .ok (some session)) := by
  simp only [SessionManager.get, Prog.serve_ask_bind, Store.answer, h]
  rfl

theorem update_mem_eq_self {x : Option Session} (h : s.mem c = x) :
    { s with mem := Function.update s.mem c x } = s := by
  rw [← h, Function.update_eq_self]

theorem serve_endMem {E : Type} :
    (endMem (E := E) c).serve Store.answer s =
      ({ s with mem := Function.update s.mem c ((s.mem c).map Session.ended) }, .ok ()) := by
  simp only [endMem, Prog.serve_ask_bind, Store.answer]
  cases hm : s.mem c with
  | none => rw [Option.map_none, update_mem_eq_self hm]; rfl
  | some session => rfl

theorem exec_get_of_mem (h : s.mem c = some session) : s.exec cfg (.get c) = (s, some session) := by
  rw [Store.exec, Op.prog, serve_get_of_mem h]
  rfl

/-- `_mem` after a `save`. -/
theorem serve_save_mem {E : Type} (cfg : Config) (s : Store) (c : CallId) (session : Session) :
    ((save (E := E) cfg c session).serve Store.answer s).1.mem = s.mem ∧
      ((save (E := E) cfg c session).serve Store.answer s).2 = .ok () := by
  unfold save
  split <;> exact ⟨rfl, rfl⟩

/-- `_mem` after a `load`. -/
theorem serve_load_mem {E : Type} (cfg : Config) (s : Store) (c : CallId) :
    ((load (E := E) cfg c).serve Store.answer s).1.mem = s.mem ∧
      ∃ x, ((load (E := E) cfg c).serve Store.answer s).2 = .ok x := by
  unfold load
  split
  · rw [Prog.serve_ask_bind]
    split <;> exact ⟨rfl, _, rfl⟩
  · exact ⟨rfl, _, rfl⟩

theorem exec_addTurn_mem (cfg : Config) (h : s.mem c = some session) (role : Role) (text : String) :
    (s.exec cfg (.addTurn c role text)).1.mem c = some (session.addTurn ⟨role, text, s.now⟩) := by
  simp only [Store.exec, Op.prog, addTurn, Prog.serve_bind, serve_get_of_mem h, Prog.serve_ask, Store.answer]
  obtain ⟨hmem, hok⟩ := serve_save_mem (E := Empty) cfg
    { s with mem := Function.update s.mem c (some (session.addTurn ⟨role, text, s.now⟩)) } c
    (session.addTurn ⟨role, text, s.now⟩)
  rw [hok]
  exact (congrFun hmem c).trans (Function.update_self ..)

theorem exec_endSession_mem (h : s.mem c = some session) :
    (s.exec cfg (.endSession c)).1.mem c = some session.ended := by
  simp only [Store.exec, Op.prog, endSession, Prog.serve_bind, serve_endMem, h, Option.map_some]
  obtain ⟨hmem, x, hx⟩ := serve_load_mem (E := Empty) cfg
    { s with mem := Function.update s.mem c (some session.ended) } c
  have hc : ((load (E := Empty) cfg c).serve Store.answer
      { s with mem := Function.update s.mem c (some session.ended) }).1.mem c = some session.ended :=
    (congrFun hmem c).trans (Function.update_self ..)
  rw [hx]
  cases x with
  | none => exact hc
  | some data =>
    obtain ⟨hsave, hok⟩ := serve_save_mem (E := Empty) cfg
      ((load (E := Empty) cfg c).serve Store.answer
        { s with mem := Function.update s.mem c (some session.ended) }).1 c data.ended
    dsimp only
    rw [hok]
    exact (congrFun hsave c).trans hc

end CallingAgent.Proof.Gateway.SessionOps
