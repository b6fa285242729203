import CallingAgent.Impl.VoiceGateway
import CallingAgent.Proof.Gateway.SessionCache

/-!
# Removed sessions

`remove` takes a session out of `_mem`, and passes over a `DELETE` that has not been
carried out: the session is then loaded again by the next `get`. Where the `DELETE` is
carried out, nothing but a `create` brings the session back (`absent_step`), and a
websocket for its call is closed (`gone_of_absent`).
-/

namespace CallingAgent.Proof.Gateway.Removed

open CallingAgent.Framework CallingAgent.Impl CallingAgent.Impl.SessionManager CallingAgent.Impl.VoiceGateway
open CallingAgent.Proof.Gateway.SessionOps

/-! ## A websocket on its own -/

/-- The session manager's calls of a handler are answered by `s`, and the others, which
are logged, by `env`. -/
def answerAlone (env : (q : VoiceGateway.Query) → VoiceGateway.Reply q) (x : Store × List VoiceGateway.Query) :
    (q : VoiceGateway.Query) → (Store × List VoiceGateway.Query) × VoiceGateway.Reply q
  | .session q => (((x.1.answer q).1, x.2), (x.1.answer q).2)
  | q => ((x.1, x.2 ++ [q]), env q)

/-- The calls that `voice_websocket` makes, besides those of the session manager. -/
def websocketCalls (cfg : VoiceGateway.Config) (env : (q : VoiceGateway.Query) → VoiceGateway.Reply q) (s : Store)
    (c : CallId) : List VoiceGateway.Query :=
  ((voiceWebsocket cfg c).serve (answerAlone env) (s, [])).1.2

/-- The session manager's methods as calls of a handler. -/
theorem serve_session {α : Type} (env : (q : VoiceGateway.Query) → VoiceGateway.Reply q) (p : Method Exc α) (s : Store)
    (log : List VoiceGateway.Query) :
    (VoiceGateway.session p).serve (answerAlone env) (s, log) =
      (((p.serve Store.answer s).1, log), (p.serve Store.answer s).2) := by
  have hask : ∀ (x : Store × List VoiceGateway.Query) (q : SessionManager.Query), x.2 = log →
      ((Prog.ask (E := Exc) (VoiceGateway.Query.session q)).serve (answerAlone env) x).2 = .ok (x.1.answer q).2 ∧
        ((Prog.ask (E := Exc) (VoiceGateway.Query.session q)).serve (answerAlone env) x).1.1 = (x.1.answer q).1 ∧
          ((Prog.ask (E := Exc) (VoiceGateway.Query.session q)).serve (answerAlone env) x).1.2 = log :=
    fun x q hx => ⟨rfl, rfl, hx⟩
  have h := Prog.serve_translate (I := fun x : Store × List VoiceGateway.Query => x.2 = log) hask p
    (show (s, log).2 = log from rfl)
  exact Prod.ext (Prod.ext h.2.1 h.2.2) h.1

/-! ## What is left of a session -/

variable {cfg : SessionManager.Config} {s : Store} {c d : CallId}

/-- There is no session to be found. -/
structure Absent (cfg : SessionManager.Config) (s : Store) (c : CallId) : Prop where
  mem : s.mem c = none
  redis : cfg.redis = true → ∀ text, s.redis (key c) = some text → text = ""

/-- Whatever becomes of its command, a `get` returns `None`; and a websocket is closed,
unless sessions are created for unknown calls. -/
structure Gone (cfg : VoiceGateway.Config) (s : Store) (c : CallId) : Prop where
  get : ∀ faults, ({ s with faults := faults }.exec cfg.sessions (.get c)).2 = none
  websocket : cfg.allowUnresolvedSessions = false → ∀ faults env, env .isDraining = false →
    websocketCalls cfg env { s with faults := faults } c = [.isDraining, .close 4404 "unknown call_id"]

theorem serve_load_absent {E : Type} (h : Absent cfg s c) :
    ∃ faults, (load (E := E) cfg c).serve Store.answer s = ({ s with faults := faults }, .ok none) := by
  unfold load
  split
  · rename_i hr
    refine ⟨s.faults.tail, ?_⟩
    rw [Prog.serve_ask_bind]
    simp only [Store.answer]
    by_cases hdone : s.outcome = .done
    · cases hv : s.redis (key c) with
      | none => simp [hdone]
      | some text => simp [hdone, h.redis hr text hv]
    · simp [hdone]
  · exact ⟨s.faults, rfl⟩

theorem serve_get_absent {E : Type} (h : Absent cfg s c) :
    ∃ faults, (SessionManager.get (E := E) cfg c).serve Store.answer s = ({ s with faults := faults }, .ok none) := by
  obtain ⟨faults, hload⟩ := serve_load_absent (E := E) h
  refine ⟨faults, ?_⟩
  simp only [SessionManager.get, Prog.serve_ask_bind, Store.answer, h.mem]
  rw [Prog.serve_bind, hload]
  rfl

theorem absent_faults (h : Absent cfg s c) (faults : List Outcome) : Absent cfg { s with faults := faults } c :=
  ⟨h.mem, h.redis⟩

theorem gone_of_absent {cfg : VoiceGateway.Config} (h : Absent cfg.sessions s c) : Gone cfg s c := by
  refine ⟨fun faults => ?_, fun hallow faults env henv => ?_⟩
  · obtain ⟨_, hget⟩ := serve_get_absent (E := Empty) (absent_faults h faults)
    rw [Store.exec, Op.prog, hget]
    rfl
  · obtain ⟨left, hget⟩ := serve_get_absent (E := Exc) (absent_faults h faults)
    have hclosed : (voiceWebsocket cfg c).serve (answerAlone env) ({ s with faults := faults }, []) =
        (orRaise (env (.close 4404 "unknown call_id"))).serve (answerAlone env)
          ({ s with faults := left }, [.isDraining, .close 4404 "unknown call_id"]) := by
      rw [voiceWebsocket, Prog.serve_ask_bind]
      simp only [answerAlone, henv, Bool.false_eq_true, if_false]
      rw [Prog.serve_bind, serve_session, hget]
      simp only [hallow, Bool.not_false, if_true]
      rfl
    rw [websocketCalls, hclosed]
    cases env (.close 4404 "unknown call_id") <;> rfl

/-! ## What the methods do to it -/

/-- The `DELETE` of a `remove` is carried out, if there is something to delete. -/
def Deleted (cfg : SessionManager.Config) (s : Store) (c : CallId) : Prop :=
  cfg.redis = true → (∃ text, s.redis (key c) = some text ∧ text ≠ "") → s.outcome ≠ .failed

theorem exec_remove (cfg : SessionManager.Config) (s : Store) (c : CallId) :
    (s.exec cfg (.remove c)).1.mem = Function.update s.mem c none ∧
      (s.exec cfg (.remove c)).1.redis =
        if cfg.redis = true ∧ s.outcome ≠ .failed then Function.update s.redis (key c) none else s.redis := by
  simp only [Store.exec, Op.prog, remove, Prog.serve_bind, Prog.serve_ask, Store.answer]
  cases hr : cfg.redis with
  | false => simp
  | true =>
    simp only [if_true, Prog.serve_bind, Prog.serve_ask, Prog.serve_pure, Store.answer, Store.write, true_and, ne_eq]
    by_cases ho : s.outcome = .failed
    · have ho' : ({ s with mem := Function.update s.mem c none } : Store).outcome = .failed := ho
      simp [ho, ho']
    · have ho' : ({ s with mem := Function.update s.mem c none } : Store).outcome ≠ .failed := ho
      simp [ho, ho']

/-- After a `remove` there is no session, exactly if its `DELETE` has been carried out. -/
theorem absent_remove : Absent cfg (s.exec cfg (.remove c)).1 c ↔ Deleted cfg s c := by
  obtain ⟨hmem, hredis⟩ := exec_remove cfg s c
  constructor
  · intro h hr ⟨text, htext, hne⟩ ho
    have hkeep : (s.exec cfg (.remove c)).1.redis = s.redis := by rw [hredis, if_neg fun h => h.2 ho]
    exact hne (h.redis hr text (by rw [hkeep]; exact htext))
  · intro h
    refine ⟨by rw [hmem, Function.update_self], fun hr text htext => ?_⟩
    rw [hredis] at htext
    split at htext
    · rw [Function.update_self] at htext
      cases htext
    · rename_i ho
      by_contra hne
      exact ho ⟨hr, h hr ⟨text, htext, hne⟩⟩

/-- No method but `create` brings a session back. -/
theorem absent_exec (h : Absent cfg s c) {op : Op} (hop : ∀ tenantId agentId, op ≠ .create c tenantId agentId) :
    Absent cfg (s.exec cfg op).1 c := by
  by_cases hc : c = callOf op
  · have hfaults : ∀ faults : List Outcome, (s.exec cfg op).1 = { s with faults := faults } →
        Absent cfg (s.exec cfg op).1 c := fun faults e => by rw [e]; exact absent_faults h faults
    cases op with
    | create d tenantId agentId =>
      obtain rfl : c = d := hc
      exact absurd rfl (hop tenantId agentId)
    | get d =>
      obtain rfl : c = d := hc
      obtain ⟨left, hget⟩ := serve_get_absent (E := Empty) h
      exact hfaults left (by rw [Store.exec, Op.prog, hget])
    | endSession d =>
      obtain rfl : c = d := hc
      obtain ⟨left, hload⟩ := serve_load_absent (E := Empty) h
      refine hfaults left ?_
      rw [Store.exec, Op.prog, endSession, Prog.serve_bind, Prog.serve_bind, serve_endMem, h.mem, Option.map_none,
        update_mem_eq_self h.mem]
      dsimp only
      rw [Prog.serve_bind, hload]
      rfl
    | remove d =>
      obtain rfl : c = d := hc
      rw [absent_remove]
      intro hr hstored
      obtain ⟨text, htext, hne⟩ := hstored
      exact absurd (h.redis hr text htext) hne
    | addTurn d role text =>
      obtain rfl : c = d := hc
      obtain ⟨left, hget⟩ := serve_get_absent (E := Empty) h
      refine hfaults left ?_
      rw [Store.exec, Op.prog, addTurn, Prog.serve_bind, Prog.serve_bind, hget]
      rfl
  · obtain ⟨hmem, hredis⟩ : (s.exec cfg op).1.mem c = s.mem c ∧ (s.exec cfg op).1.redis (key c) = s.redis (key c) :=
      exec_of_ne op hc
    exact ⟨hmem.trans h.mem, fun hr text htext => h.redis hr text (hredis ▸ htext)⟩

def Creates (c : CallId) : SessionManager.Action → Prop
  | .call (.create d _ _) => d = c
  | _ => False

theorem absent_step (h : Absent cfg s c) {a : SessionManager.Action} (ha : ¬Creates c a) :
    Absent cfg (SessionManager.step cfg s a) c := by
  cases a with
  | tick d => exact ⟨h.mem, h.redis⟩
  | restart => exact ⟨rfl, h.redis⟩
  | call op =>
    refine absent_exec h fun tenantId agentId e => ha ?_
    rw [e]
    exact rfl

theorem absent_run (h : Absent cfg s c) {as : List SessionManager.Action} (has : ∀ a ∈ as, ¬Creates c a) :
    Absent cfg (run (SessionManager.step cfg) s as) c := by
  induction as using List.reverseRecOn with
  | nil => exact h
  | append_singleton as a ih =>
    rw [run_concat]
    refine absent_step (ih fun b hb => has b (List.mem_append_left _ hb)) (has a ?_)
    exact List.mem_append_right _ (List.mem_singleton_self a)

/-- A `get` that Redis answers finds what is there. -/
theorem absent_of_gone {cfg : VoiceGateway.Config} (h : Gone cfg s c) : Absent cfg.sessions s c := by
  have hget := h.get []
  cases hm : s.mem c with
  | some session =>
    have hmem : ({ s with faults := [] } : Store).mem c = some session := hm
    rw [exec_get_of_mem hmem] at hget
    cases hget
  | none =>
    refine ⟨hm, fun hr text htext => ?_⟩
    by_contra hne
    have hload : (load (E := Empty) cfg.sessions c).serve Store.answer { s with faults := [] } =
        ({ s with faults := [] }, .ok (some (cfg.sessions.codec.loads text))) := by
      simp [load, hr, Store.answer, Store.outcome, htext, hne]
    have hsome : (({ s with faults := [] } : Store).exec cfg.sessions (.get c)).2 =
        some (cfg.sessions.codec.loads text) := by
      simp only [Store.exec, Op.prog, SessionManager.get, Prog.serve_ask_bind, Store.answer, hm]
      rw [Prog.serve_bind, hload]
      rfl
    rw [hsome] at hget
    cases hget

/-! ## Runs -/

/-- After a `remove` the session is gone, until the next `create` of the call. -/
def RemovedStays (cfg : VoiceGateway.Config) (s : Store) (as : List SessionManager.Action) : Prop :=
  ∀ bs c cs, bs ++ .call (.remove c) :: cs <+: as → (∀ a ∈ cs, ¬Creates c a) →
    Gone cfg (run (SessionManager.step cfg.sessions) s (bs ++ .call (.remove c) :: cs)) c

/-- Whatever becomes of the other Redis commands of a run: removed sessions stay
removed exactly if the `DELETE` of every `remove` of a stored session is carried out. -/
theorem removed_stays_iff (cfg : VoiceGateway.Config) (s : Store) (as : List SessionManager.Action) :
    RemovedStays cfg s as ↔
      AllSteps (SessionManager.step cfg.sessions)
        (fun s a => ∀ c, a = .call (.remove c) → Deleted cfg.sessions s c) s as := by
  constructor
  · rintro h bs _ hbs c rfl
    have hgone := h bs c [] hbs (fun a ha => absurd ha List.not_mem_nil)
    rw [run_concat] at hgone
    exact absent_remove.mp (absent_of_gone hgone)
  · intro h bs c cs hbs hcs
    have hdeleted := h bs _ ((List.prefix_append_right_inj bs).mpr (List.prefix_append [_] cs) |>.trans hbs) c rfl
    rw [run_append, run_cons]
    exact gone_of_absent (absent_run (absent_remove.mpr hdeleted) hcs)

/-- A session is created and removed, and its `DELETE` times out: the next `get` finds
it. -/
theorem removed_session_returns :
    ¬∀ (cfg : VoiceGateway.Config) (now : Time) (faults : List Outcome) (as : List SessionManager.Action),
      RemovedStays cfg ⟨fun _ => none, fun _ => none, now, faults⟩ as := by
  intro h
  obtain ⟨codec, -⟩ := SessionCache.exists_codec SessionCache.callerSession SessionCache.callerText (by decide)
  let cfg : VoiceGateway.Config := ⟨⟨codec, true⟩, false, 25, "token", true, id⟩
  let s₀ : Store := ⟨fun _ => none, fun _ => none, 0, [.done, .failed]⟩
  let created : SessionManager.Action := .call (.create "c1" "t1" "a1")
  have hgone := h cfg 0 [.done, .failed] [created, .call (.remove "c1")] [created] "c1" [] (List.prefix_refl _)
    (fun a ha => absurd ha List.not_mem_nil)
  rw [run_concat] at hgone
  have hdeleted : Deleted cfg.sessions (run (SessionManager.step cfg.sessions) s₀ [created]) "c1" :=
    absent_remove.mp (absent_of_gone hgone)
  refine hdeleted rfl ⟨codec.dumps SessionCache.callerSession, ?_, codec.dumps_ne_empty _⟩ rfl
  exact Function.update_self (key "c1") (some (codec.dumps SessionCache.callerSession)) fun _ => none

end CallingAgent.Proof.Gateway.Removed
