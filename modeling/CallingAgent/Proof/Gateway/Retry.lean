import CallingAgent.Proof.Gateway.Active

/-!
# Retrying a callback

The event is recorded before anything else is done with it, and whatever fails
after that, it stays recorded. So a callback whose delivery has failed can be
retried only if its record never reached the API: a redelivery with every
dependency working has the effect of its event if and only if no request to
record the event has been served before (`redelivery_performs_iff`).
-/

namespace CallingAgent.Proof.Gateway

open CallingAgent.Framework CallingAgent.Impl CallingAgent.Impl.Calls CallingAgent.Impl.Exotel

/-- The callback of a start or end event for which every dependency can do its
part. -/
def Retryable (env : Env) (payload : ExotelCallback) : Prop :=
  env.eventType payload ∈ startEvents ∧ Routed env payload ∨ env.eventType payload ∈ endEvents

/-- The handler `h` of the callback has had the effect of its event, from `w` to
`w'`. A start event has created a call, its session and its mapping; an end
event has finalized the mapped call and removed session and mapping, if there
was a mapped call. -/
def Performs (env : Env) (h inst : Nat) (payload : ExotelCallback) (w w' : World) : Prop :=
  if env.eventType payload ∈ startEvents then
    ∃ r, r ∉ w.calls.rows ∧ ActiveFor w' payload.providerCallId r ∧
      w'.storeGet env inst payload.providerCallId = some r.callId ∧
      (w'.sessionGet env inst r.callId).2 ≠ none ∧ replyOf w' h = some (.ok .sessionStarted r.callId)
  else
    match w.storeGet env inst payload.providerCallId with
    | some c =>
      (∃ r, w'.calls.lookup c = some r ∧ r.endedAt ≠ none) ∧
        w'.storeGet env inst payload.providerCallId = none ∧ (w'.sessionGet env inst c).2 = none ∧
        replyOf w' h = some (.ok .sessionCleaned c)
    | none => replyOf w' h = some (.ok .ignored "")

variable {env : Env} {w : World} {h inst : Nat} {payload : ExotelCallback} (hw : Backed env w)
  (hx : w.handlers h = none) (session : Nat → Tenant.Setting)
include hw hx

/-- An event that is not recorded has its effect. -/
theorem performs_of_not_recorded (hd : Retryable env payload) (hn : ¬ Recorded w (eventKey env payload)) :
    Performs env h inst payload w (run (step env) w (delivery h inst payload session)) := by
  unfold Performs
  rcases hd with ⟨hs, hroute⟩ | he
  · rw [if_pos hs]
    obtain ⟨w', call, rfl, hp, hi, hget, hsession, hr⟩ := delivery_start inst hw hx hn session hs hroute
    refine ⟨newCall call, fun hr => ?_, ?_, hget, hsession, hr⟩
    · exact Table.lookup_eq_none.mp (Table.insert_eq_some hi).1 _ hr rfl
    · exact (activeFor_created hi rfl).mpr (.inr ⟨rfl, hp⟩)
  · rw [if_neg (not_start_of_end he)]
    split
    · rename_i c hc
      obtain ⟨w', rfl, hended⟩ := delivery_end inst hw hx hn session he hc
      exact hended
    · rename_i hc
      exact delivery_unmapped inst hw hx hn session he hc

/-- An event that is recorded does not. -/
theorem not_performs_of_recorded (hd : Retryable env payload) (hr : Recorded w (eventKey env payload)) :
    ¬ Performs env h inst payload w (run (step env) w (delivery h inst payload session)) := by
  obtain ⟨body, hb⟩ := exists_recordBody (hd.imp_left And.left)
  obtain ⟨reply, hq, hi, hreply⟩ := delivery_recorded inst hw hx hb hr session
  unfold Performs
  rw [hreply]
  split
  · rintro ⟨r, -, -, -, -, e⟩
    rw [Option.some.inj e] at hq; cases hq
  · split
    · rintro ⟨-, -, -, e⟩
      rw [Option.some.inj e] at hq; cases hq
    · exact fun e => hi "" (Option.some.inj e)

omit hw hx

/-- Retrying a callback. After any run, with any callbacks, interleaved in any
way, with clients that fail at any time, before or after the API has served
their request, and with restarts: a delivery of the callback of a start or end
event during which every dependency works has the effect of its event if and
only if no request to record the event was served in the run, that is, if and
only if every earlier delivery of it failed before its record reached the
API. -/
theorem redelivery_performs_iff (now : Time) (as : List Action)
    (hx : (run (step env) (.init now) as).handlers h = none) (hd : Retryable env payload) :
    Performs env h inst payload (run (step env) (.init now) as)
        (run (step env) (.init now) (as ++ delivery h inst payload session)) ↔
      AllSteps (step env) (fun w a => ¬ Records env w a (eventKey env payload)) (.init now) as := by
  have hw := backed_run env now as
  have hrec := recorded_iff env now as (eventKey env payload)
  rw [run_append]
  constructor
  · intro hp
    by_contra hn
    exact not_performs_of_recorded hw hx session hd (hrec.mpr hn) hp
  · intro hn
    exact performs_of_not_recorded hw hx session hd fun hr => hrec.mp hr hn

/-! ## A record that is lost, and a finalization that fails -/

/-- The request to record the event is lost. -/
def lostRecord : List Action := [.deliver 0 0 startCallback, .fail 0]

/-- A call has started, and the request to finalize it is lost. -/
def failedEnd : List Action :=
  handled 0 startCallback ++ [.deliver 1 0 completedCallback, .serve 1 none, .receive 1, .fail 1]

/-- The world after the end event has been delivered again. -/
def retriedEnd : World :=
  run (step (oneRoute true)) (.init 0)
    (failedEnd ++ delivery 2 0 completedCallback fun _ => some Tenant.allTenantsSentinel)

/-- The record of a start event is lost, and the callback is answered with a
503; the redelivery creates the call. -/
theorem redelivery_performs_lost_record :
    replyOf (run (step (oneRoute true)) (.init 0) lostRecord) 0 =
        some (.httpException 503 "durable event recording unavailable") ∧
      Performs (oneRoute true) 1 0 startCallback (run (step (oneRoute true)) (.init 0) lostRecord)
        (run (step (oneRoute true)) (.init 0) (lostRecord ++ handled 1 startCallback)) := by
  refine ⟨by decide, (redelivery_performs_iff _ 0 lostRecord rfl (.inl ⟨by decide, ?_⟩)).mpr ?_⟩
  · exact ⟨_, "+919", ("tenant", "agent"), rfl, by decide, by decide⟩
  · rintro p a hp ⟨h, session, x, body, rfl, -⟩
    have hmem := hp.subset (List.mem_append_right p (List.mem_singleton_self _))
    simp [lostRecord] at hmem

/-- The finalization of a call fails, and the end event is answered with a 503;
the redelivery is answered as a duplicate, on a connection that sees the
recorded event, and the call stays active. -/
theorem redelivery_answered_duplicate :
    replyOf (run (step (oneRoute true)) (.init 0) failedEnd) 1 =
        some (.httpException 503 "internal call finalization unavailable") ∧
      replyOf retriedEnd 2 = some (.ok .duplicate "uu") ∧ retriedEnd.calls.rows = [createdCall "uu"] ∧
      ¬ Performs (oneRoute true) 2 0 completedCallback (run (step (oneRoute true)) (.init 0) failedEnd)
        retriedEnd := by
  have hreply : replyOf retriedEnd 2 = some (.ok .duplicate "uu") := by decide
  refine ⟨by decide, hreply, by decide, ?_⟩
  unfold Performs
  rw [if_neg (by decide), hreply]
  split
  · exact fun h => by cases h.2.2.2
  · exact nofun

end CallingAgent.Proof.Gateway
