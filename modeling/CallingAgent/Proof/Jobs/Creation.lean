import CallingAgent.Impl.Creation
import CallingAgent.Proof.Jobs.Lifecycle

/-!
# Idempotent creation of events

The partial unique index decides which of the requests with a
`(provider_call_id, event_type)` creates the row; the others read it after
their rollback. Rows never disappear and keep their pair (`row_kept`), so the
read finds the row that the insert ran into. `Idempotent` says how the rows and
the requests belong together, and every step keeps it (`idempotent_step`).
-/

namespace CallingAgent.Proof.Jobs

open CallingAgent.Framework CallingAgent.Impl CallingAgent.Impl.Jobs CallingAgent.Impl.Creation

/-- The request asks for this pair. -/
def Asks (req : Request) (p e : String) : Prop := req.body.providerCallId = some p ∧ req.body.eventType = e

/-- The request has created a row. -/
def inserted (req : Request) : Bool :=
  match req.phase with
  | .committed => true
  | .answered (.ok response) => !response.duplicate
  | _ => false

/-- The `call_id` of a body is absent or valid. -/
def ValidCall (w : World) (a : Creation.Action) : Prop :=
  ∀ i body, a = .insert i body → ∀ c ∈ body.callId, c ∈ w.api.calls

/-- The row of a body: it has the body's pair. -/
def OfBody (body : EventCreateRequest) (r : CallJob) : Prop :=
  r.providerCallId = body.providerCallId ∧ r.eventType = body.eventType

theorem hasPair_iff {p e : String} {r : CallJob} :
    hasPair p e r = true ↔ r.providerCallId = some p ∧ r.eventType = e := by
  simp [hasPair]

/-- A row is kept, with its id and pair, by every action of the job API. -/
theorem row_kept {s : State} {r : CallJob} (h : r ∈ s.jobs.rows) (a : Jobs.Action) :
    ∃ r' ∈ (Jobs.step s a).jobs.rows, SameJob r r' := by
  obtain ⟨r', hr', hs⟩ := rowStep (Table.lookup_of_mem h : s.job r.jobId = some r) a
  exact ⟨r', Table.lookup_mem hr', hs.same⟩

/-- A row after an action comes from one before, or is the row of a
`create_event`. -/
theorem row_cases {s : State} {a : Jobs.Action} {r' : CallJob} (h : r' ∈ (Jobs.step s a).jobs.rows) :
    (∃ r ∈ s.jobs.rows, SameJob r r') ∨ ∃ body, a = .create r'.jobId body ∧ r' = newJob body r'.jobId s.now := by
  have hl : (Jobs.step s a).job r'.jobId = some r' := Table.lookup_of_mem h
  cases hr : s.job r'.jobId with
  | none => exact .inr (job_create hr hl)
  | some r =>
    obtain ⟨x, hx, hs⟩ := rowStep hr a
    obtain rfl : x = r' := Option.some.inj (hx.symm.trans hl)
    exact .inl ⟨r, Table.lookup_mem hr, hs.same⟩

/-- With a fresh id and a valid call, an `INSERT` fails only because of the
partial unique index. -/
theorem pair_of_insertJob_eq_none {calls : List CallId} {jobs : CallJobs} {job : CallJob}
    (hnew : jobs.lookup job.jobId = none) (hcall : ∀ c ∈ job.callId, c ∈ calls)
    (h : insertJob calls jobs job = none) :
    ∃ p, job.providerCallId = some p ∧ ∃ r ∈ jobs.rows, hasPair p job.eventType r = true := by
  unfold insertJob at h
  split at h
  · rename_i hp
    obtain ⟨p, hp, hany⟩ := (Option.any_eq_true _ _).mp hp
    obtain ⟨r, hr⟩ := List.any_eq_true.mp hany
    exact ⟨p, hp, r, hr⟩
  · split at h
    · rename_i hc
      obtain ⟨c, hc, hn⟩ := (Option.any_eq_true _ _).mp hc
      simp [hcall c hc] at hn
    · obtain ⟨t, ht⟩ := Table.exists_insert hnew
      rw [ht] at h; cases h

/-! ## Rows and requests -/

section

variable {uuid4 : Uuid4} {w w' : World}

/-- How rows and requests belong together: each row is that of one request, a
request that has created a row has its own, one that has not has found a row
with its pair, and the answers say so. -/
structure Idempotent (uuid4 : Uuid4) (w : World) : Prop where
  unique : ∀ {p e r r'}, r ∈ w.api.jobs.rows → r' ∈ w.api.jobs.rows →
    hasPair p e r = true → hasPair p e r' = true → r = r'
  owner : ∀ {r}, r ∈ w.api.jobs.rows →
    ∃ i req, w.requests i = some req ∧ inserted req = true ∧ r.jobId = uuid4.id i
  row : ∀ {i req}, w.requests i = some req → inserted req = true →
    ∃ r ∈ w.api.jobs.rows, r.jobId = uuid4.id i ∧ OfBody req.body r
  existing : ∀ {i req}, w.requests i = some req → inserted req = false →
    ∃ p, req.body.providerCallId = some p ∧ ∃ r ∈ w.api.jobs.rows, OfBody req.body r
  answer : ∀ {i req a}, w.requests i = some req → req.phase = .answered a →
    ∃ response, a = .ok response ∧ ∃ r ∈ w.api.jobs.rows, r.jobId = response.event.jobId ∧ OfBody req.body r ∧
      (response.duplicate = false → r.jobId = uuid4.id i)

theorem SameJob.ofBody {body : EventCreateRequest} {r r' : CallJob} (h : SameJob r r') (hb : OfBody body r) :
    OfBody body r' := ⟨h.providerCallId.trans hb.1, h.eventType.trans hb.2⟩

theorem SameJob.hasPair {p e : String} {r r' : CallJob} (h : SameJob r r') (hp : hasPair p e r' = true) :
    hasPair p e r = true := by
  rw [hasPair_iff] at hp ⊢
  exact ⟨h.providerCallId.symm.trans hp.1, h.eventType.symm.trans hp.2⟩

/-- Steps that keep the requests, and the rows with their ids and pairs. -/
theorem Idempotent.keep (h : Idempotent uuid4 w) (hr : w'.requests = w.requests)
    (hkept : ∀ r ∈ w.api.jobs.rows, ∃ r' ∈ w'.api.jobs.rows, SameJob r r')
    (hfrom : ∀ r' ∈ w'.api.jobs.rows, ∃ r ∈ w.api.jobs.rows, SameJob r r') : Idempotent uuid4 w' := by
  refine ⟨fun {p e x y} hx hy px py => ?_, fun {r'} hr' => ?_, fun {i req} hreq hi => ?_,
    fun {i req} hreq hi => ?_, fun {i req a} hreq ha => ?_⟩
  · obtain ⟨x₀, hx₀, sx⟩ := hfrom x hx
    obtain ⟨y₀, hy₀, sy⟩ := hfrom y hy
    obtain rfl := h.unique hx₀ hy₀ (sx.hasPair px) (sy.hasPair py)
    exact Table.eq_of_key_eq hx hy (sx.jobId.trans sy.jobId.symm)
  · obtain ⟨r, hr₀, hs⟩ := hfrom r' hr'
    obtain ⟨i, req, hreq, hi, e⟩ := h.owner hr₀
    exact ⟨i, req, by rw [hr]; exact hreq, hi, hs.jobId.trans e⟩
  · obtain ⟨r, hr₀, e, hb⟩ := h.row (hr ▸ hreq) hi
    obtain ⟨r', hr', hs⟩ := hkept r hr₀
    exact ⟨r', hr', hs.jobId.trans e, hs.ofBody hb⟩
  · obtain ⟨p, hp, r, hr₀, hb⟩ := h.existing (hr ▸ hreq) hi
    obtain ⟨r', hr', hs⟩ := hkept r hr₀
    exact ⟨p, hp, r', hr', hs.ofBody hb⟩
  · obtain ⟨response, e, r, hr₀, hid, hb, hown⟩ := h.answer (hr ▸ hreq) ha
    obtain ⟨r', hr', hs⟩ := hkept r hr₀
    exact ⟨response, e, r', hr', hs.jobId.trans hid, hs.ofBody hb, fun hd => hs.jobId.trans (hown hd)⟩

/-- Steps that keep the rows and set one request, as the rows have it. -/
theorem Idempotent.setRequest (h : Idempotent uuid4 w) {i : Nat} {req : Request}
    (howner : ∀ r ∈ w.api.jobs.rows, r.jobId = uuid4.id i → inserted req = true)
    (hrow : inserted req = true → ∃ r ∈ w.api.jobs.rows, r.jobId = uuid4.id i ∧ OfBody req.body r)
    (hexisting : inserted req = false →
      ∃ p, req.body.providerCallId = some p ∧ ∃ r ∈ w.api.jobs.rows, OfBody req.body r)
    (hanswer : ∀ a, req.phase = .answered a →
      ∃ response, a = .ok response ∧ ∃ r ∈ w.api.jobs.rows, r.jobId = response.event.jobId ∧ OfBody req.body r ∧
        (response.duplicate = false → r.jobId = uuid4.id i)) : Idempotent uuid4 (w.setRequest i req) := by
  refine ⟨h.unique, fun {r} hr => ?_, fun {j req'} hreq hi => ?_, fun {j req'} hreq hi => ?_,
    fun {j req' a} hreq ha => ?_⟩
  · obtain ⟨j, req', hreq, hi, e⟩ := h.owner hr
    by_cases hj : j = i
    · exact ⟨i, req, Function.update_self _ _ _, howner r hr (hj ▸ e), hj ▸ e⟩
    · exact ⟨j, req', (Function.update_of_ne hj _ _).trans hreq, hi, e⟩
  · rcases update_cases hreq with ⟨rfl, rfl⟩ | ⟨-, hreq⟩
    · exact hrow hi
    · exact h.row hreq hi
  · rcases update_cases hreq with ⟨rfl, rfl⟩ | ⟨-, hreq⟩
    · exact hexisting hi
    · exact h.existing hreq hi
  · rcases update_cases hreq with ⟨rfl, rfl⟩ | ⟨-, hreq⟩
    · exact hanswer a ha
    · exact h.answer hreq ha

/-- The id of a request that is yet to come is not in the table. -/
theorem Idempotent.fresh (h : Idempotent uuid4 w) {i : Nat} (hi : w.requests i = none) :
    w.api.jobs.lookup (uuid4.id i) = none := by
  refine Table.lookup_eq_none.mpr fun r hr e => ?_
  obtain ⟨j, req, hreq, -, e'⟩ := h.owner hr
  rw [uuid4.injective (e.symm.trans e'), hreq] at hi
  cases hi

/-! ## Steps -/

theorem Idempotent.insertNew (h : Idempotent uuid4 w) {i : Nat} {body : EventCreateRequest} {jobs : CallJobs}
    (hi : insertJob w.api.calls w.api.jobs (newJob body (uuid4.id i) w.api.now) = some jobs) :
    Idempotent uuid4
      { api := { w.api with jobs := jobs }
        requests := Function.update w.requests i (some ⟨body, .committed⟩) } := by
  obtain ⟨hins, hpair⟩ := insertJob_eq_some hi
  have hnone := (Table.insert_eq_some hins).1
  have hold : ∀ {r}, r ∈ w.api.jobs.rows → r ∈ jobs.rows := fun hr => (Table.mem_insert hins).mpr (.inl hr)
  have hnew : newJob body (uuid4.id i) w.api.now ∈ jobs.rows := (Table.mem_insert hins).mpr (.inr rfl)
  -- The index: no row had the pair of the new one.
  have hne : ∀ {p e r}, r ∈ w.api.jobs.rows → hasPair p e r = true →
      hasPair p e (newJob body (uuid4.id i) w.api.now) = true → False := fun hr hp hp' => by
    obtain ⟨hprov, rfl⟩ := hasPair_iff.mp hp'
    rw [hpair _ hprov _ hr] at hp; cases hp
  -- No other request has the new row's id.
  have hother : ∀ {j req}, w.requests j = some req → inserted req = true → j ≠ i := fun {j req} hreq hins e => by
    obtain ⟨r, hr, hid, -⟩ := h.row hreq hins
    exact Table.lookup_eq_none.mp hnone r hr (by rw [hid, e]; rfl)
  refine ⟨fun {p e x y} hx hy px py => ?_, fun {r} hr => ?_, fun {j req} hreq hins => ?_,
    fun {j req} hreq hins => ?_, fun {j req a} hreq ha => ?_⟩
  · rcases (Table.mem_insert hins).mp hx with hx | rfl <;> rcases (Table.mem_insert hins).mp hy with hy | rfl
    · exact h.unique hx hy px py
    · exact (hne hx px py).elim
    · exact (hne hy py px).elim
    · rfl
  · rcases (Table.mem_insert hins).mp hr with hr | rfl
    · obtain ⟨j, req, hreq, hins, e⟩ := h.owner hr
      exact ⟨j, req, (Function.update_of_ne (hother hreq hins) _ _).trans hreq, hins, e⟩
    · exact ⟨i, _, Function.update_self _ _ _, rfl, rfl⟩
  · rcases update_cases hreq with ⟨rfl, rfl⟩ | ⟨-, hreq⟩
    · exact ⟨_, hnew, rfl, rfl, rfl⟩
    · obtain ⟨r, hr, e, hb⟩ := h.row hreq hins
      exact ⟨r, hold hr, e, hb⟩
  · rcases update_cases hreq with ⟨rfl, rfl⟩ | ⟨-, hreq⟩
    · cases hins
    · obtain ⟨p, hp, r, hr, hb⟩ := h.existing hreq hins
      exact ⟨p, hp, r, hold hr, hb⟩
  · rcases update_cases hreq with ⟨rfl, rfl⟩ | ⟨-, hreq⟩
    · cases ha
    · obtain ⟨response, e, r, hr, hrest⟩ := h.answer hreq ha
      exact ⟨response, e, r, hold hr, hrest⟩

theorem Idempotent.insert (h : Idempotent uuid4 w) {i : Nat} {body : EventCreateRequest}
    (hi : w.requests i = none) (hv : ∀ c ∈ body.callId, c ∈ w.api.calls) :
    Idempotent uuid4
      { api := Jobs.step w.api (.create (uuid4.id i) body)
        requests := Function.update w.requests i (some ⟨body, insertPhase uuid4 w.api i body⟩) } := by
  unfold insertPhase
  simp only [Jobs.step]
  cases hins : insertJob w.api.calls w.api.jobs (newJob body (uuid4.id i) w.api.now) with
  | some jobs => exact h.insertNew hins
  | none =>
    obtain ⟨p, hp, r, hr, hpair⟩ := pair_of_insertJob_eq_none (h.fresh hi) hv hins
    obtain ⟨hprov, htype⟩ := hasPair_iff.mp hpair
    show Idempotent uuid4 (w.setRequest i ⟨body, .conflict⟩)
    refine h.setRequest (fun r hr e => ?_) (fun e => by cases e)
      (fun _ => ⟨p, hp, r, hr, hprov.trans hp.symm, htype⟩) fun a ha => by cases ha
    exact absurd e (Table.lookup_eq_none.mp (h.fresh hi) r hr)

theorem Idempotent.read_inserted (h : Idempotent uuid4 w) {i : Nat} {req : Request} (hreq : w.requests i = some req)
    (hins : inserted req = true) :
    ∃ r ∈ w.api.jobs.rows, r.jobId = uuid4.id i ∧ OfBody req.body r ∧
      refresh uuid4 w.api i = .ok { duplicate := false, event := r } := by
  obtain ⟨r, hr, e, hb⟩ := h.row hreq hins
  have hl : w.api.job (uuid4.id i) = some r := by rw [← e]; exact Table.lookup_of_mem hr
  exact ⟨r, hr, e, hb, by simp only [refresh, hl]⟩

theorem Idempotent.read_existing (h : Idempotent uuid4 w) {i : Nat} {req : Request} (hreq : w.requests i = some req)
    (hins : inserted req = false) :
    ∃ r ∈ w.api.jobs.rows, OfBody req.body r ∧
      readExisting w.api req.body = .ok { duplicate := true, event := r } := by
  obtain ⟨p, hp, r, hr, hb⟩ := h.existing hreq hins
  have hpair : hasPair p req.body.eventType r = true := hasPair_iff.mpr ⟨hb.1.trans hp, hb.2⟩
  have hfind : w.api.jobs.rows.find? (hasPair p req.body.eventType) = some r := by
    cases hf : w.api.jobs.rows.find? (hasPair p req.body.eventType) with
    | none => exact absurd hpair (List.find?_eq_none.mp hf r hr)
    | some x =>
      rw [h.unique (List.mem_of_find?_eq_some hf) hr (List.find?_some hf) hpair]
  exact ⟨r, hr, hb, by simp only [readExisting, hp, hfind]⟩

theorem idempotent_step {a : Creation.Action} (h : Idempotent uuid4 w) (hv : ValidCall w a) :
    Idempotent uuid4 (Creation.step uuid4 w a) := by
  cases a with
  | other a ha =>
    refine h.keep rfl (fun r hr => row_kept hr a) fun r' hr' => ?_
    rcases row_cases hr' with h | ⟨body, e, -⟩
    · exact h
    · rw [e] at ha; cases ha
  | insert i body =>
    simp only [Creation.step]
    split
    · exact h
    · rename_i hi; exact h.insert hi (hv i body rfl)
  | read i =>
    simp only [Creation.step]
    split
    · rename_i body hreq
      obtain ⟨r, hr, e, hb, ha⟩ := h.read_inserted hreq rfl
      rw [ha]
      refine h.setRequest (fun _ _ _ => rfl) (fun _ => ⟨r, hr, e, hb⟩) (fun e => by cases e) fun a' ha' => ?_
      cases ha'
      exact ⟨_, rfl, r, hr, rfl, hb, fun _ => e⟩
    · rename_i body hreq
      obtain ⟨r, hr, hb, ha⟩ := h.read_existing hreq rfl
      obtain ⟨p, hp, -⟩ := h.existing hreq rfl
      rw [ha]
      refine h.setRequest (fun x hx hid => ?_) (fun e => by cases e) (fun _ => ⟨p, hp, r, hr, hb⟩) fun a' ha' => ?_
      · -- The row with this request's id would be one it has created.
        obtain ⟨j, req, hj, hins, e⟩ := h.owner hx
        rw [← uuid4.injective (hid.symm.trans e), hreq] at hj
        cases hj; cases hins
      · cases ha'
        exact ⟨_, rfl, r, hr, rfl, hb, fun e => by cases e⟩
    · exact h

theorem idempotent_init (now : Time) : Idempotent uuid4 (.init now) where
  unique h := by cases h
  owner h := by cases h
  row h := by cases h
  existing h := by cases h
  answer h := by cases h

/-! ## What the requests are answered -/

theorem duplicate_of_answered {req : Request} {response : EventCreateResponse}
    (h : req.phase = .answered (.ok response)) : response.duplicate = !inserted req := by
  simp only [inserted, h, Bool.not_not]

/-- A request that has created a row is answered with it. -/
theorem Idempotent.answer_inserted (h : Idempotent uuid4 w) {i : Nat} {req : Request}
    {a : Answer EventCreateResponse} (hreq : w.requests i = some req) (hins : inserted req = true)
    (ha : req.phase = .answered a) :
    ∃ event, a = .ok { duplicate := false, event := event } ∧ event.jobId = uuid4.id i := by
  obtain ⟨response, rfl, r, -, hid, -, hown⟩ := h.answer hreq ha
  have hd : response.duplicate = false := by rw [duplicate_of_answered ha, hins]; rfl
  exact ⟨response.event, by rw [← hd], hid.symm.trans (hown hd)⟩

/-- A request that has not is answered with the row of its pair. -/
theorem Idempotent.answer_existing (h : Idempotent uuid4 w) {i : Nat} {req : Request}
    {a : Answer EventCreateResponse} {p e : String} {r : CallJob} (hreq : w.requests i = some req)
    (hins : inserted req = false) (hasks : Asks req p e) (hr : r ∈ w.api.jobs.rows) (hpair : hasPair p e r = true)
    (ha : req.phase = .answered a) :
    ∃ event, a = .ok { duplicate := true, event := event } ∧ event.jobId = r.jobId := by
  obtain ⟨response, rfl, x, hx, hid, hb, -⟩ := h.answer hreq ha
  have hd : response.duplicate = true := by rw [duplicate_of_answered ha, hins]; rfl
  have hx' : hasPair p e x = true := hasPair_iff.mpr ⟨hb.1.trans hasks.1, hb.2.trans hasks.2⟩
  exact ⟨response.event, by rw [← hd], by rw [← hid, h.unique hx hr hx' hpair]⟩

/-- The pair of a request has a row, which one of the requests with that pair
has created. -/
theorem Idempotent.creator (h : Idempotent uuid4 w) {i : Nat} {req : Request} {p e : String}
    (hreq : w.requests i = some req) (hasks : Asks req p e) :
    ∃ k creator r, w.requests k = some creator ∧ Asks creator p e ∧ inserted creator = true ∧
      r ∈ w.api.jobs.rows ∧ hasPair p e r = true ∧ r.jobId = uuid4.id k := by
  obtain ⟨r, hr, hb⟩ : ∃ r ∈ w.api.jobs.rows, OfBody req.body r := by
    cases hins : inserted req with
    | true => obtain ⟨r, hr, -, hb⟩ := h.row hreq hins; exact ⟨r, hr, hb⟩
    | false => obtain ⟨-, -, r, hr, hb⟩ := h.existing hreq hins; exact ⟨r, hr, hb⟩
  obtain ⟨k, creator, hk, hins, hid⟩ := h.owner hr
  obtain ⟨x, hx, hxid, hbx⟩ := h.row hk hins
  obtain rfl : x = r := Table.eq_of_key_eq hx hr (hxid.trans hid.symm)
  have hprov : x.providerCallId = some p := hb.1.trans hasks.1
  have htype : x.eventType = e := hb.2.trans hasks.2
  exact ⟨k, creator, x, hk, ⟨hbx.1.symm.trans hprov, hbx.2.symm.trans htype⟩, hins, hr,
    hasPair_iff.mpr ⟨hprov, htype⟩, hid⟩

/-- Only one request creates the row of a pair. -/
theorem Idempotent.creator_unique (h : Idempotent uuid4 w) {i : Nat} {req : Request} {p e : String} {k : Nat}
    {r : CallJob} (hreq : w.requests i = some req) (hasks : Asks req p e) (hr : r ∈ w.api.jobs.rows)
    (hpair : hasPair p e r = true) (hid : r.jobId = uuid4.id k) (hne : i ≠ k) : inserted req = false := by
  cases hins : inserted req with
  | false => rfl
  | true =>
    obtain ⟨x, hx, hxid, hb⟩ := h.row hreq hins
    have hxpair : hasPair p e x = true := hasPair_iff.mpr ⟨hb.1.trans hasks.1, hb.2.trans hasks.2⟩
    obtain rfl := h.unique hx hr hxpair hpair
    exact absurd (uuid4.injective (hxid.symm.trans hid)) hne

/-- The next step of a request that is not answered answers it. -/
theorem Idempotent.answered_next (h : Idempotent uuid4 w) {i : Nat} {req : Request}
    (hreq : w.requests i = some req) :
    ∃ req' response, (Creation.step uuid4 w (.read i)).requests i = some req' ∧ req'.body = req.body ∧
      req'.phase = .answered (.ok response) := by
  obtain ⟨body, phase⟩ := req
  cases phase with
  | committed =>
    obtain ⟨r, -, -, -, ha⟩ := h.read_inserted hreq rfl
    simp only [Creation.step, hreq, ha]
    exact ⟨_, _, Function.update_self _ _ _, rfl, rfl⟩
  | conflict =>
    obtain ⟨r, -, -, ha⟩ := h.read_existing hreq rfl
    simp only [Creation.step, hreq, ha]
    exact ⟨_, _, Function.update_self _ _ _, rfl, rfl⟩
  | answered a =>
    obtain ⟨response, rfl, -⟩ := h.answer hreq rfl
    exact ⟨_, response, by simp only [Creation.step, hreq], rfl, rfl⟩

/-- The steps of `create_event` leave every row as it is. -/
theorem rows_kept (uuid4 : Uuid4) {w : World} {a : Creation.Action} (ha : ∀ b hb, a ≠ .other b hb) {r : CallJob}
    (hr : r ∈ w.api.jobs.rows) : r ∈ (Creation.step uuid4 w a).api.jobs.rows := by
  cases a with
  | other b hb => exact absurd rfl (ha b hb)
  | insert i body =>
    simp only [Creation.step]
    split
    · exact hr
    · simp only [Jobs.step]
      split
      · rename_i jobs hi
        show r ∈ jobs.rows
        exact (Table.mem_insert (insertJob_eq_some hi).1).mpr (.inl hr)
      · exact hr
  | read i =>
    simp only [Creation.step]
    split <;> exact hr

end

/-- Idempotent event creation. In every run of `create_event` requests, whose
`call_id`s are absent or valid and whose values fit their columns, and other
requests: a pair of a `provider_call_id` and an `event_type` has at most one row;
of the requests with that pair one is answered `duplicate=False` and all others
`duplicate=True`, with the same `job_id`; a request without `provider_call_id`
has its own row; the read that follows a request's `INSERT` answers it, without
an exception; and no step of a request changes a row that is there. -/
theorem create_event_idempotent (uuid4 : Uuid4) (now : Time) (as : List Creation.Action)
    (hv : AllSteps (Creation.step uuid4) ValidCall (.init now) as) :
    let w := run (Creation.step uuid4) (.init now) as
    (∀ p e, ∀ r ∈ w.api.jobs.rows, ∀ r' ∈ w.api.jobs.rows,
      hasPair p e r = true → hasPair p e r' = true → r = r') ∧
    (∀ p e, (∃ i req, w.requests i = some req ∧ Asks req p e) →
      ∃ i req r, w.requests i = some req ∧ Asks req p e ∧ r ∈ w.api.jobs.rows ∧ hasPair p e r = true ∧
        (∀ a, req.phase = .answered a →
          ∃ event, a = .ok { duplicate := false, event := event } ∧ event.jobId = r.jobId) ∧
        ∀ j req', j ≠ i → w.requests j = some req' → Asks req' p e → ∀ a, req'.phase = .answered a →
          ∃ event, a = .ok { duplicate := true, event := event } ∧ event.jobId = r.jobId) ∧
    (∀ i req, w.requests i = some req → req.body.providerCallId = none →
      (∃ r ∈ w.api.jobs.rows, r.jobId = uuid4.id i ∧ OfBody req.body r) ∧
      ∀ a, req.phase = .answered a →
        ∃ event, a = .ok { duplicate := false, event := event } ∧ event.jobId = uuid4.id i) ∧
    (∀ i req, w.requests i = some req →
      ∃ req' response, (Creation.step uuid4 w (.read i)).requests i = some req' ∧ req'.body = req.body ∧
        req'.phase = .answered (.ok response)) ∧
    ∀ a, (∀ b hb, a ≠ .other b hb) → ∀ r ∈ w.api.jobs.rows, r ∈ (Creation.step uuid4 w a).api.jobs.rows := by
  intro w
  have h : Idempotent uuid4 w :=
    (always_of_step (idempotent_init now) (fun _ _ h hv => idempotent_step h hv) hv).last
  refine ⟨fun p e r hr r' hr' => h.unique hr hr', fun p e hasked => ?_, fun i req hreq hp => ?_,
    fun i req hreq => h.answered_next hreq, fun a ha r hr => rows_kept uuid4 ha hr⟩
  · obtain ⟨i, req, hreq, hasks⟩ := hasked
    obtain ⟨k, creator, r, hk, hasks', hins, hr, hpair, hid⟩ := h.creator hreq hasks
    refine ⟨k, creator, r, hk, hasks', hr, hpair, fun a ha => ?_, fun j req' hne hj hasked a ha => ?_⟩
    · rw [hid]; exact h.answer_inserted hk hins ha
    · exact h.answer_existing hj (h.creator_unique hj hasked hr hpair hid hne) hasked hr hpair ha
  · have hins : inserted req = true := by
      cases hins : inserted req with
      | true => rfl
      | false =>
        obtain ⟨p, hp', -⟩ := h.existing hreq hins
        rw [hp] at hp'; cases hp'
    exact ⟨h.row hreq hins, fun a ha => h.answer_inserted hreq hins ha⟩

/-- Ids of growing length. -/
def growingIds : Uuid4 where
  id n := String.ofList (List.replicate n 'u')
  injective a b h := by simpa using congrArg String.length h

/-- An event of a provider call. -/
def providerEvent : EventCreateRequest := { answeredEvent with providerCallId := some "CA1" }

/-- Two requests with one pair race, and their job is claimed in between. -/
def racingRun : List Creation.Action :=
  [.insert 0 providerEvent, .insert 1 providerEvent, .other (.claim "") rfl, .read 1, .read 0]

theorem create_event_idempotent_racing :
    (∀ i body, Creation.Action.insert i body ∈ racingRun → body.callId = none) ∧
      ∃ i req r, (run (Creation.step growingIds) (.init 0) racingRun).requests i = some req ∧
        r ∈ (run (Creation.step growingIds) (.init 0) racingRun).api.jobs.rows ∧
        hasPair "CA1" "answered" r = true := by
  have hbody : ∀ i body, Creation.Action.insert i body ∈ racingRun → body.callId = none := by
    intro i body h
    simp only [racingRun, List.mem_cons, List.not_mem_nil, or_false, reduceCtorEq,
      Creation.Action.insert.injEq] at h
    rcases h with ⟨-, rfl⟩ | ⟨-, rfl⟩ <;> rfl
  refine ⟨hbody, ?_⟩
  obtain ⟨-, h, -⟩ := create_event_idempotent growingIds 0 racingRun fun p a hp i body e c hc => by
    subst e
    rw [hbody i body (hp.subset (by simp))] at hc
    cases hc
  obtain ⟨i, req, r, hreq, -, hr, hpair, -⟩ := h "CA1" "answered" ⟨0, _, rfl, rfl, rfl⟩
  exact ⟨i, req, r, hreq, hr, hpair⟩

end CallingAgent.Proof.Jobs
