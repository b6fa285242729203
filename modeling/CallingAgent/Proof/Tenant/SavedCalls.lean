import CallingAgent.Framework.Run
import CallingAgent.Impl.Platform
import CallingAgent.Proof.Reads.Visible

/-!
# A tenant's calls are those that were saved for it

`POST /call` and the routes that show calls agree over every run (`calls_as_saved`): the
list, the single call and the statistics are made from the tenant's calls at the start
and those that requests have committed since, in order, with the phone number as
`validate_phone` has cleaned it. A success is the answer to a call that has been committed,
and always its answer if the request keeps its connection (`serveCall_ok_iff`).

* `makeCall_eq`: `make_call` adds the call, and answers by what the refresh sees;
* `rows_step`, `rows_run`: what that makes of the tenant's rows, in a step and in a run;
* `callRequests_own`: the session of a tenant's user sees these rows and no others.
-/

namespace CallingAgent.Proof.Tenant.SavedCalls

open CallingAgent.Framework CallingAgent.Impl CallingAgent.Impl.Auth CallingAgent.Impl.Reads CallingAgent.Impl.Platform
open CallingAgent.Proof.Reads

variable {bcrypt : Bcrypt} {n : Int} {s : Tables} {db : Session} {user : Claims} {io : Platform.Effects}

/-- The calls of the tenant. -/
def callsOf (n : Int) (rows : List Caller) : List Caller := rows.filter fun call => call.clientId = some n

/-- A request to `POST /call` commits its call. -/
def commits (d : Database) (setting : Tenant.Setting) (io : Platform.Effects) (user : Answer Claims)
    (body : Params CallerRequest) : Bool :=
  match user, body with
  | .ok user, .ok call => (insertCall io (tenantScopedDb user ⟨d, some setting⟩) user call).isSome
  | _, _ => false

/-- The call of a request. -/
def callOf (io : Platform.Effects) (user : Answer Claims) (body : Params CallerRequest) : List Caller :=
  match user, body with
  | .ok user, .ok call => [call.caller io user]
  | _, _ => []

/-- The calls that a request saves for the tenant. -/
def saved (n : Int) (s : Tables) : Platform.Request → List Caller
  | .call setting _ authorization body io =>
    if commits s.database setting io (getCurrentUser io.now authorization) (validPhone io body) then
      callsOf n (callOf io (getCurrentUser io.now authorization) (validPhone io body))
    else []
  | _ => []

/-- What a user of the tenant is shown of its calls. -/
structure Shows (env : Env) (user : Claims) (calls : List Caller) (answer : ClientRouter.Get → Answer Api.Response) :
    Prop where
  list : ∀ query : ClientRouter.SearchQuery, answer (.listCalls (.ok query)) =
    if offsetFits query.paging.perPage (query.paging.page - 1) then
      .ok (.client (.calls ((query.paging.select (env.callOrder.desc env.dialect (·.createdAt))
        (calls.filter fun call => whereLike env query.search [call.customerName, call.phoneNumber])).map
          ClientRouter.callResponse)))
    else .raised
  call : ∀ callId : Int, answer (.getCall (.ok callId)) =
    match calls.find? fun call => call.id == callId with
    | some call => .ok (.client (.call (ClientRouter.callResponse call)))
    | none => .httpException 404 "Call not found"
  analytics : user.role = some "tenant_admin" → answer .getAnalytics =
    .ok (.client (.analytics
      { totalCalls := calls.length
        callsThisMonth := countSince (startOfMonth env.now) (·.createdAt) calls
        callsThisWeek := countSince (env.now - days 7) (·.createdAt) calls
        dailyVolume := ClientRouter.dailyVolume env (calls.filter fun call =>
          call.createdAt.any (env.now - days 30 ≤ ·)) }))

/-! ## `POST /call` -/

/-- A session with this setting sees the user's tenant. -/
def sees (setting : Tenant.Setting) (user : Claims) : Bool := Tenant.tenantIsolation setting (user.clientId.map toString)

theorem insert_of_insertCall {call : CallerRequest} {callRequests : Table Caller.id}
    (h : insertCall io db user call = some callRequests) :
    db.database.callRequests.insert (call.caller io user) = some callRequests := by
  unfold insertCall at h
  dsimp only at h
  split at h
  · exact h
  · cases h

/-- It adds the call, and says so if the refresh sees it. -/
theorem makeCall_eq (io : Platform.Effects) (found : Tenant.Setting) (db : Session) (user : Claims) (call : CallerRequest) :
    makeCall io found db user call =
      match insertCall io db user call with
      | some callRequests =>
        ({ db with database := { db.database with callRequests := callRequests } },
          if sees found user then .ok { redisSession := if io.redis then some io.uuid4 else none } else .raised)
      | none => (db, .raised) := by
  unfold makeCall
  cases h : insertCall io db user call with
  | none => rfl
  | some callRequests =>
    have hinsert := insert_of_insertCall h
    have hget : ({ database := { db.database with callRequests := callRequests }, rls := some found } : Session).getCaller
        io.id = (some (call.caller io user)).filter fun _ => sees found user := by
      refine (Table.find?_filter_rows callRequests _ io.id).trans ?_
      have hid : (call.caller io user).id = io.id := rfl
      rw [Table.lookup_insert hinsert, if_pos hid]
      rfl
    simp only [hget, Option.filter_some]
    cases sees found user <;> rfl

theorem makeCall_rows (io : Platform.Effects) (found : Tenant.Setting) (db : Session) (user : Claims)
    (call : CallerRequest) :
    (makeCall io found db user call).1.database.callRequests.rows =
      db.database.callRequests.rows ++
        if (insertCall io db user call).isSome then [call.caller io user] else [] := by
  rw [makeCall_eq]
  cases h : insertCall io db user call with
  | none => exact (List.append_nil _).symm
  | some callRequests => exact (Table.insert_eq_some (insert_of_insertCall h)).2

theorem serveCall_rows (d : Database) (setting found : Tenant.Setting) (authorization : Option Token)
    (body : Params CallerRequest) :
    callsOf n (serveCall d setting found authorization io body).1.database.callRequests.rows =
      callsOf n d.callRequests.rows ++
        if commits d setting io (getCurrentUser io.now authorization) (validPhone io body) then
          callsOf n (callOf io (getCurrentUser io.now authorization) (validPhone io body))
        else [] := by
  unfold serveCall
  cases getCurrentUser io.now authorization with
  | raised => exact (List.append_nil _).symm
  | httpException statusCode detail => exact (List.append_nil _).symm
  | ok user =>
    dsimp only
    cases validPhone io body with
    | error errors => exact (List.append_nil _).symm
    | ok call =>
      have hcommits : commits d setting io (.ok user) (.ok call) =
          (insertCall io (tenantScopedDb user ⟨d, some setting⟩) user call).isSome := rfl
      dsimp only
      rw [makeCall_rows, callsOf, List.filter_append, hcommits]
      split
      · rfl
      · rfl

/-- A success is the answer to a call that has been committed and that the refresh sees. -/
theorem serveCall_ok_iff (d : Database) (setting found : Tenant.Setting) {authorization : Option Token}
    (body : Params CallerRequest) (hactor : getCurrentUser io.now authorization = .ok user) :
    (∃ saved, (serveCall d setting found authorization io body).2 = .ok saved) ↔
      commits d setting io (.ok user) (validPhone io body) = true ∧ sees found user = true := by
  unfold serveCall
  rw [hactor]
  dsimp only
  cases validPhone io body with
  | error errors => simp [commits]
  | ok call =>
    dsimp only [commits]
    rw [makeCall_eq]
    cases insertCall io (tenantScopedDb user ⟨d, some setting⟩) user call with
    | none => simp
    | some callRequests => cases h : sees found user <;> simp

/-! ## Runs -/

theorem rows_step (bcrypt : Bcrypt) (n : Int) (s : Tables) (request : Platform.Request) :
    callsOf n (step bcrypt s request).callRequests.rows = callsOf n s.callRequests.rows ++ saved n s request := by
  cases request with
  | call setting found authorization body io => exact serveCall_rows s.database setting found authorization body
  | administer request audit => exact (List.append_nil _).symm
  | get env setting authorization request => exact (List.append_nil _).symm
  | customer setting found authorization write io => exact (List.append_nil _).symm

theorem rows_run (bcrypt : Bcrypt) (n : Int) (s : Tables) (requests : List Platform.Request) :
    callsOf n (run (step bcrypt) s requests).callRequests.rows =
      callsOf n s.callRequests.rows ++ collect (step bcrypt) (saved n) s requests := by
  induction requests using List.reverseRecOn with
  | nil => exact (List.append_nil _).symm
  | append_singleton requests request ih =>
    rw [run_concat, collect_concat, rows_step, ih, List.append_assoc]

/-! ## Reads -/

/-- The session of a user of the tenant sees the calls of the tenant. -/
theorem callRequests_own (hrole : OfTenant user) (hclient : user.clientId = some n) (hn : n ≠ 0) (d : Database)
    (setting : Tenant.Setting) :
    (tenantScopedDb user ⟨d, some setting⟩).callRequests = callsOf n d.callRequests.rows := by
  refine List.filter_congr fun call _ => ?_
  rw [visible_tenantScopedDb hrole rfl, tenantValue_some hrole hclient hn]
  refine decide_eq_decide.mpr ⟨fun h => ?_, fun h => by rw [h]; rfl⟩
  obtain ⟨m, hm, e⟩ := Option.map_eq_some_iff.mp h
  rw [hm, toString_injective e]

theorem requireClient_own {β : Type} (hrole : OfTenant user) (hclient : user.clientId = some n) (hn : n ≠ 0)
    (httpException : Nat → String → β) (handler : Int → β) :
    ClientRouter.requireClient user httpException handler = handler n := by
  have hrole : user.role = some "tenant_admin" ∨ user.role = some "agent" := hrole
  rw [ClientRouter.requireClient, if_pos hrole, hclient]
  exact if_neg hn

/-- What a user of the tenant is shown, by its rows. -/
theorem shows_rows {env : Env} {authorization : Option Token} (hactor : getCurrentUser env.now authorization = .ok user)
    (hrole : OfTenant user) (hclient : user.clientId = some n) (hn : n ≠ 0) (d : Database) (setting : Tenant.Setting) :
    Shows env user (callsOf n d.callRequests.rows) fun request =>
      Api.serve env ⟨d, some setting⟩ authorization (.client request) := by
  have hrows := callRequests_own hrole hclient hn d setting
  have hown : ClientRouter.ownCalls (tenantScopedDb user ⟨d, some setting⟩) n = callsOf n d.callRequests.rows := by
    rw [ClientRouter.ownCalls, hrows, callsOf, List.filter_filter]
    exact List.filter_congr fun call _ => Bool.and_self _
  have hserve : ∀ request, Api.serve env ⟨d, some setting⟩ authorization (.client request) =
      ((ClientRouter.get env ⟨d, some setting⟩ user request).bind fun body => .ok (.client body)).bind fun body =>
        if body.fits then Api.response env body else .raised := by
    intro request
    rw [Api.serve, Api.get, hactor]
    rfl
  constructor
  · intro query
    rw [hserve, ClientRouter.get, requireClient_own hrole hclient hn]
    simp only [validated, ClientRouter.listCalls, hown, Answer.bind, Api.Body.fits, ClientRouter.Body.fits]
    rfl
  · intro callId
    rw [hserve, ClientRouter.get, requireClient_own hrole hclient hn]
    simp only [validated, ClientRouter.getCall, Session.getCaller, hrows]
    cases hfind : (callsOf n d.callRequests.rows).find? fun call => call.id == callId with
    | none => rfl
    | some call =>
      have hcall : call.clientId = some n := by
        simpa using (List.mem_filter.mp (List.mem_of_find?_eq_some hfind)).2
      rw [ClientRouter.ownRow, if_neg (not_not.mpr hcall)]
      rfl
  · intro hadmin
    rw [hserve, ClientRouter.get, ClientRouter.requireClientAdmin, requireClient_own hrole hclient hn, if_pos hadmin]
    simp only [ClientRouter.getAnalytics, hown]
    rfl

/-- After every run, a user of a tenant is shown the calls that the tenant had and
those that have been saved for it. -/
theorem calls_as_saved (bcrypt : Bcrypt) (n : Int) (hn : n ≠ 0) (s : Tables) (requests : List Platform.Request) (env : Env)
    (setting : Tenant.Setting) (authorization : Option Token) (user : Claims)
    (hactor : getCurrentUser env.now authorization = .ok user)
    (hrole : user.role = some "tenant_admin" ∨ user.role = some "agent") (hclient : user.clientId = some n) :
    Shows env user (callsOf n s.callRequests.rows ++ collect (step bcrypt) (saved n) s requests) fun request =>
      Api.serve env ⟨(run (step bcrypt) s requests).database, some setting⟩ authorization (.client request) := by
  rw [← rows_run]
  exact shows_rows hactor hrole hclient hn (run (step bcrypt) s requests).database setting

/-- A booking, with its phone number as it was typed. -/
def booking : CallerRequest where
  customerName := "Asha"
  phoneNumber := "+91 98765-43210"
  hotelName := "Taj"
  checkInDate := "2026-09-01"
  checkOutDate := "2026-09-03"

/-- It is saved once, although its refresh is on another connection; the second commit
fails. -/
def twoBookings : List Platform.Request :=
  [.call none none (some (some (tenantAdmin (some 1)))) (.ok booking) ⟨0, 7, "s0", true, false, id⟩,
    .call none none (some (some (tenantAdmin (some 1)))) (.ok booking) ⟨0, 8, "s1", false, false, id⟩]

def noTables : Tables where
  administration :=
    { clients := { rows := [], keyed := by decide, unique := by decide }
      users := { rows := [], keyed := by decide, unique := by decide }
      auditLogs := .empty
      phoneNumberRoutes := .empty }
  customers := .empty
  callRequests := .empty

theorem booking_shown :
    ∃ calls : List Caller, calls.map (fun call => (call.id, call.phoneNumber)) = [(7, some "+919876543210")] ∧
      Shows (postgresEnv tableOrder) (tenantAdmin (some 1)) calls fun request =>
        Api.serve (postgresEnv tableOrder)
          ⟨(run (step ⟨fun _ _ => "", fun _ _ => true⟩) noTables twoBookings).database, some none⟩
          (some (some (tenantAdmin (some 1)))) (.client request) := by
  refine ⟨callsOf 1 noTables.callRequests.rows ++
    collect (step ⟨fun _ _ => "", fun _ _ => true⟩) (saved 1) noTables twoBookings, by decide +kernel, ?_⟩
  exact calls_as_saved _ 1 (by decide) noTables twoBookings _ none _ _ rfl (.inl rfl) rfl

end CallingAgent.Proof.Tenant.SavedCalls
