import CallingAgent.Impl.Concurrent
import CallingAgent.Proof.Admin.Handlers

/-!
# Concurrent inserts

What the commit of a new client, user or call comes to in whatever state it finds: the
request raises if the row's key has been taken, or what the database makes of the request's
own values, refresh and audit row is in its way; otherwise the row is there from now on.
`Resolves` is what this makes of runs.
-/

namespace CallingAgent.Proof.Concurrent

open CallingAgent.Framework CallingAgent.Impl CallingAgent.Impl.Auth CallingAgent.Impl.Admin CallingAgent.Impl.AdminWrites
open CallingAgent.Impl.Calls CallingAgent.Impl.Concurrent

/-! ## Runs of requests -/

/-- What a run of requests comes to: who takes both steps is answered, an answer with `done`
leaves the state settled, and the answers are good exactly if no commit was too late. -/
structure Resolves {S P R : Type} (handler : Nat → TwoStep S P R) (good done : Nat → R → Prop) (settled : Nat → S → Prop)
    (late : Nat → S → P → Prop) (s : S) (as : List TwoStep.Act) : Prop where
  answered : ∀ i, List.Sublist [.check i, .commit i] as →
    ∃ r, (run (TwoStep.step handler) (.init s) as).stage i = .answered r
  one : ∀ i r, (run (TwoStep.step handler) (.init s) as).stage i = .answered r → done i r →
    settled i (run (TwoStep.step handler) (.init s) as).state
  documented : TwoStep.AllGood good (run (TwoStep.step handler) (.init s) as) ↔
    AllSteps (TwoStep.step handler) (fun w a => ¬TwoStep.LateCommit late w a) (.init s) as

theorem resolves {S P R : Type} {handler : Nat → TwoStep S P R} {J : Nat → S → P → Prop} {good done : Nat → R → Prop}
    {settled : Nat → S → Prop} {late : Nat → S → P → Prop} (hr : TwoStep.Rules handler (fun _ => True) J good late)
    (hs : TwoStep.Settles handler (fun _ => True) J done settled) (s : S) (as : List TwoStep.Act) :
    Resolves handler good done settled late s as where
  answered _ h := TwoStep.answered_of_steps h _
  one := hr.settled_run hs trivial as
  documented := hr.answers_iff trivial as

/-- What a request that adds a row comes to on its own: an answer of the check is good, and the
commit is too late and raises, with the row or without it, or adds the row. The row is the
only one of its kind. -/
structure Creates {S P α ρ : Type} (handler : TwoStep S P (Answer α)) (rows : S → List ρ) (own : ρ → Prop)
    (good done : Answer α → Prop) (late : S → Prop) : Prop where
  check : ∀ s r, handler.check s = .error r → good r ∧ (done r → ∃ x ∈ rows s, own x)
  commit : ∀ s p, (late s ∧ (handler.commit s p).2 = .raised ∧ rows s <+: rows (handler.commit s p).1) ∨
    ¬late s ∧ good (handler.commit s p).2 ∧ ∃ x, own x ∧ rows (handler.commit s p).1 = rows s ++ [x]
  not_good : ¬good .raised
  not_done : ¬done .raised
  unique : ∀ s, ∀ x ∈ rows s, ∀ y ∈ rows s, own x → own y → x = y

section Run

variable {S P α ρ : Type} {handler : Nat → TwoStep S P (Answer α)} {rows : S → List ρ} {own : Nat → ρ → Prop}
  {good done : Nat → Answer α → Prop} {late : Nat → S → Prop}

theorem creates_rules (h : ∀ i, Creates (handler i) rows (own i) (good i) (done i) (late i)) :
    TwoStep.Rules handler (fun _ => True) (fun _ _ _ => True) good fun i s _ => late i s where
  check_ok _ _ _ _ _ := trivial
  check_error i s r _ hr := ((h i).check s r hr).1
  commit i s p _ _ := by
    obtain ⟨hlate, e, -⟩ | ⟨hfree, hgood, -⟩ := (h i).commit s p
    · rw [e]
      exact iff_of_false (h i).not_good (not_not_intro hlate)
    · exact iff_of_true hgood hfree
  keeps _ _ _ _ _ := trivial
  keeps_found _ _ _ _ _ _ _ _ := trivial

theorem creates_settles (h : ∀ i, Creates (handler i) rows (own i) (good i) (done i) (late i)) :
    TwoStep.Settles handler (fun _ => True) (fun _ _ _ => True) done fun i s => ∃! x, x ∈ rows s ∧ own i x where
  check i s r _ hr hd := by
    obtain ⟨x, hx, ho⟩ := ((h i).check s r hr).2 hd
    exact ⟨x, ⟨hx, ho⟩, fun y hy => (h i).unique s y hy.1 x hx hy.2 ho⟩
  commit i s p _ _ hd := by
    obtain ⟨-, e, -⟩ | ⟨-, -, x, ho, e⟩ := (h i).commit s p
    · rw [e] at hd
      exact absurd hd (h i).not_done
    · have hx : x ∈ rows ((handler i).commit s p).1 := by
        rw [e]
        exact List.mem_concat_self
      exact ⟨x, ⟨hx, ho⟩, fun y hy => (h i).unique _ y hy.1 x hx hy.2 ho⟩
  keeps i j s p _ _ hs := by
    obtain ⟨x, ⟨hx, ho⟩, -⟩ := hs
    have hx' : x ∈ rows ((handler j).commit s p).1 := by
      obtain ⟨-, -, hrows⟩ | ⟨-, -, y, -, e⟩ := (h j).commit s p
      · exact hrows.subset hx
      · rw [e]
        exact List.mem_append_left _ hx
    exact ⟨x, ⟨hx', ho⟩, fun y hy => (h i).unique _ y hy.1 x hx' hy.2 ho⟩

theorem creates_resolves (h : ∀ i, Creates (handler i) rows (own i) (good i) (done i) (late i)) (s : S)
    (as : List TwoStep.Act) :
    Resolves handler good done (fun i s => ∃! x, x ∈ rows s ∧ own i x) (fun i s _ => late i s) s as :=
  resolves (creates_rules h) (creates_settles h) s as

end Run

/-! ## Commits -/

variable {db : Tables} {actor : Claims} {eff : AdminWrites.Effects} {change : Change}

/-- A new row is refused exactly if its value of the index is taken. -/
theorem check_insert_eq_none {ρ κ υ : Type} [DecidableEq κ] [DecidableEq υ] {key : ρ → κ} {index : ρ → Option υ}
    {t : Indexed key index} {t' : Table key} {row : ρ} {v : υ} (hv : index row = some v)
    (h : t.toTable.insert row = some t') :
    (Indexed.check t' : Option (Indexed key index)) = none ↔ ∃ x ∈ t.rows, index x = some v := by
  rw [Indexed.check_eq_none, unique_insert t.unique h, hv]
  constructor
  · intro hn
    by_contra hfree
    exact hn fun x hx e => absurd ⟨x, hx, e⟩ hfree
  · intro htaken hn
    obtain ⟨x, hx, e⟩ := htaken
    cases hn x hx e

theorem insert_eq_none {ρ κ : Type} [DecidableEq κ] {key : ρ → κ} {t : Table key} {row : ρ} :
    t.insert row = none ↔ ∃ x ∈ t.rows, key x = key row := by
  constructor
  · intro h
    by_contra hfree
    have hnone : t.lookup (key row) = none := Table.lookup_eq_none.mpr fun x hx e => hfree ⟨x, hx, e⟩
    obtain ⟨t', h'⟩ := Table.exists_insert hnone
    rw [h] at h'
    cases h'
  · intro htaken
    obtain ⟨x, hx, e⟩ := htaken
    cases h : t.insert row with
    | none => rfl
    | some t' => exact absurd e (Table.lookup_eq_none.mp (Table.insert_eq_some h).1 x hx)

theorem check_self {ρ κ υ : Type} [DecidableEq κ] [DecidableEq υ] {key : ρ → κ} {index : ρ → Option υ}
    (t : Indexed key index) : Indexed.check t.toTable = some t := Indexed.check_eq_some.mpr rfl

theorem commit_clients_eq_none (hu : change.users = db.users.toTable) :
    commit eff db change = none ↔
      (Indexed.check change.clients : Option (Indexed Client.id Client.slug)) = none ∨ eff.fits = false := by
  unfold commit
  rw [hu, check_self]
  cases (Indexed.check change.clients : Option (Indexed Client.id Client.slug)) with
  | none => simp
  | some clients => cases eff.fits <;> simp

theorem commit_users_eq_none (hc : change.clients = db.clients.toTable) :
    commit eff db change = none ↔
      (Indexed.check change.users : Option (Indexed AdminUser.id fun user => some user.email)) = none ∨
        eff.fits = false := by
  unfold commit
  rw [hc, check_self]
  cases (Indexed.check change.users : Option (Indexed AdminUser.id fun user => some user.email)) with
  | none => simp
  | some users => cases eff.fits <;> simp

/-- A refused commit leaves the tables alone. -/
theorem finish_refused (actor : Claims) {refreshes inserts : Bool} (h : commit eff db change = none) :
    finish actor eff refreshes inserts db (.ok change) = (db, .raised) := by
  simp only [finish, h]

/-- What has been committed stays, whatever becomes of the refresh and of the audit row. -/
theorem finish_tables (actor : Claims) {refreshes inserts : Bool} (h : commit eff db change ≠ none) :
    (finish actor eff refreshes inserts db (.ok change)).1.clients.toTable = change.clients ∧
      (finish actor eff refreshes inserts db (.ok change)).1.users.toTable = change.users := by
  obtain ⟨tables, h⟩ := Option.ne_none_iff_exists'.mp h
  obtain ⟨-, hclients, husers, -⟩ := Admin.commit_eq_some.mp h
  simp only [finish, h]
  cases refreshes with
  | false => exact ⟨hclients, husers⟩
  | true => cases inserts <;> exact ⟨hclients, husers⟩

/-- The answer with a body needs the refresh and the audit row. -/
theorem finish_answer (actor : Claims) {refreshes inserts : Bool} (h : commit eff db change ≠ none)
    (hbody : change.reply.body.isNone = false) :
    (finish actor eff refreshes inserts db (.ok change)).2 =
      if refreshes = false ∨ inserts = false then .raised else .ok change.reply := by
  obtain ⟨tables, h⟩ := Option.ne_none_iff_exists'.mp h
  simp only [finish, h]
  cases refreshes with
  | false => rfl
  | true => cases inserts <;> simp [respond, hbody]

/-! ## Clients and tenants -/

/-- The slug or the id is taken, or the values do not fit. -/
def clientRefused (r : ClientCreation) (db : Tables) : Prop :=
  (∃ client ∈ db.clients.rows, client.slug = some r.body.slug) ∨ (∃ client ∈ db.clients.rows, client.id = r.eff.clientId) ∨
    r.eff.fits = false

/-- The row is refused, or its audit row. -/
def clientLate (r : ClientCreation) (db : Tables) : Prop := clientRefused r db ∨ r.inserts = false

/-- Success, or a 409 for the slug. -/
def clientDone (answer : Answer Reply) : Prop :=
  (∃ reply, answer = .ok reply) ∨ answer = .httpException 409 "Slug already exists"

/-- The documented answers: besides, a 400 for a plan that there is not. -/
def clientGood (r : ClientCreation) (answer : Answer Reply) : Prop :=
  clientDone answer ∨
    clientPlan r.body.plan = none ∧ answer = .httpException 400 "plan must be one of ['enterprise', 'pro', 'starter']"

/-- The insert of a client: the id is taken, or the change has the row. -/
theorem client_insert_cases (r : ClientCreation) (db : Tables) (plan : Plan) :
    ((∃ client ∈ db.clients.rows, client.id = r.eff.clientId) ∧ r.insert db plan = .raised) ∨
    ∃ clients change, db.clients.insert (r.body.client r.eff plan) = some clients ∧ r.insert db plan = .ok change ∧
      change.clients = clients ∧ change.users = db.users.toTable ∧ change.reply.body.isNone = false := by
  unfold ClientCreation.insert insertClient
  dsimp only
  cases h : db.clients.insert (r.body.client r.eff plan) with
  | none => exact .inl ⟨insert_eq_none.mp h, by split <;> rfl⟩
  | some clients =>
    right
    split
    · exact ⟨clients, _, rfl, rfl, rfl, rfl, rfl⟩
    · exact ⟨clients, _, rfl, rfl, rfl, rfl, rfl⟩

theorem client_commit (r : ClientCreation) (db : Tables) (plan : Plan) :
    (clientLate r db ∧ (r.handler.commit db plan).2 = .raised ∧
      db.clients.rows <+: (r.handler.commit db plan).1.clients.rows) ∨
    ¬clientLate r db ∧ clientGood r (r.handler.commit db plan).2 ∧ ∃ client, client.slug = some r.body.slug ∧
      (r.handler.commit db plan).1.clients.rows = db.clients.rows ++ [client] := by
  have hcommit : r.handler.commit db plan = finish r.actor r.eff true r.inserts db (r.insert db plan) := rfl
  obtain ⟨htaken, h⟩ | ⟨clients, change, hinsert, h, hclients, husers, hbody⟩ := client_insert_cases r db plan
  · rw [hcommit, h]
    exact .inl ⟨.inl (.inr (.inl htaken)), rfl, List.prefix_rfl⟩
  · have hfree : ¬∃ client ∈ db.clients.rows, client.id = r.eff.clientId := by
      intro htaken
      rw [insert_eq_none.mpr htaken] at hinsert
      cases hinsert
    have hnone : commit r.eff db change = none ↔ clientRefused r db := by
      rw [commit_clients_eq_none husers, hclients,
        check_insert_eq_none (t := db.clients) (v := r.body.slug) rfl hinsert]
      unfold clientRefused
      rw [or_iff_right hfree]
    rw [hcommit, h]
    by_cases hrefused : clientRefused r db
    · rw [finish_refused r.actor (hnone.mpr hrefused)]
      exact .inl ⟨.inl hrefused, rfl, List.prefix_rfl⟩
    · have hc : commit r.eff db change ≠ none := fun e => hrefused (hnone.mp e)
      have hrows : (finish r.actor r.eff true r.inserts db (.ok change)).1.clients.rows =
          db.clients.rows ++ [r.body.client r.eff plan] := by
        rw [(finish_tables r.actor hc).1, hclients]
        exact (Table.insert_eq_some hinsert).2
      rw [finish_answer r.actor hc hbody, hrows]
      cases hi : r.inserts with
      | false => exact .inl ⟨.inr hi, rfl, List.prefix_append _ _⟩
      | true =>
        refine .inr ⟨fun hlate => ?_, .inl (.inl ⟨_, rfl⟩), _, rfl, rfl⟩
        obtain hlate | hlate := hlate
        · exact hrefused hlate
        · cases hi.symm.trans hlate

theorem slugTaken_iff {slug : String} : slugTaken db slug = true ↔ ∃ client ∈ db.clients.rows, client.slug = some slug := by
  simp [slugTaken]

theorem client_check {r : ClientCreation} {answer : Answer Reply} (h : r.handler.check db = .error answer) :
    clientGood r answer ∧ (clientDone answer → ∃ client ∈ db.clients.rows, client.slug = some r.body.slug) := by
  have hcheck : goOn (r.body.check db) = .error answer := h
  unfold ClientCreate.check at hcheck
  split at hcheck
  · rename_i hplan
    cases hcheck
    refine ⟨.inr ⟨hplan, rfl⟩, fun hd => ?_⟩
    obtain ⟨reply, e⟩ | e := hd
    · cases e
    · injection e with hcode
      omega
  · split at hcheck
    · rename_i htaken
      cases hcheck
      exact ⟨.inl (.inr rfl), fun _ => slugTaken_iff.mp htaken⟩
    · cases hcheck

theorem client_creates (r : ClientCreation) :
    Creates r.handler (fun db => db.clients.rows) (fun client => client.slug = some r.body.slug) (clientGood r) clientDone
      (clientLate r) where
  check _ _ h := client_check h
  commit := client_commit r
  not_good h := by obtain (⟨reply, h⟩ | h) | ⟨-, h⟩ := h <;> cases h
  not_done h := by obtain ⟨reply, h⟩ | h := h <;> cases h
  unique _ _ hx _ hy h h' := Indexed.eq_of_index hx hy h h'

/-! ## Users -/

variable {bcrypt : Bcrypt}

/-- The email address or the id is taken, or the values do not fit. -/
def userRefused (r : UserCreation) (db : Tables) : Prop :=
  (∃ user ∈ db.users.rows, user.email = r.body.email) ∨ (∃ user ∈ db.users.rows, user.id = r.eff.uuid4) ∨
    r.eff.fits = false

/-- The row is refused, or the refresh does not see it, or the audit row is refused. -/
def userLate (r : UserCreation) (db : Tables) : Prop :=
  userRefused r db ∨ r.refreshes = false ∨ r.inserts = false

/-- Success, or a 409 for the email address. -/
def userDone (answer : Answer Reply) : Prop :=
  (∃ reply, answer = .ok reply) ∨ answer = .httpException 409 "Email already exists"

/-- The documented answers: besides, a 400 for a role that there is not, and a 404 for the
tenant. -/
def userGood (r : UserCreation) (answer : Answer Reply) : Prop :=
  userDone answer ∨
    (userRole r.body.role = none ∧
      answer = .httpException 400 "role must be one of ['agent', 'super_admin', 'tenant_admin']") ∨
    r.body.tenantId ≠ none ∧ answer = .httpException 404 "Tenant not found"

theorem user_commit (r : UserCreation) (db : Tables) (role : UserRole) :
    (userLate r db ∧ ((r.handler bcrypt).commit db role).2 = .raised ∧
      db.users.rows <+: ((r.handler bcrypt).commit db role).1.users.rows) ∨
    ¬userLate r db ∧ userGood r ((r.handler bcrypt).commit db role).2 ∧ ∃ user, user.email = r.body.email ∧
      ((r.handler bcrypt).commit db role).1.users.rows = db.users.rows ++ [user] := by
  have hcommit : (r.handler bcrypt).commit db role =
      finish r.actor r.eff r.refreshes r.inserts db (insertUser bcrypt r.eff db r.body role) := rfl
  rw [hcommit]
  unfold insertUser
  dsimp only
  cases hinsert : db.users.insert (r.body.user bcrypt r.eff role) with
  | none => exact .inl ⟨.inl (.inr (.inl (insert_eq_none.mp hinsert))), rfl, List.prefix_rfl⟩
  | some users =>
    dsimp only
    have hfree : ¬∃ user ∈ db.users.rows, user.id = r.eff.uuid4 := by
      intro htaken
      rw [insert_eq_none.mpr htaken] at hinsert
      cases hinsert
    generalize hchange : userChange db users "user.create" none (some (r.body.user bcrypt r.eff role)) _ = change
    have husers : change.users = users := by rw [← hchange]; rfl
    have hclients : change.clients = db.clients.toTable := by rw [← hchange]; rfl
    have hbody : change.reply.body.isNone = false := by rw [← hchange]; rfl
    have hnone : commit r.eff db change = none ↔ userRefused r db := by
      rw [commit_users_eq_none hclients, husers, check_insert_eq_none (t := db.users) (v := r.body.email) rfl hinsert]
      unfold userRefused
      rw [or_iff_right hfree]
      simp only [Option.some.injEq]
    by_cases hrefused : userRefused r db
    · rw [finish_refused r.actor (hnone.mpr hrefused)]
      exact .inl ⟨.inl hrefused, rfl, List.prefix_rfl⟩
    · have hc : commit r.eff db change ≠ none := fun e => hrefused (hnone.mp e)
      have hrows : (finish r.actor r.eff r.refreshes r.inserts db (.ok change)).1.users.rows =
          db.users.rows ++ [r.body.user bcrypt r.eff role] := by
        rw [(finish_tables r.actor hc).2, husers]
        exact (Table.insert_eq_some hinsert).2
      rw [finish_answer r.actor hc hbody, hrows]
      by_cases hafter : r.refreshes = false ∨ r.inserts = false
      · rw [if_pos hafter]
        exact .inl ⟨.inr hafter, rfl, List.prefix_append _ _⟩
      · rw [if_neg hafter]
        exact .inr ⟨fun hlate => hlate.elim hrefused hafter, .inl (.inl ⟨_, rfl⟩), _, rfl, rfl⟩

theorem user_check {r : UserCreation} {answer : Answer Reply} (h : (r.handler bcrypt).check db = .error answer) :
    userGood r answer ∧ (userDone answer → ∃ user ∈ db.users.rows, user.email = r.body.email) := by
  have hcheck : goOn (r.body.check db) = .error answer := h
  have hother : ∀ {statusCode detail}, answer = .httpException statusCode detail → statusCode ≠ 409 → ¬userDone answer := by
    intro statusCode detail e hne hd
    rw [e] at hd
    obtain ⟨reply, e⟩ | e := hd
    · cases e
    · injection e with hcode
      omega
  unfold UserCreate.check at hcheck
  split at hcheck
  · rename_i hrole
    cases hcheck
    exact ⟨.inr (.inl ⟨hrole, rfl⟩), fun hd => absurd hd (hother rfl (by omega))⟩
  · split at hcheck
    · rename_i htaken
      cases hcheck
      exact ⟨.inl (.inr rfl), fun _ => by simpa using htaken⟩
    · split at hcheck
      · rename_i htenant
        cases hcheck
        refine ⟨.inr (.inr ⟨fun hn => ?_, rfl⟩), fun hd => absurd hd (hother rfl (by omega))⟩
        rw [hn] at htenant
        cases htenant
      · cases hcheck

theorem user_creates (bcrypt : Bcrypt) (r : UserCreation) :
    Creates (r.handler bcrypt) (fun db => db.users.rows) (fun user => user.email = r.body.email) (userGood r) userDone
      (userLate r) where
  check _ _ h := user_check h
  commit := user_commit r
  not_good h := by obtain (⟨reply, h⟩ | h) | ⟨-, h⟩ | ⟨-, h⟩ := h <;> cases h
  not_done h := by obtain ⟨reply, h⟩ | h := h <;> cases h
  unique _ _ hx _ hy h h' := Indexed.eq_of_index (v := r.body.email) hx hy (congrArg some h) (congrArg some h')

/-! ## Calls -/

/-- The call is there, or the values do not fit, or the refresh does not see the row. -/
def callLate (r : CallCreation) (calls : CallTable) : Prop :=
  (∃ call ∈ calls.rows, call.callId = r.body.callId) ∨ r.fits = false ∨ r.refreshes = false

/-- Success, or a 409 for the call. -/
def callGood (r : CallCreation) (answer : Answer Call) : Prop :=
  answer = .ok (newCall r.body) ∨ answer = .httpException 409 ("Call " ++ r.body.callId ++ " already exists")

theorem call_commit (r : CallCreation) (calls : CallTable) :
    (callLate r calls ∧ (r.handler.commit calls ()).2 = .raised ∧ calls.rows <+: (r.handler.commit calls ()).1.rows) ∨
    ¬callLate r calls ∧ callGood r (r.handler.commit calls ()).2 ∧ ∃ call, call.callId = r.body.callId ∧
      (r.handler.commit calls ()).1.rows = calls.rows ++ [call] := by
  unfold CallCreation.handler callLate
  dsimp only
  cases hfits : r.fits with
  | false => exact .inl ⟨.inr (.inl rfl), rfl, List.prefix_rfl⟩
  | true =>
    rw [if_pos rfl]
    cases h : calls.insert (newCall r.body) with
    | none => exact .inl ⟨.inl (insert_eq_none.mp h), rfl, List.prefix_rfl⟩
    | some calls' =>
      have hrows : calls'.rows = calls.rows ++ [newCall r.body] := (Table.insert_eq_some h).2
      dsimp only
      rw [hrows]
      cases hrefreshes : r.refreshes with
      | false => exact .inl ⟨.inr (.inr rfl), rfl, List.prefix_append _ _⟩
      | true =>
        refine .inr ⟨?_, .inl rfl, newCall r.body, rfl, rfl⟩
        rintro (htaken | h' | h')
        · have hnone : calls.insert (newCall r.body) = none := insert_eq_none.mpr htaken
          rw [hnone] at h
          cases h
        · cases h'
        · cases h'

theorem call_creates (r : CallCreation) :
    Creates r.handler Table.rows (fun call => call.callId = r.body.callId) (callGood r) (callGood r) (callLate r) where
  check calls answer h := by
    unfold CallCreation.handler at h
    dsimp only at h
    split at h
    · rename_i call hcall
      cases h
      exact ⟨.inr rfl, fun _ => ⟨call, Table.lookup_mem hcall, Table.lookup_key hcall⟩⟩
    · cases h
  commit calls _ := call_commit r calls
  not_good h := by obtain h | h := h <;> cases h
  not_done h := by obtain h | h := h <;> cases h
  unique _ _ hx _ hy h h' := Table.eq_of_key_eq hx hy (h.trans h'.symm)

/-! ## Both steps at once -/

/-- `create_call`, on one connection and with values that fit. -/
theorem call_atOnce {r : CallCreation} (hfits : r.fits = true) (hrefreshes : r.refreshes = true) (calls : CallTable) :
    r.handler.atOnce calls = createCall calls r.body := by
  cases h : calls.lookup r.body.callId with
  | none =>
    cases hi : calls.insert (newCall r.body) <;>
      simp [CallCreation.handler, TwoStep.atOnce, createCall, h, hi, hfits, hrefreshes]
  | some call => simp only [CallCreation.handler, TwoStep.atOnce, createCall, h]

/-- A request that gets to its handler. -/
theorem serve_eq_finish {request : Request} {inserts : Bool}
    (hactor : getCurrentUser request.eff.now request.authorization = .ok actor) (hrole : actor.role = some "super_admin") :
    serve bcrypt (fun _ => inserts) db request =
      finish actor request.eff true inserts db (handler bcrypt request.eff db actor request.write) := by
  unfold serve mutate
  rw [hactor]
  simp only [Answer.bind, requireSuperAdmin, hrole, if_true]
  cases handler bcrypt request.eff db actor request.write with
  | ok change => cases h : commit request.eff db change <;> simp [finish, h]
  | httpException statusCode detail => rfl
  | raised => rfl

theorem atOnce_eq_finish {P : Type} {request : TwoStep Tables P (Answer Reply)} {refreshes inserts : Bool}
    {x : Answer P} {next : P → Answer Change} (hcheck : request.check db = goOn x)
    (hcommit : ∀ p, request.commit db p = finish actor eff refreshes inserts db (next p)) :
    request.atOnce db = finish actor eff refreshes inserts db (x.bind next) := by
  unfold TwoStep.atOnce
  rw [hcheck]
  cases x with
  | ok p => exact hcommit p
  | httpException statusCode detail => rfl
  | raised => rfl

/-- `create_client` and `create_tenant`. -/
theorem client_atOnce (bcrypt : Bcrypt) (r : ClientCreation) {authorization : Option Token}
    (hactor : getCurrentUser r.eff.now authorization = .ok r.actor) (hrole : r.actor.role = some "super_admin") :
    r.handler.atOnce db =
      serve bcrypt (fun _ => r.inserts) db
        ⟨authorization, if r.tenant then .createTenant (.ok r.body) else .createClient (.ok r.body), r.eff⟩ := by
  rw [serve_eq_finish hactor hrole]
  cases h : r.tenant with
  | false =>
    have hcommit : ∀ plan, r.handler.commit db plan =
        finish r.actor r.eff true r.inserts db (insertClient "client.create" clientBody r.eff db r.body plan) := fun plan => by
      simp only [ClientCreation.handler, ClientCreation.insert, h, Bool.false_eq_true, if_false]
    exact atOnce_eq_finish rfl hcommit
  | true =>
    have hcommit : ∀ plan, r.handler.commit db plan =
        finish r.actor r.eff true r.inserts db (insertClient "tenant.create" tenantBody r.eff db r.body plan) := fun plan => by
      simp only [ClientCreation.handler, ClientCreation.insert, h, if_true]
    exact atOnce_eq_finish rfl hcommit

/-- `create_user`, on one connection. -/
theorem user_atOnce (bcrypt : Bcrypt) {r : UserCreation} (hrefreshes : r.refreshes = true) {authorization : Option Token}
    (hactor : getCurrentUser r.eff.now authorization = .ok r.actor) (hrole : r.actor.role = some "super_admin") :
    (r.handler bcrypt).atOnce db =
      serve bcrypt (fun _ => r.inserts) db ⟨authorization, .createUser (.ok r.body), r.eff⟩ := by
  rw [serve_eq_finish hactor hrole]
  refine atOnce_eq_finish rfl fun role => ?_
  rw [← hrefreshes]
  rfl

end CallingAgent.Proof.Concurrent
