import CallingAgent.Framework.Run
import CallingAgent.Proof.Admin.AuditFailure
import CallingAgent.Spec.CurrentPassword

/-!
# Which passwords log in

The hash of a row is that of the password most recently set (`Stored`), whatever requests
come between. So a login is accepted exactly if `bcrypt` sees no difference between the two
passwords, and only a password of fewer than 72 bytes is told from all others
(`login_accepts_seen`).
-/

namespace CallingAgent.Proof.Admin.Password

open CallingAgent.Framework CallingAgent.Impl CallingAgent.Impl.Auth CallingAgent.Impl.Reads CallingAgent.Impl.Admin
open CallingAgent.Impl.AdminWrites CallingAgent.Spec CallingAgent.Spec.CurrentPassword

variable {bcrypt : Bcrypt} {inserts : Mutation → Bool} {db : Tables} {eff : Effects} {write : Write} {change : Change}

/-! ## What is seen of a password -/

theorem encoded_inj {p q : String} : encoded p = encoded q ↔ p = q := by
  constructor
  · intro h
    apply String.toByteArray_inj.mp
    apply ByteArray.ext
    exact Array.toList_inj.mp h
  · intro h
    rw [h]

theorem encoded_append (p q : String) : encoded (p ++ q) = encoded p ++ encoded q := by
  simp [encoded]

/-- A password is told from all others exactly if it is short enough. -/
theorem seen_inj_iff {p : String} : (∀ q, seen q = seen p ↔ q = p) ↔ (encoded p).length < 72 := by
  constructor
  · intro h
    by_contra hlong
    have hsame : seen (p ++ "x") = seen p := by
      unfold seen
      rw [encoded_append, List.take_append_of_le_length (by omega)]
    have heq : encoded (p ++ "x") = encoded p := by rw [(h (p ++ "x")).mp hsame]
    have hlen : (encoded (p ++ "x")).length = (encoded p).length + 1 := by
      rw [encoded_append, List.length_append]
      rfl
    rw [heq] at hlen
    omega
  · intro hshort q
    constructor
    · intro h
      have hp : seen p = encoded p := List.take_of_length_le (by omega)
      have hlen : (seen q).length < 72 := by rw [h, hp]; exact hshort
      have hq : seen q = encoded q := by
        unfold seen at hlen ⊢
        rw [List.length_take] at hlen
        exact List.take_of_length_le (by omega)
      rw [hp, hq] at h
      exact encoded_inj.mp h
    · intro h
      rw [h]

/-! ## The hash of a row -/

/-- The row of a user has the hash of this password. -/
def HasHash (bcrypt : Bcrypt) (users : Users) (userId password : String) : Prop :=
  ∃ user salt, users.lookup userId = some user ∧ user.passwordHash = some (bcrypt.hashpw salt password)

/-- The hashes of the table are those of the passwords most recently set. -/
def Stored (bcrypt : Bcrypt) (w : World) : Prop :=
  ∀ userId password, w.current userId = some password → HasHash bcrypt w.tables.users.toTable userId password

/-- A change of one row, as it is found. -/
theorem lookup_setUser {users : Users} {userId : String} {f : AdminUser → AdminUser} {keeps : ∀ r, (f r).id = r.id}
    (k : String) :
    (users.update (setUser userId f keeps)).lookup k =
      if k = userId then (users.lookup k).map f else users.lookup k :=
  Table.lookup_update_key setUser_guard k

/-- A change that leaves the hash alone. -/
theorem hasHash_setUser {users : Users} {userId k password : String} {f : AdminUser → AdminUser}
    {keeps : ∀ r, (f r).id = r.id} (hf : k = userId → ∀ r, (f r).passwordHash = r.passwordHash)
    (h : HasHash bcrypt users k password) : HasHash bcrypt (users.update (setUser userId f keeps)) k password := by
  obtain ⟨user, salt, hl, hhash⟩ := h
  rw [HasHash, lookup_setUser]
  by_cases hk : k = userId
  · rw [if_pos hk, hl]
    exact ⟨f user, salt, rfl, (hf hk user).trans hhash⟩
  · rw [if_neg hk, hl]
    exact ⟨user, salt, rfl, hhash⟩

/-- The password most recently set, after a request that is committed. -/
def currentAfter (current : String → Option String) (request : Request) : String → Option String :=
  match sets request with
  | some (userId, password) => Function.update current userId (some password)
  | none => current

theorem stored_handled {request : Request} {current : String → Option String}
    (h : Handled bcrypt request.eff db request.write change)
    (hw : ∀ k password, current k = some password → HasHash bcrypt db.users.toTable k password) :
    ∀ k password, currentAfter current request k = some password → HasHash bcrypt change.users k password := by
  obtain ⟨authorization, write, eff⟩ := request
  intro k password hk
  cases h with
  | insertClient response hw' hcheck hinsert => rcases hw' with rfl | rfl <;> exact hw k password hk
  | replaceClient response notFound hw' hcheck => rcases hw' with rfl | rfl <;> exact hw k password hk
  | removeClient hw' hclient => rcases hw' with rfl | rfl <;> exact hw k password hk
  | @insertUser body role users hcheck hinsert =>
    have hlookup := Table.lookup_insert hinsert k
    have hfree : db.users.lookup eff.uuid4 = none := (Table.insert_eq_some hinsert).1
    -- A row that has been there keeps its key.
    have hold : current k = some password → HasHash bcrypt users k password := by
      intro hc
      obtain ⟨user, salt, hl, hhash⟩ := hw k password hc
      have hne : eff.uuid4 ≠ k := by
        intro e
        rw [e, hl] at hfree
        cases hfree
      exact ⟨user, salt, by rw [hlookup, if_neg (show (body.user bcrypt eff role).id ≠ k from hne)]; exact hl, hhash⟩
    cases hp : body.password with
    | none =>
      simp only [currentAfter, sets, hp, Option.map_none] at hk
      exact hold hk
    | some new =>
      simp only [currentAfter, sets, hp, Option.map_some] at hk
      by_cases hkey : k = eff.uuid4
      · subst hkey
        rw [Function.update_self] at hk
        obtain rfl := Option.some.inj hk
        refine ⟨body.user bcrypt eff role, eff.salt, hlookup.trans (if_pos rfl), ?_⟩
        simp [UserCreate.user, hp]
      · rw [Function.update_of_ne hkey] at hk
        exact hold hk
  | @replaceUser userId body user huser =>
    show HasHash bcrypt (db.users.update _) k password
    cases hp : body.password with
    | none =>
      simp only [currentAfter, sets, hp, Option.map_none] at hk
      exact hasHash_setUser (fun _ r => by simp [UserUpdate.apply, hp]) (hw k password hk)
    | some new =>
      simp only [currentAfter, sets, hp, Option.map_some] at hk
      by_cases hkey : k = userId
      · subst hkey
        rw [Function.update_self] at hk
        obtain rfl := Option.some.inj hk
        refine ⟨body.apply bcrypt eff.salt user, eff.salt, (lookup_setUser k).trans ?_, by simp [UserUpdate.apply, hp]⟩
        rw [if_pos rfl, huser]
        rfl
      · rw [Function.update_of_ne hkey] at hk
        exact hasHash_setUser (fun e => absurd e hkey) (hw k password hk)
  | suspendUser huser => exact hasHash_setUser (fun _ r => rfl) (hw k password hk)

theorem stored_step (inserts : Mutation → Bool) {w : World} (h : Stored bcrypt w) (request : Request) :
    Stored bcrypt (CurrentPassword.step bcrypt inserts w request) := by
  intro k password hk
  unfold CurrentPassword.step AdminWrites.step serve at hk ⊢
  cases hm : mutate bcrypt w.tables request with
  | httpException statusCode detail =>
    simp only [hm] at hk ⊢
    exact h k password hk
  | raised =>
    simp only [hm] at hk ⊢
    exact h k password hk
  | ok m =>
    obtain ⟨-, -, hchange, hcommit⟩ := mutate_eq_ok.mp hm
    obtain ⟨-, -, husers, -⟩ := commit_eq_some.mp hcommit
    have hafter : currentAfter w.current request k = some password := by
      simp only [hm] at hk
      unfold currentAfter
      cases hs : sets request with
      | none => simpa only [hs] using hk
      | some set => simpa only [hs] using hk
    have hhash := stored_handled (handled hchange) h k password hafter
    rw [← husers] at hhash
    unfold writeAuditLog
    dsimp only
    split
    · exact hhash
    · exact hhash

/-! ## Logins -/

/-- The login of an active user is a comparison with the hash. -/
theorem accepted_iff {cfg : Config} {now : Time} {user : AdminUser} {hash q : String} (hu : user ∈ db.users.rows)
    (hactive : user.status = some .active) (hhash : user.passwordHash = some hash) (hne : hash ≠ "") :
    Accepted cfg bcrypt db now user q ↔ bcrypt.checkpw q hash = true := by
  have hfound : userOf db.users.toTable ⟨user.email, q⟩ = some user :=
    Indexed.find?_index (v := user.email) hu rfl fun x => by simp
  unfold Accepted login
  rw [hfound]
  simp only [hactive, hhash, hne, ne_eq, not_true_eq_false, if_false]
  cases hcheck : bcrypt.checkpw q hash with
  | false => simp
  | true => simp

/-- After any requests, the login of an active user whose password has been set is accepted
with the passwords that look the same to `bcrypt` as the one most recently set; with no
other than that one, exactly if it has fewer than 72 bytes. -/
theorem login_accepts_seen (cfg : Config) (bcrypt : Bcrypt) (hbcrypt : HashesPrefix bcrypt) (inserts : Mutation → Bool)
    (db : Tables) (requests : List Request) (now : Time) (user : AdminUser) (password : String)
    (hu : user ∈ (run (CurrentPassword.step bcrypt inserts) (.init db) requests).tables.users.rows)
    (hactive : user.status = some .active)
    (hset : (run (CurrentPassword.step bcrypt inserts) (.init db) requests).current user.id = some password) :
    (∀ q, Accepted cfg bcrypt (run (CurrentPassword.step bcrypt inserts) (.init db) requests).tables now user q ↔
      seen q = seen password) ∧
    ((∀ q, Accepted cfg bcrypt (run (CurrentPassword.step bcrypt inserts) (.init db) requests).tables now user q ↔
      q = password) ↔ (encoded password).length < 72) := by
  have hinit : Stored bcrypt (.init db) := fun _ _ h => by cases h
  have hstored := run_inv (I := Stored bcrypt) hinit (fun w request h => stored_step inserts h request) requests
  obtain ⟨found, salt, hlookup, hhash⟩ := hstored user.id password hset
  obtain rfl : found = user := Option.some.inj (hlookup.symm.trans (Table.lookup_of_mem hu))
  have haccepted : ∀ q,
      Accepted cfg bcrypt (run (CurrentPassword.step bcrypt inserts) (.init db) requests).tables now found q ↔
        seen q = seen password := fun q =>
    (accepted_iff hu hactive hhash (hbcrypt.hashpw_ne_empty salt password)).trans (hbcrypt.checkpw_hashpw salt password q)
  refine ⟨haccepted, ?_⟩
  simp only [haccepted]
  exact seen_inj_iff

/-! ## A password of 72 bytes -/

/-- A text that shows the first 72 bytes. -/
def prefixText (password : String) : String :=
  String.ofList ('$' :: (seen password).map fun byte => Char.ofNat byte.toNat)

/-- `bcrypt` with the text as its hash. -/
def prefixHash : Bcrypt where
  hashpw _ password := prefixText password
  checkpw q hash := prefixText q == hash

theorem byte_inj : Function.Injective fun byte : UInt8 => Char.ofNat byte.toNat := by
  intro a b h
  have hvalid : ∀ byte : UInt8, (Char.ofNat byte.toNat).toNat = byte.toNat := by
    intro byte
    have hlt : byte.toNat < 256 := byte.toNat_lt
    have hchar : byte.toNat.isValidChar := .inl (by omega)
    rw [Char.ofNat, dif_pos hchar]
    rfl
  apply UInt8.toNat_inj.mp
  rw [← hvalid a, ← hvalid b]
  exact congrArg Char.toNat h

theorem prefixHash_hashesPrefix : HashesPrefix prefixHash where
  checkpw_hashpw _ password q := by
    simp only [prefixHash, prefixText, beq_iff_eq, String.ofList_inj, List.cons.injEq, true_and]
    exact List.map_inj_right fun _ _ h => byte_inj h
  hashpw_ne_empty _ password := by
    simp [prefixHash, prefixText]

/-- `POST /admin/users` with a password. -/
def creationWith (password : String) (h : 8 ≤ password.length ∧ password.length ≤ 72) : Request :=
  requestOf
    (.createUser
      (.ok
        { email := "a@hotel.example"
          fullName := "A"
          password := some password
          password_length := fun p hp => by rw [← Option.some.inj hp]; exact h }))

/-- The row it adds. -/
def userWith (password : String) : AdminUser where
  id := "u1"
  email := "a@hotel.example"
  fullName := "A"
  passwordHash := some (prefixText password)
  role := some .agent
  tenantId := none
  status := some .active
  createdAt := some 0

theorem run_creationWith (password : String) (h : 8 ≤ password.length ∧ password.length ≤ 72) :
    (run (CurrentPassword.step prefixHash fun _ => true) (.init noTables) [creationWith password h]).tables.users.rows =
        [userWith password] ∧
      (run (CurrentPassword.step prefixHash fun _ => true) (.init noTables) [creationWith password h]).current "u1" =
        some password :=
  ⟨rfl, rfl⟩

/-- `n` characters of one byte each. -/
def repeated (n : Nat) : String := String.ofList (List.replicate n 'a')

theorem length_repeated (n : Nat) : (repeated n).length = n := by
  rw [repeated, String.length_ofList, List.length_replicate]

theorem length_encoded_repeated (n : Nat) : (encoded (repeated n)).length = n := by
  induction n with
  | zero => rfl
  | succ n ih =>
    have happend : repeated (n + 1) = repeated n ++ "a" := by
      rw [repeated, List.replicate_succ', String.ofList_append]
      rfl
    rw [happend, encoded_append, List.length_append, ih]
    rfl

theorem repeated_valid : 8 ≤ (repeated 72).length ∧ (repeated 72).length ≤ 72 := by
  rw [length_repeated]
  omega

/-- The password with one more character is accepted, too. -/
theorem longer_password_accepted :
    ¬∀ (cfg : Config) (bcrypt : Bcrypt), HashesPrefix bcrypt → ∀ (inserts : Mutation → Bool) (db : Tables)
      (requests : List Request) (now : Time) (user : AdminUser) (password : String),
        user ∈ (run (CurrentPassword.step bcrypt inserts) (.init db) requests).tables.users.rows →
        user.status = some .active →
        (run (CurrentPassword.step bcrypt inserts) (.init db) requests).current user.id = some password →
        ∀ q, Accepted cfg bcrypt (run (CurrentPassword.step bcrypt inserts) (.init db) requests).tables now user q ↔
          q = password := by
  intro h
  obtain ⟨hrows, hcurrent⟩ := run_creationWith (repeated 72) repeated_valid
  have hu : userWith (repeated 72) ∈
      (run (CurrentPassword.step prefixHash fun _ => true) (.init noTables)
        [creationWith (repeated 72) repeated_valid]).tables.users.rows := by
    rw [hrows]
    exact List.mem_singleton_self _
  have hexact : ∀ q, seen q = seen (repeated 72) ↔ q = (repeated 72) := by
    intro q
    rw [← h Auth.deployed prefixHash prefixHash_hashesPrefix _ noTables _ 0 _ (repeated 72) hu rfl hcurrent q,
      accepted_iff hu rfl rfl (prefixHash_hashesPrefix.hashpw_ne_empty "" (repeated 72))]
    exact (prefixHash_hashesPrefix.checkpw_hashpw "" (repeated 72) q).symm
  have hshort := seen_inj_iff.mp hexact
  rw [length_encoded_repeated] at hshort
  omega

/-- The user whose password has eight bytes logs in with it, and with no other. -/
theorem login_accepts_eight :
    Accepted Auth.deployed prefixHash
        (run (CurrentPassword.step prefixHash fun _ => true) (.init noTables) [creationWith "8letters" (by decide)]).tables 0
        (userWith "8letters") "8letters" ∧
      ∀ q ≠ "8letters", ¬ Accepted Auth.deployed prefixHash
        (run (CurrentPassword.step prefixHash fun _ => true) (.init noTables) [creationWith "8letters" (by decide)]).tables 0
        (userWith "8letters") q := by
  have hrun := run_creationWith "8letters" (by decide)
  have hu : userWith "8letters" ∈ (run (CurrentPassword.step prefixHash fun _ => true) (.init noTables)
      [creationWith "8letters" (by decide)]).tables.users.rows := hrun.1 ▸ List.mem_singleton_self _
  have haccepted := (login_accepts_seen Auth.deployed prefixHash prefixHash_hashesPrefix (fun _ => true) noTables _ 0
    (userWith "8letters") "8letters" hu rfl hrun.2).2.mpr (by decide)
  exact ⟨(haccepted "8letters").mpr rfl, fun q hq h => hq ((haccepted q).mp h)⟩

end CallingAgent.Proof.Admin.Password
