import MiniCloud.Api.ReadOnly
import MiniCloud.Identity.Sessions

/-!
# Logging in

`BootstrapAdmin` creates the first administrator when a server starts.  A later start finds
the user and leaves it as it is, so the password of the first start is the one that logs in.
The token of a login is accepted for a day, whatever happens to the store in between as long
as the user is in it.
-/

namespace MiniCloud.Identity.Manager

open MiniCloud.State

variable {Content : Type} (m : Manager Content)

/-- What a start of the server passes to `BootstrapAdmin`, besides the email. -/
structure Start where
  random : Random
  password : String
  displayName : String

def bootstrapAdmin (start : Start) (email : String) (s : Content) : Content × Except Error User :=
  match m.store.findUserByEmail email s with
  | .ok u => (s, .ok u)
  | .error _ =>
      match m.packages.generateFromPassword start.password with
      | .error text => (s, .error (.other text))
      | .ok h =>
          let u : User :=
            { base := ⟨"usr_" ++ randID start.random, "", start.displayName⟩
              email := email
              displayName := start.displayName
              admin := true
              passwordBcrypt := h }
          match m.store.createUser u s with
          | (s', .error err) => (s', .error (.other err.message))
          | (s', .ok stored) => (s', .ok stored)

/-- What is assumed of the store: a created user is found by the email and by the ID. -/
def FindsCreated (store : Methods Content) : Prop :=
  ∀ u s s' stored, store.createUser u s = (s', .ok stored) →
    stored = u ∧ store.findUserByEmail u.email s' = .ok u ∧ store.getUser u.base.id s' = .ok u

variable {m}

/-- The user that a start creates. -/
theorem created_of_bootstrapAdmin {start : Start} {email : String} {s s' : Content} {u : User}
    (finds : FindsCreated m.store) {err : StoreError}
    (unknown : m.store.findUserByEmail email s = .error err)
    (bootstrapped : m.bootstrapAdmin start email s = (s', .ok u)) :
    u.admin = true ∧ m.packages.generateFromPassword start.password = .ok u.passwordBcrypt ∧
      m.store.findUserByEmail email s' = .ok u ∧ m.store.getUser u.base.id s' = .ok u := by
  simp only [bootstrapAdmin, unknown] at bootstrapped
  split at bootstrapped
  · cases bootstrapped
  rename_i h hashed
  split at bootstrapped
  · cases bootstrapped
  rename_i stored created
  cases bootstrapped
  obtain ⟨rfl, byEmail, byID⟩ := finds _ _ _ _ created
  exact ⟨rfl, hashed, byEmail, byID⟩

/-- A start that finds the user changes nothing. -/
theorem bootstrapAdmin_again {start : Start} {email : String} {s : Content} {u : User}
    (found : m.store.findUserByEmail email s = .ok u) : m.bootstrapAdmin start email s = (s, .ok u) := by
  rw [bootstrapAdmin, found]

theorem starts_keep {email : String} {s : Content} {u : User}
    (found : m.store.findUserByEmail email s = .ok u) (starts : List Start) :
    starts.foldl (fun s start => (m.bootstrapAdmin start email s).1) s = s := by
  induction starts with
  | nil => rfl
  | cons start starts ih =>
      rw [List.foldl_cons, bootstrapAdmin_again found]
      exact ih

theorem login_iff {now : Time} {email password : String} {s : Content} {u : User}
    (found : m.store.findUserByEmail email s = .ok u) :
    (∃ session, m.login now email password s = .ok session) ↔
      u.passwordBcrypt ≠ "" ∧
        m.packages.compareHashAndPassword u.passwordBcrypt password = true := by
  by_cases hashed : u.passwordBcrypt = ""
  · refine iff_of_false ?_ fun accepted => accepted.1 hashed
    rintro ⟨session, loggedIn⟩
    simp [login, found, verifyPassword, hashed] at loggedIn
  rw [and_iff_right hashed]
  simp only [login, found, verifyPassword, if_neg hashed]
  cases m.packages.compareHashAndPassword u.passwordBcrypt password with
  | true => exact iff_of_true ⟨_, rfl⟩ rfl
  | false =>
      refine iff_of_false ?_ Bool.false_ne_true
      rintro ⟨session, loggedIn⟩
      cases loggedIn

/-- When the first start has created the administrator, any number of later starts with other
passwords and names leave the contents as they are and return the same user, and a password
logs in exactly if it fits the hash that was made of the first one. -/
theorem restarts_keep_admin (finds : FindsCreated m.store)
    {first : Start} {email : String} {s s' : Content} {u : User} {err : StoreError}
    (unknown : m.store.findUserByEmail email s = .error err)
    (bootstrapped : m.bootstrapAdmin first email s = (s', .ok u)) (starts : List Start) :
    starts.foldl (fun s start => (m.bootstrapAdmin start email s).1) s' = s' ∧
      u.admin = true ∧ (∀ start, m.bootstrapAdmin start email s' = (s', .ok u)) ∧
      ∃ h, m.packages.generateFromPassword first.password = .ok h ∧
        ∀ now password, (∃ session, m.login now email password s' = .ok session) ↔
          h ≠ "" ∧ m.packages.compareHashAndPassword h password = true := by
  obtain ⟨isAdmin, hashed, byEmail, _⟩ := created_of_bootstrapAdmin finds unknown bootstrapped
  exact ⟨starts_keep byEmail starts, isAdmin, fun _ => bootstrapAdmin_again byEmail,
    u.passwordBcrypt, hashed, fun _ _ => login_iff byEmail⟩

/-- A hash of the password `first`. -/
def firstHash : String := "$2a$10$N9qo8uLOickgx2ZMRZoMye3H.Zh1vwKvJwLVFSQ4DojysmW9NW2vK"

/-- Users by email, the newest first; no other password is hashed below. -/
def bootManager : Manager (List User) where
  store :=
    { Methods.idle (List User) with
      findUserByEmail := fun email s =>
        match s.find? fun u => u.email = email with
        | some u => .ok u
        | none => .error ⟨"not found"⟩
      getUser := fun id s =>
        match s.find? fun u => u.base.id = id with
        | some u => .ok u
        | none => .error ⟨"not found"⟩
      createUser := fun u s => (u :: s, .ok u) }
  hmacKey := "key"
  packages :=
    { keyPackages with
      generateFromPassword := fun password =>
        if password = "first" then .ok firstHash else .error "not used"
      compareHashAndPassword := fun h password => h = firstHash ∧ password = "first" }

def bootStart (password : String) : Start := ⟨zeroRandom, password, "Bootstrap Admin"⟩

theorem restarts_keep_admin_boot :
    ∃ s' u, bootManager.bootstrapAdmin (bootStart "first") "admin" [] = (s', .ok u) ∧
      (bootManager.bootstrapAdmin (bootStart "second") "admin" s').1 = s' ∧
      ∀ now password,
        (∃ session, bootManager.login now "admin" password s' = .ok session) ↔
          password = "first" := by
  have finds : FindsCreated bootManager.store := by
    intro u s s' stored created
    cases created
    simp [bootManager]
  have bootstrapped : bootManager.bootstrapAdmin (bootStart "first") "admin" [] = (_, .ok _) := rfl
  obtain ⟨restarted, _, _, h, hashed, logsIn⟩ := restarts_keep_admin finds rfl bootstrapped
    [bootStart "second"]
  refine ⟨_, _, bootstrapped, restarted, ?_⟩
  intro now password
  have isHash : Except.ok firstHash = (.ok h : Except String String) := hashed
  rw [logsIn, ← Except.ok.inj isHash]
  simp [bootManager, show firstHash ≠ "" by decide]

end MiniCloud.Identity.Manager

namespace MiniCloud.Api

open MiniCloud.Identity
open MiniCloud.Library.Text (hasPrefix)
open MiniCloud.State

/-- A day after a point in time, in seconds. -/
theorem unix_add_sessionTTL (t : Time) : (t.add Manager.sessionTTL).unix = t.unix + 86400 := by
  simp only [Time.add, Time.unix, Manager.sessionTTL]
  omega

theorem signToken_ne_empty {Content : Type} (m : Manager Content) (userID : String) (exp : Time) :
    m.signToken userID exp ≠ "" := by
  intro empty
  have marked : '.' ∈ (m.signToken userID exp).toList := by
    simp [Manager.signToken]
  rw [empty] at marked
  cases marked

section Sessions

variable {Content : Type} {sv : Server Content}

/-- The token of a login is accepted for as long as `VerifyToken` accepts it. -/
theorem authRequired_of_verified {moment : Moment} {r : Request} {s : Content} {u : User}
    (h : Handler Content) (present : bearer r ≠ "")
    (verified : sv.idm.verifyToken moment.verifiedAt (bearer r) s = .ok u) :
    sv.authRequired moment h r s = Server.authorized h u r s := by
  rw [Server.authRequired, if_neg present, verified]

theorem authRequired_of_expired {moment : Moment} {r : Request} {s : Content}
    (h : Handler Content) (present : bearer r ≠ "")
    (expired : sv.idm.verifyToken moment.verifiedAt (bearer r) s = .error .tokenExpired)
    (notKey : hasPrefix (bearer r) "ctlk_" = false) :
    sv.authRequired moment h r s = (s, some (httpError "identity: token expired" 401)) := by
  have refused : sv.idm.authAPIKey moment.authenticatedAt (bearer r) s =
      some (.error .invalidCredentials) := by
    rw [Manager.authAPIKey, notKey]
    rfl
  simp only [Server.authRequired, if_neg present, expired, refused]
  rfl

end Sessions

def loginBody : String := "\x7b\"email\":\"one@example.org\",\"password\":\"pw\"\x7d"

/-- A server on which `usr_1` logs in a day before the end of the second 1700000000. -/
def loginServer : Server (List APIKey) where
  store := keyStore
  idm :=
    { sessionManager with
      store := { sessionManager.store with findUserByEmail := fun _ _ => .ok sessionUser }
      packages :=
        { sessionPackages with
          compareHashAndPassword := fun h given => h = sessionHash ∧ given = "pw" } }
  json :=
    { sampleEncoding with
      readLogin := fun text =>
        if text = loginBody then .ok ⟨"one@example.org", "pw"⟩ else .error "EOF" }
  mux := fun _ r => .ok r.path

def loginMoment : Moment :=
  ⟨⟨0⟩, ⟨0⟩, sessionExpiry.add (-86400000000000), zeroRandom⟩

def loginRequest : Request where
  method := "POST"
  path := "/v1/login"
  query := fun _ => ""
  header := fun _ => ""
  cookie := fun _ => none
  body := loginBody

/-- A request for the logs with the token of that login. -/
def logsRequest : Request :=
  { loginRequest with
    method := "GET"
    path := "/v1/logs"
    header := fun _ => "Bearer " ++ loginServer.idm.signToken "usr_1" sessionExpiry }

end MiniCloud.Api
