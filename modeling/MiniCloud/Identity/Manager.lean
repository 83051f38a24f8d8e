import MiniCloud.Identity.Permissions
import MiniCloud.State.Methods

/-!
# Users, sessions and API keys

The identity manager.  A session token is `base64(json).base64(hmac)`; an API key is
found by the first eight bytes of its secret and compared by its hash.  The
cryptographic functions, the encodings and the random numbers are parameters.
-/

namespace MiniCloud.Identity

open MiniCloud.Library.Text
open MiniCloud.State

inductive Error where
  | invalidCredentials
  | unauthorized
  | tokenExpired
  | tokenMalformed
  /-- An error of another package. -/
  | other (text : String)
  deriving DecidableEq, Repr

def Error.message : Error → String
  | .invalidCredentials => "identity: invalid credentials"
  | .unauthorized => "identity: unauthorized"
  | .tokenExpired => "identity: token expired"
  | .tokenMalformed => "identity: token malformed"
  | .other text => text

/-- The content of a session token. -/
structure Token where
  userID : String
  expiresAt : Int64
  deriving DecidableEq, Repr

/-- The packages that the manager uses. -/
structure Packages where
  /-- The HMAC of a message under a key. -/
  hmac : String → String → String
  /-- The hash in hexadecimal digits. -/
  sha256 : String → String
  base64Encode : String → String
  base64Decode : String → Option String
  marshal : Token → String
  unmarshal : String → Option Token
  generateFromPassword : String → Except String String
  compareHashAndPassword : String → String → Bool

/-- What `randID` and `randSecret` read from the random source, 9 and 24 bytes in
hexadecimal digits. -/
structure Random where
  id : String
  secret : String
  idLength : id.toList.length = 18
  secretLength : secret.toList.length = 48

structure Manager (Content : Type) where
  store : Methods Content
  hmacKey : String
  packages : Packages

/-! ## Permissions -/

def rulesFor (u : User) : List String :=
  if u.admin then ["*:*"] else builtinRoles .viewer

/-- A missing user has no permission. -/
def authorize (u : Option User) (verb resource : String) : Except Error Unit :=
  match u with
  | none => .error .unauthorized
  | some u =>
      if hasPermission (rulesFor u) verb resource then .ok () else .error .unauthorized

/-- Users who are no administrators may get and list. -/
theorem authorize_viewer {u : User} {verb resource : String} (notAdmin : u.admin = false)
    (allowed : authorize (some u) verb resource = .ok ()) : verb = "get" ∨ verb = "list" := by
  have rules : rulesFor u = builtinRoles .viewer := by rw [rulesFor, notAdmin]; rfl
  rw [← hasPermission_viewer verb resource, ← rules]
  cases granted : hasPermission (rulesFor u) verb resource with
  | true => rfl
  | false =>
      simp only [authorize, granted] at allowed
      cases allowed

namespace Manager

variable {Content : Type} (m : Manager Content)

/-! ## Users -/

def randID (random : Random) : String := random.id

def createUser (random : Random) (email password displayName : String) (admin : Bool)
    (s : Content) : Content × Except Error User :=
  if email = "" ∨ password = "" then (s, .error (.other "identity: email and password required"))
  else
    match m.packages.generateFromPassword password with
    | .error text => (s, .error (.other text))
    | .ok h =>
        let u : User :=
          { base := ⟨"usr_" ++ randID random, "", displayName⟩
            email := email
            displayName := displayName
            admin := admin
            passwordBcrypt := h }
        match m.store.createUser u s with
        | (s', .error err) => (s', .error (.other err.message))
        | (s', .ok stored) => (s', .ok stored)

def verifyPassword (u : User) (password : String) : Except Error Unit :=
  if u.passwordBcrypt = "" then .error .invalidCredentials
  else if m.packages.compareHashAndPassword u.passwordBcrypt password then .ok ()
  else .error .invalidCredentials

/-! ## Session tokens -/

def signToken (userID : String) (exp : Time) : String :=
  let enc := m.packages.base64Encode (m.packages.marshal ⟨userID, Int64.ofInt exp.unix⟩)
  enc ++ "." ++ m.packages.base64Encode (m.packages.hmac m.hmacKey enc)

/-- The content of a token whose signature is right. -/
def openToken (tok : String) : Option Token :=
  match cut tok '.' with
  | none => none
  | some (enc, sig) =>
      match m.packages.base64Decode sig with
      | none => none
      | some gotSig =>
          if m.packages.hmac m.hmacKey enc = gotSig then
            (m.packages.base64Decode enc).bind m.packages.unmarshal
          else none

def verifyToken (now : Time) (tok : String) (s : Content) : Except Error User :=
  match m.openToken tok with
  | none => .error .tokenMalformed
  | some t =>
      if t.expiresAt.toInt < now.unix then .error .tokenExpired
      else
        match m.store.getUser t.userID s with
        | .error _ => .error .unauthorized
        | .ok u => .ok u

/-- A day, in nanoseconds. -/
def sessionTTL : Int := 24 * 60 * 60 * 1000000000

def login (now : Time) (email password : String) (s : Content) :
    Except Error (String × Time × User) :=
  match m.store.findUserByEmail email s with
  | .error _ => .error .invalidCredentials
  | .ok u =>
      match m.verifyPassword u password with
      | .error _ => .error .invalidCredentials
      | .ok _ =>
          let exp := now.add sessionTTL
          .ok (m.signToken u.base.id exp, exp, u)

/-! ## API keys -/

def randSecret (random : Random) : String := "ctlk_" ++ random.secret

def issueAPIKey (now : Time) (random : Random) (projectID name : String) (ttl : Int)
    (s : Content) : Content × Except Error (APIKey × String) :=
  let secret := randSecret random
  let ak : APIKey :=
    { base := ⟨"key_" ++ randID random, projectID, name⟩
      hash := m.packages.sha256 secret
      keyPrefix := take secret 8
      expiresAt := now.add ttl }
  match m.store.createAPIKey ak s with
  | (s', .error err) => (s', .error (.other err.message))
  | (s', .ok stored) => (s', .ok (stored, secret))

/-- The loop of `AuthAPIKey` over the stored keys; `none` is the panic of `secret[:8]` on
a short secret. -/
def findAPIKey (now : Time) (secret : String) : List APIKey → Option (Except Error APIKey)
  | [] => some (.error .invalidCredentials)
  | k :: rest =>
      match sliceTo secret 8 with
      | none => none
      | some head =>
          if k.keyPrefix ≠ head then findAPIKey now secret rest
          else if k.hash = m.packages.sha256 secret then
            if !k.expiresAt.isZero && now.after k.expiresAt then some (.error .tokenExpired)
            else some (.ok k)
          else findAPIKey now secret rest

def authAPIKey (now : Time) (secret : String) (s : Content) : Option (Except Error APIKey) :=
  if !hasPrefix secret "ctlk_" then some (.error .invalidCredentials)
  else m.findAPIKey now secret (m.store.listAPIKeys s).1

end Manager

end MiniCloud.Identity
