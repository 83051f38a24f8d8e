import MiniCloud.Api.ReadOnly
import MiniCloud.Identity.Keys

/-!
# The lifetime of an API key

A key without a lifetime is meant to have no expiry.  `IssueAPIKey` adds the lifetime to
the clock whatever it is, so that the expiry of such a key is the moment at which it was
issued, while `AuthAPIKey` takes only the zero time for no expiry.  The API issues all
its keys without a lifetime.
-/

namespace MiniCloud.Identity

open MiniCloud.Library.Text
open MiniCloud.State

/-- What is promised at a moment for a key that was issued at `t0`: it is accepted through
its lifetime, and later rejected as expired. -/
def Promised (t0 : Time) (ttl : Int) (t : Time) (answer : Option (Except Error APIKey)) : Prop :=
  (ttl = 0 ∨ t.ns ≤ t0.ns + ttl → ∃ k, answer = some (.ok k)) ∧
    (0 < ttl → t0.ns + ttl < t.ns → answer = some (.error .tokenExpired))

/-- The expiry agrees with the lifetime at a moment. -/
def Agrees (t0 : Time) (ttl : Int) (t expiry : Time) : Prop :=
  (ttl = 0 ∨ t.ns ≤ t0.ns + ttl → expiry.ns = 0 ∨ t.ns ≤ expiry.ns) ∧
    (0 < ttl → t0.ns + ttl < t.ns → expiry.ns ≠ 0 ∧ expiry.ns < t.ns)

variable {Content : Type} {m : Manager Content} {random : Random} {t0 t : Time} {ttl : Int}

namespace Manager

/-- The record has the hash, the prefix and the expiry with which a key is issued. -/
def IsIssued (m : Manager Content) (random : Random) (t0 : Time) (ttl : Int) (k : APIKey) : Prop :=
  k.hash = m.packages.sha256 (randSecret random) ∧ k.keyPrefix = take (randSecret random) 8 ∧
    k.expiresAt = t0.add ttl

end Manager

theorem randSecret_begins (random : Random) : hasPrefix (Manager.randSecret random) "ctlk_" = true :=
  hasPrefix_iff.mpr ⟨random.secret, rfl⟩

theorem randSecret_long (random : Random) : 8 ≤ (Manager.randSecret random).toList.length := by
  have length : (Manager.randSecret random).toList.length = 5 + random.secret.toList.length := by
    rw [Manager.randSecret, String.toList_append, List.length_append]
    rfl
  rw [length, random.secretLength]
  decide

theorem unexpired_iff {k : APIKey} :
    Unexpired t k ↔ k.expiresAt.ns = 0 ∨ t.ns ≤ k.expiresAt.ns := by
  rw [Unexpired, Time.isZero, Time.after, decide_eq_true_iff, decide_eq_false_iff_not, Int.not_lt]

theorem promised_verdict_iff {k : APIKey} :
    Promised t0 ttl t (some (verdict t (some k))) ↔ Agrees t0 ttl t k.expiresAt := by
  by_cases unexpired : Unexpired t k
  · have bounds := unexpired_iff.mp unexpired
    rw [verdict_of_unexpired unexpired, Promised, Agrees]
    constructor
    · rintro ⟨_, later⟩
      refine ⟨fun _ => bounds, fun positive past => ?_⟩
      cases later positive past
    · rintro ⟨_, later⟩
      refine ⟨fun _ => ⟨k, rfl⟩, fun positive past => ?_⟩
      have expired := later positive past
      omega
  · have bounds := mt unexpired_iff.mpr unexpired
    rw [verdict_of_expired unexpired, Promised, Agrees]
    constructor
    · rintro ⟨within, _⟩
      refine ⟨fun lives => ?_, fun _ _ => by omega⟩
      obtain ⟨_, accepted⟩ := within lives
      cases accepted
    · rintro ⟨within, _⟩
      exact ⟨fun lives => absurd (within lives) bounds, fun _ _ => rfl⟩

/-- The expiry of an issued key agrees with every lifetime but none. -/
theorem agrees_issued_iff (started : 0 < t0.ns) (since : t0.ns ≤ t.ns) :
    Agrees t0 ttl t (t0.add ttl) ↔ ttl ≠ 0 ∨ t.ns = t0.ns := by
  have expiry : (t0.add ttl).ns = t0.ns + ttl := rfl
  rw [Agrees, expiry]
  constructor
  · rintro ⟨within, _⟩
    by_cases unlimited : ttl = 0
    · have accepted := within (Or.inl unlimited)
      omega
    · exact Or.inl unlimited
  · intro limited
    refine ⟨fun lives => ?_, fun positive past => ?_⟩
    · omega
    · omega

/-- An issued key is found as long as it is stored. -/
theorem find_issued {keys : List APIKey} (stored : ∃ k ∈ keys, m.IsIssued random t0 ttl k) :
    ∃ k, keys.find? (m.owns (Manager.randSecret random)) = some k := by
  obtain ⟨k, listed, sameHash, samePrefix, _⟩ := stored
  have owned : m.owns (Manager.randSecret random) k = true := by
    simp only [Manager.owns, sameHash, samePrefix, decide_true, Bool.and_self]
  exact Option.isSome_iff_exists.mp (List.find?_isSome.mpr ⟨k, listed, owned⟩)

theorem issueAPIKey_secret {projectID name secret : String} {s s' : Content} {record : APIKey}
    (issued : m.issueAPIKey t0 random projectID name ttl s = (s', .ok (record, secret))) :
    secret = Manager.randSecret random := by
  rw [Manager.issueAPIKey] at issued
  split at issued
  · cases issued
  · cases issued
    rfl

/-- A key keeps the promise of its lifetime exactly if the first stored key of its secret
expires as the lifetime says; the expiry with which it is issued does so unless it has no
lifetime. -/
theorem issued_key_promise_iff {projectID name secret : String} {s s' later : Content}
    {record : APIKey}
    (issued : m.issueAPIKey t0 random projectID name ttl s = (s', .ok (record, secret)))
    (stored : ∃ k ∈ (m.store.listAPIKeys later).1, m.IsIssued random t0 ttl k)
    (since : t0.ns ≤ t.ns) :
    ∃ k, (m.store.listAPIKeys later).1.find? (m.owns secret) = some k ∧
      (Promised t0 ttl t (m.authAPIKey t secret later) ↔ Agrees t0 ttl t k.expiresAt) ∧
      (m.IsIssued random t0 ttl k → 0 < t0.ns →
        (Promised t0 ttl t (m.authAPIKey t secret later) ↔ ttl ≠ 0 ∨ t.ns = t0.ns)) := by
  obtain rfl := issueAPIKey_secret issued
  obtain ⟨k, found⟩ := find_issued stored
  have answer : m.authAPIKey t (Manager.randSecret random) later =
      some (verdict t ((m.store.listAPIKeys later).1.find? (m.owns (Manager.randSecret random)))) :=
    authAPIKey_eq (randSecret_begins random) (randSecret_long random) later
  rw [found] at answer
  refine ⟨k, found, ?_, ?_⟩
  · rw [answer, promised_verdict_iff]
  · rintro ⟨_, _, expiry⟩ started
    rw [answer, promised_verdict_iff, expiry, agrees_issued_iff started since]

/-- The record of a key that was issued at 1000. -/
def zeroKeyUntil (ttl : Int) : APIKey := { zeroKey with expiresAt := Time.add ⟨1000⟩ ttl }

theorem issued_key_promise_limited :
    ∃ k, [zeroKeyUntil 3600].find? (keyManager.owns (Manager.randSecret zeroRandom)) = some k ∧
      (Promised ⟨1000⟩ 3600 ⟨4600⟩
          (keyManager.authAPIKey ⟨4600⟩ (Manager.randSecret zeroRandom) [zeroKeyUntil 3600]) ↔
        Agrees ⟨1000⟩ 3600 ⟨4600⟩ k.expiresAt) ∧
      (keyManager.IsIssued zeroRandom ⟨1000⟩ 3600 k → (0 : Int) < 1000 →
        (Promised ⟨1000⟩ 3600 ⟨4600⟩
            (keyManager.authAPIKey ⟨4600⟩ (Manager.randSecret zeroRandom) [zeroKeyUntil 3600]) ↔
          (3600 : Int) ≠ 0 ∨ (4600 : Int) = 1000)) := by
  have issued : keyManager.issueAPIKey ⟨1000⟩ zeroRandom "shop" "ci" 3600 [] =
      ([zeroKeyUntil 3600], .ok (zeroKeyUntil 3600, Manager.randSecret zeroRandom)) := by
    rw [Manager.issueAPIKey]
    decide +kernel
  exact issued_key_promise_iff issued
    ⟨zeroKeyUntil 3600, List.mem_cons_self, by unfold Manager.IsIssued; decide +kernel⟩ (by decide)

/-! ## Keys of the API -/

open MiniCloud.Api

/-- A key that the API has issued is rejected as soon as the clock goes on. -/
theorem posted_key_expires {sv : Server Content} {moment : Moment} {r : Request} {body : APIKeyReq}
    {secret : String} {s s' later : Content} {record k : APIKey} (posted : r.method = "POST")
    (read : sv.json.readAPIKey r.body = .ok body)
    (issued : sv.idm.issueAPIKey moment.handledAt moment.random body.projectID body.name 0 s =
      (s', .ok (record, secret)))
    (found : (sv.idm.store.listAPIKeys later).1.find? (sv.idm.owns secret) = some k)
    (unchanged : sv.idm.IsIssued moment.random moment.handledAt 0 k)
    (started : 0 < moment.handledAt.ns) (past : moment.handledAt.ns < t.ns) :
    sv.handleAPIKeys moment r s =
        (s', some (writeJSON 201 (sv.json.writeSecret record.base.id secret))) ∧
      sv.idm.authAPIKey t secret later = some (.error .tokenExpired) := by
  constructor
  · simp only [Server.handleAPIKeys, posted, read, issued]
    rfl
  · obtain rfl := issueAPIKey_secret issued
    have expired : ¬Unexpired t k := by
      rw [unexpired_iff, unchanged.2.2]
      have expiry : (moment.handledAt.add 0).ns = moment.handledAt.ns + 0 := rfl
      omega
    rw [authAPIKey_eq (randSecret_begins _) (randSecret_long _), found, verdict_of_expired expired]

/-- The JSON of the request for a key. -/
def keyEncoding : Encoding :=
  { sampleEncoding with
    readAPIKey := fun body =>
      if body = "\x7b\"project_id\":\"shop\",\"name\":\"ci\"\x7d" then .ok ⟨"", "shop", "ci"⟩
      else .error "EOF" }

def keyServer : Server (List APIKey) where
  store := keyStore
  idm := keyManager
  json := keyEncoding
  mux := fun _ r => .ok r.path

def keyMoment : Moment := ⟨⟨1000⟩, ⟨1000⟩, ⟨1000⟩, zeroRandom⟩

def postKey : Request where
  method := "POST"
  path := "/v1/apikeys"
  query := fun _ => ""
  header := fun _ => ""
  cookie := fun _ => none
  body := "\x7b\"project_id\":\"shop\",\"name\":\"ci\"\x7d"

/-- The secret of the first key of the store is rejected a nanosecond after it was posted. -/
theorem posted_key_rejected :
    keyServer.handleAPIKeys keyMoment postKey [] =
        ([zeroKeyUntil 0], some (writeJSON 201
          ("\x7b\"id\":\"key_000000000000000000\",\"secret\":\"" ++ Manager.randSecret zeroRandom ++
            "\"\x7d\n"))) ∧
      keyManager.authAPIKey ⟨1001⟩ (Manager.randSecret zeroRandom) [zeroKeyUntil 0] =
        some (.error .tokenExpired) ∧
      ¬Promised ⟨1000⟩ 0 ⟨1001⟩
        (keyManager.authAPIKey ⟨1001⟩ (Manager.randSecret zeroRandom) [zeroKeyUntil 0]) := by
  have rejected : keyManager.authAPIKey ⟨1001⟩ (Manager.randSecret zeroRandom) [zeroKeyUntil 0] =
      some (.error .tokenExpired) := by
    decide +kernel
  refine ⟨by decide +kernel, rejected, ?_⟩
  rw [rejected]
  rintro ⟨within, _⟩
  obtain ⟨_, accepted⟩ := within (Or.inl rfl)
  cases accepted

end MiniCloud.Identity
