import MiniCloud.Identity.Manager

/-!
# Authentication with an API key

The loop over the stored keys finds the first one with the prefix and the hash of the
secret.  It cuts the first eight bytes off a secret of which only the first five have
been looked at: a shorter one makes it panic as soon as there is a key to compare with.
-/

namespace MiniCloud.Identity

open MiniCloud.Library.Text
open MiniCloud.State

/-- A key without an expiry, or one whose expiry has not passed. -/
def Unexpired (now : Time) (k : APIKey) : Prop := k.expiresAt.isZero = true ∨ now.after k.expiresAt = false

/-- The answer for the key that was found. -/
def verdict (now : Time) : Option APIKey → Except Error APIKey
  | none => .error .invalidCredentials
  | some k => if !k.expiresAt.isZero && now.after k.expiresAt then .error .tokenExpired else .ok k

namespace Manager

variable {Content : Type} (m : Manager Content)

/-- The key has the prefix and the hash of the secret. -/
def owns (secret : String) (k : APIKey) : Bool :=
  k.keyPrefix = take secret 8 && k.hash = m.packages.sha256 secret

/-- The key is the first one of the secret, and it is unexpired. -/
def Accepts (now : Time) (secret : String) (keys : List APIKey) (k : APIKey) : Prop :=
  hasPrefix secret "ctlk_" = true ∧ keys.find? (m.owns secret) = some k ∧ Unexpired now k

end Manager

variable {Content : Type} {m : Manager Content} {now : Time} {secret : String}

theorem expired_iff {k : APIKey} :
    (!k.expiresAt.isZero && now.after k.expiresAt) = true ↔ ¬Unexpired now k := by
  rw [Unexpired, not_or, Bool.and_eq_true, Bool.not_eq_true', Bool.not_eq_true, Bool.not_eq_false]

theorem verdict_of_unexpired {k : APIKey} (unexpired : Unexpired now k) :
    verdict now (some k) = .ok k :=
  if_neg (mt expired_iff.mp (not_not.mpr unexpired))

theorem verdict_of_expired {k : APIKey} (expired : ¬Unexpired now k) :
    verdict now (some k) = .error .tokenExpired :=
  if_pos (expired_iff.mpr expired)

theorem verdict_eq_ok_iff {found : Option APIKey} {k : APIKey} :
    verdict now found = .ok k ↔ found = some k ∧ Unexpired now k := by
  constructor
  · intro accepted
    cases found with
    | none => cases accepted
    | some first =>
        by_cases unexpired : Unexpired now first
        · rw [verdict_of_unexpired unexpired] at accepted
          cases accepted
          exact ⟨rfl, unexpired⟩
        · rw [verdict_of_expired unexpired] at accepted
          cases accepted
  · rintro ⟨rfl, unexpired⟩
    exact verdict_of_unexpired unexpired

/-- With eight bytes to compare, the loop answers for the first key of the secret. -/
theorem findAPIKey_eq (long : 8 ≤ secret.toList.length) (keys : List APIKey) :
    m.findAPIKey now secret keys = some (verdict now (keys.find? (m.owns secret))) := by
  induction keys with
  | nil => rfl
  | cons k rest ih =>
      rw [Manager.findAPIKey, sliceTo, if_pos long, List.find?_cons]
      by_cases samePrefix : k.keyPrefix = take secret 8
      · by_cases sameHash : k.hash = m.packages.sha256 secret
        · have owned : m.owns secret k = true := by simp [Manager.owns, samePrefix, sameHash]
          simp only [samePrefix, sameHash, owned, ne_eq, not_true_eq_false, if_false, if_true, verdict]
          split <;> rfl
        · have notOwned : m.owns secret k = false := by simp [Manager.owns, sameHash]
          simp only [samePrefix, sameHash, notOwned, ne_eq, not_true_eq_false, if_false]
          exact ih
      · have notOwned : m.owns secret k = false := by simp [Manager.owns, samePrefix]
        simp only [samePrefix, notOwned, ne_eq, not_false_eq_true, if_true]
        exact ih

theorem findAPIKey_short (short : secret.toList.length < 8) {keys : List APIKey} (some : keys ≠ []) :
    m.findAPIKey now secret keys = none := by
  cases keys with
  | nil => exact absurd rfl some
  | cons k rest => rw [Manager.findAPIKey, sliceTo, if_neg (Nat.not_le.mpr short)]

/-- The whole answer of the authentication. -/
theorem authAPIKey_eq (begins : hasPrefix secret "ctlk_" = true) (long : 8 ≤ secret.toList.length)
    (s : Content) :
    m.authAPIKey now secret s =
      some (verdict now ((m.store.listAPIKeys s).1.find? (m.owns secret))) := by
  rw [Manager.authAPIKey, begins]
  exact findAPIKey_eq long _

/-- Authentication returns, and accepts exactly the unexpired first key of the secret, unless
a secret that begins as one is too short to be compared. -/
theorem authAPIKey_exact_iff (m : Manager Content) (now : Time) (secret : String) (s : Content) :
    (∃ outcome, m.authAPIKey now secret s = some outcome ∧
        ∀ k, outcome = .ok k ↔ m.Accepts now secret (m.store.listAPIKeys s).1 k) ↔
      (hasPrefix secret "ctlk_" = true → (m.store.listAPIKeys s).1 ≠ [] →
        8 ≤ secret.toList.length) := by
  constructor
  · rintro ⟨outcome, returned, _⟩ begins some
    by_contra short
    rw [Manager.authAPIKey, begins, Bool.not_true, if_neg Bool.false_ne_true,
      findAPIKey_short (Nat.not_le.mp short) some] at returned
    cases returned
  · intro compared
    cases begins : hasPrefix secret "ctlk_" with
    | false =>
        refine ⟨.error .invalidCredentials, by rw [Manager.authAPIKey, begins]; rfl, fun k => ?_⟩
        constructor
        · intro same
          cases same
        · rintro ⟨mustBegin, _, _⟩
          rw [begins] at mustBegin
          cases mustBegin
    | true =>
        by_cases none : (m.store.listAPIKeys s).1 = []
        · refine ⟨.error .invalidCredentials, ?_, fun k => ?_⟩
          · rw [Manager.authAPIKey, begins, none]
            rfl
          · rw [none]
            constructor
            · intro same
              cases same
            · rintro ⟨_, found, _⟩
              cases found
        · refine ⟨_, authAPIKey_eq begins (compared begins none) s, fun k => ?_⟩
          rw [verdict_eq_ok_iff, Manager.Accepts, begins]
          exact (and_iff_right rfl).symm

/-! ## A store of keys -/

/-- A store whose contents are the API keys. -/
def keyStore : Methods (List APIKey) :=
  { Methods.idle (List APIKey) with
    listAPIKeys := fun keys => (keys, none)
    createAPIKey := fun k keys => (keys ++ [k], .ok k) }

theorem zeros_eighteen : (String.ofList (List.replicate 18 '0')).toList.length = 18 := by
  rw [String.toList_ofList, List.length_replicate]

theorem zeros_forty_eight : (String.ofList (List.replicate 48 '0')).toList.length = 48 := by
  rw [String.toList_ofList, List.length_replicate]

/-- Random bytes that are all zero. -/
def zeroRandom : Random where
  id := String.ofList (List.replicate 18 '0')
  secret := String.ofList (List.replicate 48 '0')
  idLength := zeros_eighteen
  secretLength := zeros_forty_eight

/-- The hash of the secret whose random bytes are all zero. -/
def zeroDigest : String := "80ce32d8a142e1a75d32f0b11ecd6dada25c60d6c9dbac1a3ac4ea33433e6d9a"

/-- No other text is hashed below, and nothing is signed. -/
def keyPackages : Packages where
  hmac := fun _ _ => ""
  sha256 := fun text => if text = Manager.randSecret zeroRandom then zeroDigest else ""
  base64Encode := fun _ => ""
  base64Decode := fun _ => none
  marshal := fun _ => ""
  unmarshal := fun _ => none
  generateFromPassword := fun _ => .error "not used"
  compareHashAndPassword := fun _ _ => false

def keyManager : Manager (List APIKey) := ⟨keyStore, "key", keyPackages⟩

def zeroKey : APIKey :=
  ⟨⟨"key_000000000000000000", "shop", "ci"⟩, zeroDigest, "ctlk_000", ⟨0⟩⟩

/-- The secret of a stored key is accepted. -/
example : keyManager.authAPIKey ⟨1⟩ (Manager.randSecret zeroRandom) [zeroKey] = some (.ok zeroKey) := by
  decide +kernel

/-- A header that is nothing but the beginning of a secret makes the server panic. -/
theorem authAPIKey_short_panics :
    hasPrefix "ctlk_" "ctlk_" = true ∧ keyManager.authAPIKey ⟨1⟩ "ctlk_" [zeroKey] = none := by
  decide +kernel

end MiniCloud.Identity
