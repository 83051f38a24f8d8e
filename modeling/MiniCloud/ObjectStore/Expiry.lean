import MiniCloud.Library.Urls
import MiniCloud.ObjectStore.Presign

/-!
# The expiry of presigned URLs

`Presign` puts the expiry into the URL and signs it.  `VerifyPresign` signs the text of the
expiry again, but it never reads it as a time and has no clock to compare it with: the
values of a URL are accepted at every time or, for an empty bucket or key, at none.
-/

namespace MiniCloud.ObjectStore.Signer

open MiniCloud.Library
open MiniCloud.State

variable (sg : Signer)

/-- The names, in the order in which they are set. -/
def presignNames : List String := ["bucket", "key", "exp", "sig"]

/-- `Presign` with the encoding of `url.Values`. -/
def presignURL (now : Time) (bucket key : String) (ttl : Int) : String :=
  sg.presign (Urls.encode presignNames) now bucket key ttl

/-- What `Get` returns for the query of a URL. -/
def queryValues (url : String) : Values := Urls.get (Urls.parseQuery (Urls.queryOf url))

variable {sg} {now : Time} {bucket key : String} {ttl : Int}

/-- The URL carries the four values unchanged. -/
theorem queryValues_presignURL {name : String} (member : name ∈ presignNames) :
    queryValues (sg.presignURL now bucket key ttl) name =
      sg.presignValues now bucket key ttl name := by
  have query : Urls.queryOf (sg.presignURL now bucket key ttl) =
      Urls.encode presignNames (sg.presignValues now bucket key ttl) :=
    @Urls.queryOf_append "/objects/presigned" (by decide) _
  rw [queryValues, query]
  exact Urls.get_parseQuery_encode member _

theorem verifyPresign_congr {v v' : Values} (same : ∀ name ∈ presignNames, v name = v' name) :
    sg.verifyPresign v = sg.verifyPresign v' := by
  unfold verifyPresign
  rw [same "bucket" (by decide), same "key" (by decide), same "exp" (by decide),
    same "sig" (by decide)]

/-- The values of a URL pass the check of the signature, whatever the clock says. -/
theorem verifyPresign_presignURL :
    sg.verifyPresign (queryValues (sg.presignURL now bucket key ttl)) =
      if bucket = "" ∨ key = "" then .error .missingFields else .ok (bucket, key) := by
  rw [verifyPresign_congr fun name member => queryValues_presignURL member]
  change (if bucket = "" ∨ key = "" ∨ expiry now ttl = "" ∨
      sg.signature bucket key (expiry now ttl) = "" then Except.error PresignError.missingFields
    else if sg.signature bucket key (expiry now ttl) ≠ sg.signature bucket key (expiry now ttl) then
      Except.error PresignError.badSignature
    else Except.ok (bucket, key)) = _
  simp only [expiry_ne, signature_ne, or_false, ne_eq, not_true_eq_false, if_false]

theorem accepts_presignURL_iff :
    sg.Accepts (queryValues (sg.presignURL now bucket key ttl)) ↔ bucket ≠ "" ∧ key ≠ "" := by
  rw [Accepts, verifyPresign_presignURL, ← not_or]
  constructor
  · rintro ⟨object, accepted⟩ missing
    rw [if_pos missing] at accepted
    cases accepted
  · intro given
    exact ⟨(bucket, key), if_neg given⟩

/-- A URL is accepted up to its expiry and rejected later, at exactly these times: up to the
expiry if bucket and key are given, and behind it if one of them is empty. -/
theorem presign_temporary_iff (sg : Signer) (bucket key : String) (ttl : Int) (t₀ t : Time) :
    (sg.Accepts (queryValues (sg.presignURL t₀ bucket key ttl)) ↔ t.unix ≤ (t₀.add ttl).unix) ↔
      (t.unix ≤ (t₀.add ttl).unix ↔ bucket ≠ "" ∧ key ≠ "") := by
  rw [accepts_presignURL_iff]
  exact iff_comm

/-- A URL for a minute is accepted two minutes later, and one without a bucket is rejected at
once. -/
theorem expired_url_accepted :
    sample.verifyPresign (queryValues (sample.presignURL ⟨0⟩ "logs" "may/1" 60000000000)) =
        .ok ("logs", "may/1") ∧
      ((⟨0⟩ : Time).add 60000000000).unix < ((⟨0⟩ : Time).add 120000000000).unix ∧
      sample.verifyPresign (queryValues (sample.presignURL ⟨0⟩ "" "may/1" 60000000000)) =
        .error .missingFields ∧
      (⟨0⟩ : Time).unix ≤ ((⟨0⟩ : Time).add 60000000000).unix := by
  rw [verifyPresign_presignURL, verifyPresign_presignURL]
  decide

end MiniCloud.ObjectStore.Signer
