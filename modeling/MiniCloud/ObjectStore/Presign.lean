import MiniCloud.Library.Fields
import MiniCloud.Library.Files
import MiniCloud.State.Methods

/-!
# Presigned URLs

`Presign` signs the bucket, the key and the expiry of an object, joined by bars, and
`VerifyPresign` signs what it gets in the same way and compares.  The names are not
escaped, so a name with a bar in it can be cut elsewhere, and one signature is then
good for several objects.
-/

namespace MiniCloud.ObjectStore

open MiniCloud.Library
open MiniCloud.Library.Text
open MiniCloud.State

/-- What `url.Values.Get` returns. -/
abbrev Values := String → String

/-- The key of the store, with HMAC-SHA256; a MAC is not empty. -/
structure Signer where
  hmacKey : String
  hmac : String → String → Bytes
  given : ∀ message, hmac hmacKey message ≠ []

inductive PresignError where
  | missingFields
  | badSignature
  deriving DecidableEq, Repr

/-- The query with the four fields. -/
def values (bucket key exp sig : String) : Values := fun name =>
  if name = "bucket" then bucket
  else if name = "key" then key
  else if name = "exp" then exp
  else if name = "sig" then sig
  else ""

namespace Signer

variable (sg : Signer)

/-- The hexadecimal text of the MAC of the three fields. -/
def signature (bucket key exp : String) : String :=
  hexEncode (sg.hmac sg.hmacKey (bucket ++ "|" ++ key ++ "|" ++ exp))

/-- The expiry, in decimal. -/
def expiry (now : Time) (ttl : Int) : String := toString (now.add ttl).unix

/-- The query that `Presign` encodes. -/
def presignValues (now : Time) (bucket key : String) (ttl : Int) : Values :=
  values bucket key (expiry now ttl) (sg.signature bucket key (expiry now ttl))

def presign (encode : Values → String) (now : Time) (bucket key : String) (ttl : Int) : String :=
  "/objects/presigned?" ++ encode (sg.presignValues now bucket key ttl)

def verifyPresign (v : Values) : Except PresignError (String × String) :=
  if v "bucket" = "" ∨ v "key" = "" ∨ v "exp" = "" ∨ v "sig" = "" then .error .missingFields
  else if sg.signature (v "bucket") (v "key") (v "exp") ≠ v "sig" then .error .badSignature
  else .ok (v "bucket", v "key")

def Accepts (v : Values) : Prop := ∃ object, sg.verifyPresign v = .ok object

variable {sg} {bucket key exp bucket' key' exp' : String}

/-! ## Signatures -/

theorem signature_ne (bucket key exp : String) : sg.signature bucket key exp ≠ "" := by
  intro empty
  have digits := congrArg String.toList empty
  rw [signature, hexEncode, String.toList_ofList] at digits
  cases mac : sg.hmac sg.hmacKey (bucket ++ "|" ++ key ++ "|" ++ exp) with
  | nil => exact sg.given _ mac
  | cons b rest =>
      rw [mac] at digits
      cases digits

theorem message_toList (bucket key exp : String) :
    (bucket ++ "|" ++ key ++ "|" ++ exp).toList =
      Fields.join '|' bucket.toList key.toList exp.toList := by
  rw [String.toList_append, String.toList_append, String.toList_append, String.toList_append,
    Fields.join, List.append_assoc, List.append_assoc, List.append_assoc]
  rfl

theorem signature_eq_iff (injective : Function.Injective (sg.hmac sg.hmacKey)) :
    sg.signature bucket' key' exp' = sg.signature bucket key exp ↔
      Fields.join '|' bucket'.toList key'.toList exp'.toList =
        Fields.join '|' bucket.toList key.toList exp.toList := by
  rw [← message_toList, ← message_toList]
  constructor
  · intro same
    exact congrArg String.toList (injective (hexEncode_inj same))
  · intro same
    exact congrArg (fun m => hexEncode (sg.hmac sg.hmacKey m)) (String.toList_inj.mp same)

/-- A query is accepted if no field is missing and the joined fields are those that were
signed. -/
theorem accepts_iff (injective : Function.Injective (sg.hmac sg.hmacKey))
    (bucketGiven : bucket' ≠ "") (keyGiven : key' ≠ "") :
    sg.Accepts (values bucket' key' exp' (sg.signature bucket key exp)) ↔
      exp' ≠ "" ∧ Fields.join '|' bucket'.toList key'.toList exp'.toList =
        Fields.join '|' bucket.toList key.toList exp.toList := by
  rw [← signature_eq_iff injective, Accepts, verifyPresign]
  change (∃ object, (if bucket' = "" ∨ key' = "" ∨ exp' = "" ∨ sg.signature bucket key exp = "" then
      Except.error PresignError.missingFields
    else if sg.signature bucket' key' exp' ≠ sg.signature bucket key exp then
      Except.error PresignError.badSignature
    else Except.ok (bucket', key')) = Except.ok object) ↔ _
  constructor
  · rintro ⟨object, accepted⟩
    split at accepted
    · cases accepted
    rename_i present
    split at accepted
    · cases accepted
    rename_i same
    exact ⟨fun missing => present (Or.inr (Or.inr (Or.inl missing))), not_not.mp same⟩
  · rintro ⟨expGiven, same⟩
    have present : ¬(bucket' = "" ∨ key' = "" ∨ exp' = "" ∨ sg.signature bucket key exp = "") := by
      rintro (missing | missing | missing | missing)
      · exact bucketGiven missing
      · exact keyGiven missing
      · exact expGiven missing
      · exact signature_ne bucket key exp missing
    refine ⟨(bucket', key'), ?_⟩
    rw [if_neg present, if_neg (not_not.mpr same)]

/-! ## The expiry -/

theorem digits_toList (n : Nat) : (toString n).toList = Nat.toDigits 10 n := String.toList_ofList

theorem digits_plain (n : Nat) : '|' ∉ (toString n).toList := by
  rw [digits_toList]
  intro member
  have isDigit := Nat.isDigit_of_mem_toDigits (by decide) (by decide) member
  revert isDigit
  decide

theorem expiry_plain (now : Time) (ttl : Int) : '|' ∉ (expiry now ttl).toList := by
  unfold expiry
  cases (now.add ttl).unix with
  | ofNat n => exact digits_plain n
  | negSucc n =>
      have text : toString (Int.negSucc n) = "-" ++ toString (n + 1) := rfl
      rw [text, String.toList_append, List.mem_append]
      rintro (sign | digit)
      · revert sign
        decide
      · exact digits_plain (n + 1) digit

theorem expiry_ne (now : Time) (ttl : Int) : expiry now ttl ≠ "" := by
  unfold expiry
  cases (now.add ttl).unix with
  | ofNat n =>
      intro empty
      have digits : (toString n).toList = [] := congrArg String.toList empty
      rw [digits_toList] at digits
      exact Nat.toDigits_ne_nil digits
  | negSucc n =>
      have text : toString (Int.negSucc n) = "-" ++ toString (n + 1) := rfl
      rw [text]
      intro empty
      have chars := congrArg String.toList empty
      rw [String.toList_append] at chars
      cases chars

theorem toList_ne {s : String} (given : s ≠ "") : s.toList ≠ [] := fun empty =>
  given (String.toList_eq_nil_iff.mp empty)

/-- A presigned URL grants exactly the object that it was made for, for these names and no
others: the bucket has a bar at most in front, and the key has none unless it is one. -/
theorem presign_grants_one_iff (sg : Signer)
    (injective : Function.Injective (sg.hmac sg.hmacKey)) (now : Time) (ttl : Int)
    (bucketGiven : bucket ≠ "") (keyGiven : key ≠ "") :
    (∀ bucket' key' exp', bucket' ≠ "" → key' ≠ "" →
      (sg.Accepts (values bucket' key' exp' (sg.presignValues now bucket key ttl "sig")) ↔
        bucket' = bucket ∧ key' = key ∧ exp' = sg.presignValues now bucket key ttl "exp")) ↔
      Fields.Unambiguous '|' bucket.toList key.toList := by
  change (∀ bucket' key' exp', bucket' ≠ "" → key' ≠ "" →
    (sg.Accepts (values bucket' key' exp' (sg.signature bucket key (expiry now ttl))) ↔
      bucket' = bucket ∧ key' = key ∧ exp' = expiry now ttl)) ↔ _
  constructor
  · intro binds
    by_contra unclear
    obtain ⟨first, second, third, firstGiven, secondGiven, thirdGiven, same, differ⟩ :=
      Fields.join_ambiguous unclear (toList_ne bucketGiven) (toList_ne keyGiven)
        (toList_ne (expiry_ne now ttl))
    have givenText {chars : List Char} (given : chars ≠ []) : String.ofList chars ≠ "" :=
      fun empty => given (String.ofList_inj.mp empty)
    have accepted := (binds _ _ _ (givenText firstGiven) (givenText secondGiven)).mp
      ((accepts_iff injective (givenText firstGiven) (givenText secondGiven)).mpr
        ⟨givenText thirdGiven, by simp only [String.toList_ofList, same]⟩)
    obtain ⟨sameBucket, sameKey, sameExp⟩ := accepted
    refine differ ⟨?_, ?_, ?_⟩
    · rw [← sameBucket, String.toList_ofList]
    · rw [← sameKey, String.toList_ofList]
    · rw [← sameExp, String.toList_ofList]
  · intro clear bucket' key' exp' given given'
    rw [accepts_iff injective given given']
    constructor
    · rintro ⟨_, same⟩
      obtain ⟨sameBucket, sameKey, sameExp⟩ := Fields.join_unique clear (expiry_plain now ttl)
        (toList_ne given) (toList_ne given') same
      exact ⟨String.toList_inj.mp sameBucket, String.toList_inj.mp sameKey,
        String.toList_inj.mp sameExp⟩
    · rintro ⟨rfl, rfl, rfl⟩
      exact ⟨expiry_ne now ttl, rfl⟩

/-! ## Two signed objects -/

/-- The MAC of the object `may/1` in `logs` for a minute from the zero time. -/
def logsMac : Bytes :=
  [32, 229, 34, 39, 213, 213, 95, 154, 139, 246, 180, 89, 248, 171, 147, 130, 130, 63, 35, 149,
    145, 227, 120, 110, 131, 177, 164, 39, 8, 28, 116, 98]

/-- The MAC of the object `b|c` in `a` for the same time. -/
def barMac : Bytes :=
  [221, 133, 130, 204, 122, 91, 205, 36, 231, 207, 11, 42, 97, 45, 124, 78, 143, 156, 201, 1,
    10, 42, 123, 107, 6, 98, 119, 89, 145, 13, 190, 118]

/-- HMAC-SHA256 with the key `devkey` for the two; no other message is signed below. -/
def sampleMac (message : String) : Bytes :=
  if message = "logs|may/1|-62135596740" then logsMac
  else if message = "a|b|c|-62135596740" then barMac
  else 0 :: message.toByteArray.data.toList

theorem sampleMac_ne_nil (message : String) : sampleMac message ≠ [] := by
  unfold sampleMac
  split
  · decide
  split
  · decide
  · exact List.cons_ne_nil _ _

def sample : Signer where
  hmacKey := "devkey"
  hmac := fun _ => sampleMac
  given := sampleMac_ne_nil

theorem sampleMac_injective : Function.Injective sampleMac := by
  have framed : Function.Injective fun message : String =>
      (0 :: message.toByteArray.data.toList : Bytes) := by
    intro message message' same
    have bytes := Array.toList_inj.mp (List.cons.inj same).2
    exact String.toByteArray_inj.mp (ByteArray.ext bytes)
  -- the first bytes of the two MACs are not zero, and they differ
  refine injective_ite (injective_ite framed (fun _ same => ?_) _) (fun _ same => ?_) _
  · cases (List.cons.inj same).1
  · revert same
    split
    · decide
    · intro same
      cases (List.cons.inj same).1

/-- The URL of an object is good for the object, and not for another one. -/
theorem presign_grants_sample :
    sample.Accepts (values "logs" "may/1" (sample.presignValues ⟨0⟩ "logs" "may/1" 60000000000 "exp")
        (sample.presignValues ⟨0⟩ "logs" "may/1" 60000000000 "sig")) ∧
      ¬sample.Accepts (values "logs" "may/2" (sample.presignValues ⟨0⟩ "logs" "may/1" 60000000000 "exp")
        (sample.presignValues ⟨0⟩ "logs" "may/1" 60000000000 "sig")) := by
  have grants := (@presign_grants_one_iff "logs" "may/1" sample sampleMac_injective ⟨0⟩ 60000000000 (by decide)
    (by decide)).mpr (by decide)
  constructor
  · exact (grants "logs" "may/1" _ (by decide) (by decide)).mpr ⟨rfl, rfl, rfl⟩
  · intro accepted
    exact absurd ((grants "logs" "may/2" _ (by decide) (by decide)).mp accepted).2.1 (by decide)

/-- The URL of the object `b|c` in the bucket `a` is accepted for `c` in the bucket `a|b`. -/
theorem bar_grants_other :
    sample.verifyPresign (values "a|b" "c" (sample.presignValues ⟨0⟩ "a" "b|c" 60000000000 "exp")
      (sample.presignValues ⟨0⟩ "a" "b|c" 60000000000 "sig")) = .ok ("a|b", "c") := by
  decide +kernel

end Signer

end MiniCloud.ObjectStore
