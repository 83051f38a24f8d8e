import MiniCloud.Identity.Keys

/-!
# Session tokens

A token is its body, a dot and the signature of the body.  `VerifyToken` cuts a string at
its first dot, checks the signature of the part in front of it, and only then reads that
part.  A string that passes the check therefore has the body of a token that was signed,
whatever stands behind the dot.
-/

namespace MiniCloud.Identity

open MiniCloud.Library.Text
open MiniCloud.State

namespace Manager

variable {Content : Type} (m : Manager Content)

/-- What the token of a user with an expiry says. -/
def contentOf (userID : String) (exp : Time) : Token := ⟨userID, Int64.ofInt exp.unix⟩

/-- The part of a token that is signed. -/
def bodyOf (userID : String) (exp : Time) : String :=
  m.packages.base64Encode (m.packages.marshal (contentOf userID exp))

/-- The signature of a text. -/
def mac (text : String) : String := m.packages.hmac m.hmacKey text

/-- The encodings of a token are read back, as JSON does it for every user ID in valid UTF-8
and base64url for every text, and the alphabet of base64url has no dot. -/
structure RoundTrips (userID : String) (exp : Time) : Prop where
  json : m.packages.unmarshal (m.packages.marshal (contentOf userID exp)) = some (contentOf userID exp)
  body : m.packages.base64Decode (m.bodyOf userID exp) =
    some (m.packages.marshal (contentOf userID exp))
  alphabet : '.' ∉ (m.bodyOf userID exp).toList
  signature : m.packages.base64Decode (m.packages.base64Encode (m.mac (m.bodyOf userID exp))) =
    some (m.mac (m.bodyOf userID exp))

/-- Whoever presents a string has no signatures but those of the tokens that were signed: if
what stands behind the first dot is the signature of any text, it is one of theirs. -/
def Unforgeable (signed : List (String × Time)) (presented : String → Prop) : Prop :=
  ∀ tok enc sig text, presented tok → cut tok '.' = some (enc, sig) →
    m.packages.base64Decode sig = some (m.mac text) →
      ∃ token ∈ signed, m.mac text = m.mac (m.bodyOf token.1 token.2)

end Manager

variable {Content : Type} {m : Manager Content}

/-- A string is opened by reading the part whose signature stands behind the first dot. -/
theorem openToken_of_cut {tok enc sig : String} (parts : cut tok '.' = some (enc, sig))
    (signature : m.packages.base64Decode sig = some (m.mac enc)) :
    m.openToken tok = (m.packages.base64Decode enc).bind m.packages.unmarshal := by
  simp only [Manager.openToken, parts, signature]
  exact if_pos rfl

theorem cut_of_openToken {tok : String} {t : Token} (opened : m.openToken tok = some t) :
    ∃ enc sig, cut tok '.' = some (enc, sig) ∧ m.packages.base64Decode sig = some (m.mac enc) := by
  unfold Manager.openToken at opened
  cases parts : cut tok '.' with
  | none =>
      simp only [parts] at opened
      cases opened
  | some pair =>
      obtain ⟨enc, sig⟩ := pair
      simp only [parts] at opened
      cases decoded : m.packages.base64Decode sig with
      | none =>
          simp only [decoded] at opened
          cases opened
      | some gotSig =>
          simp only [decoded] at opened
          by_cases same : m.packages.hmac m.hmacKey enc = gotSig
          · exact ⟨enc, sig, rfl, decoded.trans (congrArg some same.symm)⟩
          · rw [if_neg same] at opened
            cases opened

theorem openToken_body {userID sig : String} {exp : Time} (round : m.RoundTrips userID exp)
    (signature : m.packages.base64Decode sig = some (m.mac (m.bodyOf userID exp))) :
    m.openToken (m.bodyOf userID exp ++ "." ++ sig) = some (Manager.contentOf userID exp) := by
  have parts : cut (m.bodyOf userID exp ++ "." ++ sig) '.' = some (m.bodyOf userID exp, sig) :=
    cut_append round.alphabet sig
  rw [openToken_of_cut parts signature, round.body, Option.bind_some, round.json]

theorem openToken_signToken {userID : String} {exp : Time} (round : m.RoundTrips userID exp) :
    m.openToken (m.signToken userID exp) = some (Manager.contentOf userID exp) :=
  openToken_body round round.signature

/-- A presented string that opens has the body of a signed token. -/
theorem body_of_presented {signed : List (String × Time)} {presented : String → Prop} {tok : String}
    {t : Token} (injective : Function.Injective m.mac) (unforgeable : m.Unforgeable signed presented)
    (isPresented : presented tok) (opened : m.openToken tok = some t) :
    ∃ token ∈ signed, ∃ sig, tok = m.bodyOf token.1 token.2 ++ "." ++ sig ∧
      m.packages.base64Decode sig = some (m.mac (m.bodyOf token.1 token.2)) := by
  obtain ⟨enc, sig, parts, signature⟩ := cut_of_openToken opened
  obtain ⟨token, isSigned, same⟩ := unforgeable tok enc sig enc isPresented parts signature
  have isBody := injective same
  subst isBody
  exact ⟨token, isSigned, sig, (cut_eq_some parts).1, signature⟩

theorem verifyToken_congr {tok tok' : String} (same : m.openToken tok = m.openToken tok') (now : Time)
    (s : Content) : m.verifyToken now tok s = m.verifyToken now tok' s := by
  unfold Manager.verifyToken
  rw [same]

/-- What `VerifyToken` says about a string with a known content. -/
theorem verifyToken_of_open {tok : String} {t : Token} (opened : m.openToken tok = some t) (now : Time)
    (s : Content) :
    (t.expiresAt.toInt < now.unix → m.verifyToken now tok s = .error .tokenExpired) ∧
      (∀ u, now.unix ≤ t.expiresAt.toInt → m.store.getUser t.userID s = .ok u →
        m.verifyToken now tok s = .ok u) := by
  unfold Manager.verifyToken
  rw [opened]
  constructor
  · intro expired
    exact if_pos expired
  · intro u lives found
    simp only [if_neg (Int.not_lt.mpr lives), found]

/-- Signed tokens verify until they expire, and every string that is not malformed is a signed
token up to its signature's encoding. -/
theorem tokens_round_trip {signed : List (String × Time)} {presented : String → Prop}
    (injective : Function.Injective m.mac) (unforgeable : m.Unforgeable signed presented)
    (rounds : ∀ token ∈ signed, m.RoundTrips token.1 token.2) (now : Time) (s : Content) :
    (∀ userID exp, m.RoundTrips userID exp →
      ((Int64.ofInt exp.unix).toInt < now.unix →
        m.verifyToken now (m.signToken userID exp) s = .error .tokenExpired) ∧
      (∀ u, now.unix ≤ (Int64.ofInt exp.unix).toInt → m.store.getUser userID s = .ok u →
        m.verifyToken now (m.signToken userID exp) s = .ok u)) ∧
    (∀ tok, presented tok → m.verifyToken now tok s ≠ .error .tokenMalformed →
      ∃ token ∈ signed, (∃ sig, tok = m.bodyOf token.1 token.2 ++ "." ++ sig) ∧
        m.openToken tok = some ⟨token.1, Int64.ofInt token.2.unix⟩ ∧
          m.verifyToken now tok s = m.verifyToken now (m.signToken token.1 token.2) s) := by
  constructor
  · intro userID exp round
    exact verifyToken_of_open (openToken_signToken round) now s
  · intro tok isPresented accepted
    cases opened : m.openToken tok with
    | none =>
        have malformed : m.verifyToken now tok s = .error .tokenMalformed := by
          rw [Manager.verifyToken, opened]
        exact absurd malformed accepted
    | some t =>
        obtain ⟨token, isSigned, sig, rfl, signature⟩ :=
          body_of_presented injective unforgeable isPresented opened
        have round := rounds token isSigned
        have content := openToken_body round signature
        refine ⟨token, isSigned, ⟨sig, rfl⟩, ?_, ?_⟩
        · rw [← opened, content]
          rfl
        · exact verifyToken_congr (content.trans (openToken_signToken round).symm) now s

/-! ## One session -/

/-- The end of the second 1700000000. -/
def sessionExpiry : Time := ⟨(1700000000 + 62135596800) * 1000000000 + 999999999⟩

def sessionJSON : String := "\x7b\"sub\":\"usr_1\",\"exp\":1700000000\x7d"

def sessionBody : String := "eyJzdWIiOiJ1c3JfMSIsImV4cCI6MTcwMDAwMDAwMH0"

/-- The HMAC of the body under the key `secret`. -/
def sessionMac : String :=
  String.ofList ([166, 199, 18, 98, 103, 53, 226, 17, 204, 58, 26, 34, 249, 168, 44, 251, 85, 228, 80,
    205, 248, 212, 151, 128, 109, 217, 165, 64, 57, 247, 6, 163].map Char.ofNat)

def sessionSignature : String := "pscSYmc14hHMOhoi-ags-1XkUM341JeAbdmlQDn3BqM"

/-- The packages on the token of `usr_1`; no other text is signed or encoded below. -/
def sessionPackages : Packages :=
  { keyPackages with
    hmac := fun key text => if key = "secret" ∧ text = sessionBody then sessionMac else "?" ++ text
    base64Encode := fun text =>
      if text = sessionJSON then sessionBody else if text = sessionMac then sessionSignature else ""
    base64Decode := fun text =>
      if text = sessionBody then some sessionJSON
      else if text = sessionSignature then some sessionMac
      else none
    marshal := fun t => if t = ⟨"usr_1", 1700000000⟩ then sessionJSON else ""
    unmarshal := fun text => if text = sessionJSON then some ⟨"usr_1", 1700000000⟩ else none }

/-- A hash of the password `pw`. -/
def sessionHash : String := "$2a$10$N9qo8uLOickgx2ZMRZoMye89KfcpHvu23NVn9wzi9MIDdJDNXm4Xe"

def sessionUser : User :=
  ⟨⟨"usr_1", "", "One"⟩, "one@example.org", "One", false, sessionHash⟩

def sessionManager : Manager (List APIKey) where
  store := { keyStore with
    getUser := fun id _ => if id = "usr_1" then .ok sessionUser else .error ⟨"not found"⟩ }
  hmacKey := "secret"
  packages := sessionPackages

/-- The body of a longer session with the signature of the shorter one. -/
def alteredToken : String := "eyJzdWIiOiJ1c3JfMSIsImV4cCI6MTkwMDAwMDAwMH0" ++ "." ++ sessionSignature

theorem sessionMac_injective : Function.Injective sessionManager.mac := by
  have isMac : ∀ text, sessionManager.mac text = if text = sessionBody then sessionMac else "?" ++ text :=
    fun text => if_congr (and_iff_right rfl) rfl rfl
  have apart : ∀ text, sessionMac ≠ "?" ++ text := by
    intro text same
    have first : sessionMac.toList.head? = some (Char.ofNat 166) := by decide
    have mark : ("?" ++ text).toList.head? = some '?' := by
      rw [String.toList_append]
      rfl
    rw [same, mark] at first
    exact absurd first (by decide)
  rw [funext isMac]
  exact injective_ite (fun _ _ same => (String.append_right_inj "?").mp same)
    (fun text => (apart text).symm) sessionBody

theorem tokens_round_trip_one :
    sessionManager.verifyToken ⟨(1600000000 + 62135596800) * 1000000000⟩
        (sessionManager.signToken "usr_1" sessionExpiry) [] = .ok sessionUser ∧
      ∀ tok, tok = sessionManager.signToken "usr_1" sessionExpiry ∨ tok = alteredToken →
        sessionManager.verifyToken ⟨(1600000000 + 62135596800) * 1000000000⟩ tok [] ≠
          .error .tokenMalformed →
        ∃ sig, tok = sessionBody ++ "." ++ sig := by
  have round : sessionManager.RoundTrips "usr_1" sessionExpiry :=
    ⟨by decide +kernel, by decide +kernel, by decide +kernel, by decide +kernel⟩
  have isBody : sessionManager.bodyOf "usr_1" sessionExpiry = sessionBody := by decide +kernel
  have unforgeable : sessionManager.Unforgeable [("usr_1", sessionExpiry)]
      (fun tok => tok = sessionManager.signToken "usr_1" sessionExpiry ∨ tok = alteredToken) := by
    intro tok enc sig text presented parts signature
    have isMac : sessionManager.mac (sessionManager.bodyOf "usr_1" sessionExpiry) = sessionMac := by
      decide +kernel
    have isSignature : sig = sessionSignature := by
      rcases presented with rfl | rfl
      · have cutThere := cut_append round.alphabet
          (sessionManager.packages.base64Encode (sessionManager.mac
            (sessionManager.bodyOf "usr_1" sessionExpiry)))
        have same := parts.symm.trans cutThere
        rw [(Prod.mk.inj (Option.some.inj same)).2, isMac]
        rfl
      · have plain : '.' ∉ "eyJzdWIiOiJ1c3JfMSIsImV4cCI6MTkwMDAwMDAwMH0".toList := by decide +kernel
        have same := parts.symm.trans (cut_append plain sessionSignature)
        exact (Prod.mk.inj (Option.some.inj same)).2
    have decoded : sessionManager.packages.base64Decode sessionSignature = some sessionMac := by
      decide +kernel
    rw [isSignature, decoded] at signature
    refine ⟨("usr_1", sessionExpiry), List.mem_singleton_self _, ?_⟩
    rw [← Option.some.inj signature, isMac]
  obtain ⟨verifies, unaltered⟩ := tokens_round_trip sessionMac_injective unforgeable
    (fun token isSigned => by rw [List.mem_singleton.mp isSigned]; exact round)
    ⟨(1600000000 + 62135596800) * 1000000000⟩ []
  refine ⟨(verifies "usr_1" sessionExpiry round).2 sessionUser (by decide +kernel) rfl, ?_⟩
  intro tok presented accepted
  obtain ⟨token, isSigned, ⟨sig, whole⟩, _⟩ := unaltered tok presented accepted
  rw [List.mem_singleton.mp isSigned, isBody] at whole
  exact ⟨sig, whole⟩

end MiniCloud.Identity
