import MiniCloud.Library.Layers
import MiniCloud.State.Records

/-!
# The environment of a workload

`ResolveEnv` writes the data of config maps and of decrypted secrets over the variables that
a workload declares.  What the store and the opening of a sealed text answer is given from
outside, for each call on its own.
-/

namespace MiniCloud.Config

open MiniCloud.Library
open MiniCloud.State (Labels StoreError)

abbrev Bytes := List UInt8

/-! ## Sealed secrets -/

/-- The AEAD of a key: `Open` without additional data, for a nonce. -/
structure Gcm where
  nonceSize : Nat
  openWith : Bytes → Bytes → Option Bytes

structure Cipher where
  gcm : Gcm

def Cipher.decrypt (c : Cipher) (ct nonce : Bytes) : Except String Bytes :=
  if nonce.length ≠ c.gcm.nonceSize then .error "secret: ciphertext too short"
  else
    match c.gcm.openWith nonce ct with
    | none => .error "secret: decrypt failed"
    | some plaintext => .ok plaintext

/-! ## The resolver -/

structure ConfigMap where
  data : Labels

structure Secret where
  ciphertext : Bytes
  nonce : Bytes

/-- The fields of a workload that the resolver reads. -/
structure Workload where
  projectID : String
  env : Labels
  configMapRefs : List String
  secretRefs : List String

structure Resolver where
  /-- The calls of `GetConfigMap` and `GetSecret` by their number, for a project and a name. -/
  getConfigMap : Nat → String → String → Except StoreError ConfigMap
  getSecret : Nat → String → String → Except StoreError Secret
  cipher : Cipher
  /-- `json.Unmarshal` into a map of strings. -/
  unmarshal : Bytes → Except String Labels

namespace Resolver

variable (r : Resolver) (w : Workload)

/-- The variables of a config map, read by the given call. -/
def configMap (name : String) (call : Nat) : Except String Labels :=
  match r.getConfigMap call w.projectID name with
  | .error err => .error ("config: configmap " ++ name ++ ": " ++ err.message)
  | .ok cm => .ok cm.data

/-- The variables of a secret, read by the given call. -/
def secret (name : String) (call : Nat) : Except String Labels :=
  match r.getSecret call w.projectID name with
  | .error err => .error ("config: secret " ++ name ++ ": " ++ err.message)
  | .ok sec =>
      match r.cipher.decrypt sec.ciphertext sec.nonce with
      | .error err => .error ("config: decrypt " ++ name ++ ": " ++ err)
      | .ok plaintext =>
          match r.unmarshal plaintext with
          | .error err => .error ("config: decode " ++ name ++ ": " ++ err)
          | .ok m => .ok m

def resolveEnv : Except String Labels := do
  let out ← w.configMapRefs.zipIdx.foldlM
    (fun out ref => (r.configMap w ref.1 ref.2).map (overlay out)) (overlay ∅ w.env)
  w.secretRefs.zipIdx.foldlM (fun out ref => (r.secret w ref.1 ref.2).map (overlay out)) out

/-- What the references of a workload lead to, in the order in which they are read. -/
def sources : List (Except String Labels) :=
  w.configMapRefs.zipIdx.map (fun ref => r.configMap w ref.1 ref.2) ++
    w.secretRefs.zipIdx.map fun ref => r.secret w ref.1 ref.2

theorem resolveEnv_eq_layered : r.resolveEnv w = layered (overlay ∅ w.env) (r.sources w) := by
  rw [resolveEnv, layered, sources, List.foldlM_append, List.foldlM_map]
  simp only [List.foldlM_map]

variable {r w}

theorem lookup_of_layers {layers : List Labels} (read : r.sources w = layers.map .ok) :
    ∃ out, r.resolveEnv w = .ok out ∧
      ∀ key, out.lookup key = (topmost layers key).or (w.env.lookup key) := by
  rw [resolveEnv_eq_layered, read, layered_ok]
  refine ⟨_, rfl, ?_⟩
  intro key
  rw [lookup_foldl_overlay, topmost_cons, lookup_overlay, AList.lookup_empty, Option.or_none]

/-- The error of `ResolveEnv` is that of the first reference that fails, config maps before
secrets.  Without a failure every variable has the value of the last secret that holds it,
or else of the last config map, or else the declared one. -/
theorem environment_of_sources :
    (∀ err, r.resolveEnv w = .error err ↔
      ∃ (layers : List Labels) (later : List (Except String Labels)),
        r.sources w = layers.map .ok ++ .error err :: later) ∧
      ∀ out, r.resolveEnv w = .ok out →
        ∃ layers : List Labels, r.sources w = layers.map .ok ∧
          ∀ key, out.lookup key = (topmost layers key).or (w.env.lookup key) := by
  constructor
  · intro err
    rw [resolveEnv_eq_layered]
    exact layered_eq_error_iff
  · intro out resolved
    rw [resolveEnv_eq_layered] at resolved
    obtain ⟨layers, read⟩ := layers_of_layered resolved
    obtain ⟨built, isBuilt, values⟩ := lookup_of_layers read
    rw [resolveEnv_eq_layered, resolved] at isBuilt
    cases isBuilt
    exact ⟨layers, read, values⟩

end Resolver

end MiniCloud.Config
