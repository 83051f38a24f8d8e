import MiniCloud.State.Records

/-!
# The methods of the store

The methods of `state.Store` that the API and the identity manager call, over an
arbitrary type of contents.  The package `state` is not part of the repository: of
a read it is assumed that it leaves the contents as they are, and nothing is assumed
of a write.
-/

namespace MiniCloud.State

/-- A point in time, in nanoseconds since the zero time of the year 1. -/
structure Time where
  ns : Int
  deriving DecidableEq, Repr

namespace Time

def isZero (t : Time) : Bool := t.ns = 0

def after (t u : Time) : Bool := u.ns < t.ns

/-- A duration is in nanoseconds. -/
def add (t : Time) (duration : Int) : Time := ⟨t.ns + duration⟩

/-- The whole seconds since the year 1970. -/
def unix (t : Time) : Int := t.ns / 1000000000 - 62135596800

/-- The duration between two points, cut off at the limits of `time.Duration`. -/
def sub (t u : Time) : Int := max (-9223372036854775808) (min 9223372036854775807 (t.ns - u.ns))

/-- Of points in their order the cut at the limits changes no comparison. -/
theorem le_sub_iff {t u : Time} (ordered : u.ns ≤ t.ns) (duration : Int64) :
    duration.toInt ≤ t.sub u ↔ duration.toInt ≤ t.ns - u.ns := by
  have below := duration.toInt_lt
  unfold sub
  omega

end Time

structure User where
  base : Base
  email : String
  displayName : String
  admin : Bool
  passwordBcrypt : String
  deriving DecidableEq, Repr

/-- The zero value. -/
def User.zero : User := ⟨⟨"", "", ""⟩, "", "", false, ""⟩

structure APIKey where
  base : Base
  hash : String
  keyPrefix : String
  expiresAt : Time
  deriving DecidableEq, Repr

structure Project where
  base : Base
  description : String
  quotaCPU : Int64
  quotaMem : Int64
  quotaObj : Int64

/-- The kinds of records that the API passes on without looking into them. -/
inductive Kind where
  | service
  | deployment
  | network
  | volume
  | secret
  | configMap
  | node
  | bucket
  | object
  | alert
  | model
  deriving DecidableEq, Repr

/-- A record of such a kind: what the API reads and writes, and the rest. -/
structure Resource where
  base : Base
  content : String
  deriving DecidableEq, Repr

/-- A list comes with an error, and some callers drop the error. -/
abbrev Listing (Item : Type) := List Item × Option StoreError

/-- A write changes the contents and returns the record as it was stored. -/
abbrev Write (Content Item : Type) := Content → Content × Except StoreError Item

structure Methods (Content : Type) where
  findUserByEmail : String → Content → Except StoreError User
  getUser : String → Content → Except StoreError User
  listUsers : Content → Listing User
  createUser : User → Write Content User
  listAPIKeys : Content → Listing APIKey
  createAPIKey : APIKey → Write Content APIKey
  listProjects : Content → Listing Project
  createProject : Project → Write Content Project
  listWorkloads : String → Content → Listing Workload
  createWorkload : Workload → Write Content Workload
  /-- `ListServices` and so on, for a project. -/
  listIn : Kind → String → Content → Listing Resource
  /-- `ListNodes` and so on. -/
  listAll : Kind → Content → Listing Resource
  /-- `CreateService` and so on. -/
  create : Kind → Resource → Write Content Resource
  getObject : String → String → Content → Except StoreError Resource
  deleteObject : String → String → Write Content Unit

/-- A store that holds nothing and forgets what it is given. -/
def Methods.idle (Content : Type) : Methods Content where
  findUserByEmail := fun _ _ => .error ⟨"not found"⟩
  getUser := fun _ _ => .error ⟨"not found"⟩
  listUsers := fun _ => ([], none)
  createUser := fun u s => (s, .ok u)
  listAPIKeys := fun _ => ([], none)
  createAPIKey := fun k s => (s, .ok k)
  listProjects := fun _ => ([], none)
  createProject := fun p s => (s, .ok p)
  listWorkloads := fun _ _ => ([], none)
  createWorkload := fun w s => (s, .ok w)
  listIn := fun _ _ _ => ([], none)
  listAll := fun _ _ => ([], none)
  create := fun _ item s => (s, .ok item)
  getObject := fun _ _ _ => .error ⟨"not found"⟩
  deleteObject := fun _ _ s => (s, .ok ())

end MiniCloud.State
