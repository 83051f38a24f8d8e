import MiniCloud.Api.Server
import MiniCloud.Identity.Sessions

/-!
# Requests that cannot write

Two decisions are made on the method of a request: `verbFor` chooses the permission
that is asked for, and the handler chooses what it does.  A method that the first
takes for a read is never one for which the second writes, so whoever is no
administrator leaves the contents of the store as they are.
-/

namespace MiniCloud.Api

open MiniCloud.Identity
open MiniCloud.State

/-- The handler writes nothing for a method whose verb is `get`. -/
def Reads {Content : Type} (h : Handler Content) : Prop :=
  ∀ r s, verbFor r.method = "get" → (h r s).1 = s

/-- The request is not authenticated as an administrator: there is no token, or it is not
valid, or it is the token of another user or an API key. -/
def ReadOnly {Content : Type} (sv : Server Content) (moment : Moment) (r : Request)
    (s : Content) : Prop :=
  ∀ u, sv.idm.verifyToken moment.verifiedAt (bearer r) s = .ok u → u.admin = false

theorem not_written {method : String} (reads : verbFor method = "get") :
    method ≠ "POST" ∧ method ≠ "DELETE" := by
  constructor
  · rintro rfl
    revert reads
    decide
  · rintro rfl
    revert reads
    decide

theorem verbFor_ne_list (method : String) : verbFor method ≠ "list" := by
  unfold verbFor
  split
  · decide
  split
  · decide
  split
  · decide
  split
  · decide
  · decide

section Handlers

variable {Content : Type} (sv : Server Content) (moment : Moment)

/-- A handler that reads for `GET`, acts for `POST` and refuses everything else. -/
theorem reads_switch {get post : Handler Content} (getKeeps : ∀ r s, (get r s).1 = s) :
    Reads fun r s =>
      if r.method = "GET" then get r s
      else if r.method = "POST" then post r s
      else (s, some methodNotAllowed) := by
  intro r s reads
  have notPost := (not_written reads).1
  change (if r.method = "GET" then get r s else _).1 = s
  by_cases isGet : r.method = "GET"
  · rw [if_pos isGet]
    exact getKeeps r s
  · rw [if_neg isGet, if_neg notPost]

/-- The same behind a check of the query. -/
theorem reads_checked {missing : Request → Prop} [∀ r, Decidable (missing r)] {text : String}
    {code : Nat} {h : Handler Content} (reads : Reads h) :
    Reads fun r s => if missing r then (s, some (httpError text code)) else h r s := by
  intro r s isGet
  change (if missing r then _ else h r s).1 = s
  by_cases isMissing : missing r
  · rw [if_pos isMissing]
  · rw [if_neg isMissing]
    exact reads r s isGet

theorem reads_handleUsers : Reads (sv.handleUsers moment) := by
  refine reads_switch ?_
  intro r s
  cases sv.store.listUsers s with
  | mk users failure =>
      cases failure with
      | none => rfl
      | some err => rfl

theorem reads_handleAPIKeys : Reads (sv.handleAPIKeys moment) := reads_switch fun _ _ => rfl

theorem reads_handleProjects : Reads sv.handleProjects := reads_switch fun _ _ => rfl

theorem reads_handleWorkloads : Reads sv.handleWorkloads := by
  refine reads_checked (reads_switch ?_)
  intro r s
  cases sv.store.listWorkloads (r.query "project_id") s with
  | mk ws failure =>
      cases failure with
      | none => rfl
      | some err => rfl

theorem reads_handleScoped (kind : Kind) : Reads (sv.handleScoped kind) :=
  reads_checked (reads_switch fun _ _ => rfl)

theorem reads_handleUnscoped (kind : Kind) : Reads (sv.handleUnscoped kind) :=
  reads_switch fun _ _ => rfl

theorem reads_handleListed (kind : Kind) : Reads (sv.handleListed kind) := by
  intro r s _
  unfold Server.handleListed
  split
  · rfl
  · rfl

theorem reads_handleObjects : Reads sv.handleObjects := by
  intro r s reads
  have notDelete := (not_written reads).2
  unfold Server.handleObjects
  cases Library.Text.cut (Library.Text.trimPrefix r.path "/v1/buckets/") '/' with
  | none => rfl
  | some parts =>
      by_cases isGet : r.method = "GET"
      · simp only [if_pos isGet]
        cases sv.store.getObject parts.1 parts.2 s with
        | error err => rfl
        | ok obj => rfl
      · simp only [if_neg isGet, if_neg notDelete]

/-- A handler with a fixed answer writes for no method. -/
theorem handleFixed_keeps (contentType body : String) (r : Request) (s : Content) :
    (Server.handleFixed contentType body r s).1 = s := by
  unfold Server.handleFixed
  split
  · rfl
  · rfl

theorem handleLogin_keeps (r : Request) (s : Content) : (sv.handleLogin moment r s).1 = s := by
  unfold Server.handleLogin
  split
  · rfl
  · cases sv.json.readLogin r.body with
    | error text => rfl
    | ok body =>
        cases login : sv.idm.login moment.handledAt body.email body.password s with
        | error err => simp only [login]
        | ok session => simp only [login]

theorem authorized_keeps {h : Handler Content} (reads : Reads h) {u : User}
    (notAdmin : u.admin = false) (r : Request) (s : Content) : (Server.authorized h u r s).1 = s := by
  unfold Server.authorized
  cases allowed : authorize (some u) (verbFor r.method) (resourceFor r) with
  | error err => rfl
  | ok _ =>
      have verb := authorize_viewer notAdmin allowed
      exact reads r s (verb.resolve_right (verbFor_ne_list r.method))

/-- Without an administrator, a handler behind `authRequired` is not called or only reads. -/
theorem authRequired_keeps {h : Handler Content} (reads : Reads h) {r : Request} {s : Content}
    (readOnly : ReadOnly sv moment r s) : (sv.authRequired moment h r s).1 = s := by
  unfold Server.authRequired
  by_cases missing : bearer r = ""
  · rw [if_pos missing]
  · rw [if_neg missing]
    cases verified : sv.idm.verifyToken moment.verifiedAt (bearer r) s with
    | ok u => exact authorized_keeps reads (readOnly u verified) r s
    | error err =>
        cases sv.idm.authAPIKey moment.authenticatedAt (bearer r) s with
        | none => rfl
        | some result =>
            cases result with
            | error _ => rfl
            | ok k => exact authorized_keeps reads rfl r s

theorem routes_keep {r : Request} {s : Content} (readOnly : ReadOnly sv moment r s) :
    ∀ route ∈ sv.routes moment, (route.2 r s).1 = s := by
  have behind {h : Handler Content} (reads : Reads h) : (sv.authRequired moment h r s).1 = s :=
    authRequired_keeps sv moment reads readOnly
  have reads_handleLogs : Reads (Server.handleLogs : Handler Content) :=
    fun r s _ => handleFixed_keeps _ _ r s
  unfold Server.routes
  simp only [List.forall_mem_cons]
  exact ⟨handleLogin_keeps sv moment r s, behind (reads_handleUsers sv moment),
    behind (reads_handleAPIKeys sv moment), behind (reads_handleProjects sv),
    behind (reads_handleWorkloads sv), behind (reads_handleScoped sv _),
    behind (reads_handleScoped sv _), behind (reads_handleScoped sv _),
    behind (reads_handleScoped sv _), behind (reads_handleScoped sv _),
    behind (reads_handleScoped sv _), behind (reads_handleListed sv _),
    behind (reads_handleUnscoped sv _), behind (reads_handleObjects sv),
    handleFixed_keeps _ _ r s, behind reads_handleLogs, behind (reads_handleUnscoped sv _),
    behind (reads_handleListed sv _), rfl, fun _ member => absurd member List.not_mem_nil⟩

end Handlers

/-- A request that is not authenticated as an administrator leaves the contents of the
store as they are, whatever its method, path, query, headers and body are and
whichever route the multiplexer selects. -/
theorem read_only_keeps_contents {Content : Type} (sv : Server Content) (moment : Moment)
    (r : Request) (s : Content) (readOnly : ReadOnly sv moment r s) :
    (sv.serve moment r s).1 = s := by
  unfold Server.serve
  cases sv.mux ((sv.routes moment).map Prod.fst) r with
  | error response => rfl
  | ok pattern =>
      cases found : (sv.routes moment).lookup pattern with
      | none => simp only [found]
      | some h =>
          obtain ⟨before, after, isTable, _⟩ := List.lookup_eq_some_iff.mp found
          have member : (pattern, h) ∈ sv.routes moment := by
            rw [isTable]
            exact List.mem_append_right _ List.mem_cons_self
          simp only [found]
          exact routes_keep sv moment readOnly _ member

/-! ## A server with one user and one API key -/

/-- The contents are the IDs of the projects; there is one user, an administrator, and one
API key. -/
def sampleStore : Methods (List String) :=
  { Methods.idle (List String) with
    getUser := fun id _ =>
      if id = "usr_1" then .ok { sessionUser with admin := true } else .error ⟨"not found"⟩
    listAPIKeys := fun _ => ([zeroKey], none)
    createProject := fun p s => (p.base.id :: s, .ok p) }

/-- The JSON of a request for a project; the lists are not looked at below. -/
def sampleEncoding : Encoding where
  readLogin := fun _ => .error "EOF"
  readUser := fun _ => .error "EOF"
  readAPIKey := fun _ => .error "EOF"
  readProject := fun body =>
    if body = "\x7b\"id\":\"q\"\x7d" then .ok ⟨"q", "", 0, 0, 0⟩ else .error "EOF"
  readWorkload := fun _ => .error "EOF"
  readResource := fun _ _ => .error "EOF"
  writeToken := fun tok => "\x7b\"token\":\"" ++ tok ++ "\"\x7d\n"
  writeSecret := fun id secret =>
    "\x7b\"id\":\"" ++ id ++ "\",\"secret\":\"" ++ secret ++ "\"\x7d\n"
  users := ⟨fun _ => "", fun _ => ""⟩
  apiKeys := ⟨fun _ => "", fun _ => ""⟩
  projects := ⟨fun _ => "", fun _ => ""⟩
  workloads := ⟨fun _ => "", fun _ => ""⟩
  resources := fun _ => ⟨fun _ => "", fun _ => ""⟩

def sampleServer : Server (List String) where
  store := sampleStore
  idm := ⟨sampleStore, "secret", sessionPackages⟩
  json := sampleEncoding
  mux := fun _ r => .ok r.path

def sampleMoment : Moment where
  verifiedAt := ⟨0⟩
  authenticatedAt := ⟨0⟩
  handledAt := ⟨0⟩
  random := zeroRandom

/-- The request to create the project `q` with a token. -/
def createProjectWith (token : String) : Request where
  method := "POST"
  path := "/v1/projects"
  query := fun _ => ""
  header := fun name => if name = "Authorization" then "Bearer " ++ token else ""
  cookie := fun _ => none
  body := "\x7b\"id\":\"q\"\x7d"

/-- The API key is accepted, and the request is refused. -/
theorem read_only_keeps_projects :
    ((sampleServer.serve sampleMoment (createProjectWith (Manager.randSecret zeroRandom))
      ["p"]).2.map Response.status) = some 403 ∧
    (sampleServer.serve sampleMoment (createProjectWith (Manager.randSecret zeroRandom))
      ["p"]).1 = ["p"] := by
  refine ⟨by decide +kernel, ?_⟩
  refine read_only_keeps_contents sampleServer sampleMoment
    (createProjectWith (Manager.randSecret zeroRandom)) ["p"] ?_
  intro u verified
  have malformed : sampleServer.idm.verifyToken sampleMoment.verifiedAt
      (bearer (createProjectWith (Manager.randSecret zeroRandom))) ["p"] =
        .error .tokenMalformed := by rfl
  rw [malformed] at verified
  cases verified

/-- The administrator creates the project. -/
example : (sampleServer.serve sampleMoment
    (createProjectWith (sampleServer.idm.signToken "usr_1" sessionExpiry)) ["p"]).1 = ["q", "p"] := by
  decide +kernel

end MiniCloud.Api
