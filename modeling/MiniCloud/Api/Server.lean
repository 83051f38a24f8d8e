import MiniCloud.Identity.Manager

/-!
# The HTTP API

The routes of the server with their handlers.  A handler is a function from the
request and the contents of the store to the new contents and the response; no
response is a panic, after which the connection is closed.  The choice of a route by
the multiplexer of `net/http`, the parsing of headers and queries, and the JSON
encodings are parameters.
-/

namespace MiniCloud.Api

open MiniCloud.Identity
open MiniCloud.Library.Text
open MiniCloud.State

structure Request where
  method : String
  path : String
  /-- `r.URL.Query().Get`. -/
  query : String → String
  /-- `r.Header.Get`. -/
  header : String → String
  /-- `r.Cookie`. -/
  cookie : String → Option String
  body : String

structure Response where
  status : Nat
  contentType : String
  body : String
  deriving DecidableEq, Repr

/-- What a request leads to: the contents of the store, and the response if there is
no panic. -/
abbrev Outcome (Content : Type) := Content × Option Response

abbrev Handler (Content : Type) := Request → Content → Outcome Content

structure LoginReq where
  email : String
  password : String

structure UserReq where
  email : String
  displayName : String
  password : String
  admin : Bool

structure APIKeyReq where
  userID : String
  projectID : String
  name : String

structure ProjectReq where
  id : String
  description : String
  quotaCPU : Int64
  quotaMem : Int64
  quotaObj : Int64

/-- `readJSON` for a type, with the text of its error. -/
abbrev Reader (Item : Type) := String → Except String Item

/-- What `writeJSON` writes for a record and for a list. -/
structure Writer (Item : Type) where
  one : Item → String
  list : List Item → String

structure Encoding where
  readLogin : Reader LoginReq
  readUser : Reader UserReq
  readAPIKey : Reader APIKeyReq
  readProject : Reader ProjectReq
  readWorkload : Reader Workload
  readResource : Kind → Reader Resource
  /-- The map with the key `token`. -/
  writeToken : String → String
  /-- The map with the keys `id` and `secret`. -/
  writeSecret : String → String → String
  users : Writer User
  apiKeys : Writer APIKey
  projects : Writer Project
  workloads : Writer Workload
  resources : Kind → Writer Resource

/-- The clock and the random source during a request. -/
structure Moment where
  /-- What `VerifyToken`, `AuthAPIKey` and the handler read. -/
  verifiedAt : Time
  authenticatedAt : Time
  handledAt : Time
  random : Random

structure Server (Content : Type) where
  store : Methods Content
  idm : Manager Content
  json : Encoding
  /-- The pattern that the multiplexer selects for a request, or its own response: not
  found, or a redirect to the cleaned path. -/
  mux : List String → Request → Except Response String

/-! ## Shared helpers -/

def httpError (text : String) (code : Nat) : Response :=
  ⟨code, "text/plain; charset=utf-8", text ++ "\n"⟩

def writeJSON (code : Nat) (text : String) : Response := ⟨code, "application/json", text⟩

def methodNotAllowed : Response := httpError "method not allowed" 405

def verbFor (method : String) : String :=
  if method = "GET" then "get"
  else if method = "POST" then "create"
  else if method = "PUT" then "update"
  else if method = "DELETE" then "delete"
  else "get"

def resourceFor (r : Request) : String :=
  if (split (trim r.path '/') '/').length < 3 then r.path else trimPrefix r.path "/v1/"

def bearer (r : Request) : String :=
  if hasPrefix (r.header "Authorization") "Bearer " then
    trimPrefix (r.header "Authorization") "Bearer "
  else
    match r.cookie "cloud_session" with
    | some value => value
    | none => ""

namespace Server

variable {Content : Type} (sv : Server Content) (moment : Moment)

/-- The check of the permission, for a user or for the user made of an API key. -/
def authorized (h : Handler Content) (u : User) : Handler Content := fun r s =>
  match authorize (some u) (verbFor r.method) (resourceFor r) with
  | .error _ => (s, some (httpError "forbidden" 403))
  | .ok _ => h r s

def authRequired (h : Handler Content) : Handler Content := fun r s =>
  if bearer r = "" then (s, some (httpError "missing token" 401))
  else
    match sv.idm.verifyToken moment.verifiedAt (bearer r) s with
    | .ok u => authorized h u r s
    | .error err =>
        match sv.idm.authAPIKey moment.authenticatedAt (bearer r) s with
        | none => (s, none)
        | some (.error _) => (s, some (httpError err.message 401))
        | some (.ok k) =>
            authorized h { User.zero with base := { User.zero.base with id := k.base.id } } r s

/-! ## Identity handlers -/

def handleLogin : Handler Content := fun r s =>
  if r.method ≠ "POST" then (s, some methodNotAllowed)
  else
    match sv.json.readLogin r.body with
    | .error text => (s, some (httpError text 400))
    | .ok body =>
        match sv.idm.login moment.handledAt body.email body.password s with
        | .error err => (s, some (httpError err.message 401))
        | .ok (tok, _, _) => (s, some (writeJSON 200 (sv.json.writeToken tok)))

def handleUsers : Handler Content := fun r s =>
  if r.method = "GET" then
    match sv.store.listUsers s with
    | (_, some err) => (s, some (httpError err.message 500))
    | (users, none) => (s, some (writeJSON 200 (sv.json.users.list users)))
  else if r.method = "POST" then
    match sv.json.readUser r.body with
    | .error text => (s, some (httpError text 400))
    | .ok body =>
        if body.email = "" ∨ body.password = "" then
          (s, some (httpError "email/password required" 400))
        else
          match sv.idm.createUser moment.random body.email body.password body.displayName
            body.admin s with
          | (s', .error err) => (s', some (httpError err.message 400))
          | (s', .ok u) => (s', some (writeJSON 201 (sv.json.users.one u)))
  else (s, some methodNotAllowed)

def handleAPIKeys : Handler Content := fun r s =>
  if r.method = "GET" then
    (s, some (writeJSON 200 (sv.json.apiKeys.list (sv.store.listAPIKeys s).1)))
  else if r.method = "POST" then
    match sv.json.readAPIKey r.body with
    | .error text => (s, some (httpError text 400))
    | .ok body =>
        match sv.idm.issueAPIKey moment.handledAt moment.random body.projectID body.name 0 s with
        | (s', .error err) => (s', some (httpError err.message 400))
        | (s', .ok (k, secret)) =>
            (s', some (writeJSON 201 (sv.json.writeSecret k.base.id secret)))
  else (s, some methodNotAllowed)

def handleProjects : Handler Content := fun r s =>
  if r.method = "GET" then
    (s, some (writeJSON 200 (sv.json.projects.list (sv.store.listProjects s).1)))
  else if r.method = "POST" then
    match sv.json.readProject r.body with
    | .error text => (s, some (httpError text 400))
    | .ok body =>
        if body.id = "" then (s, some (httpError "id required" 400))
        else
          let p : Project :=
            { base := ⟨body.id, "", body.id⟩
              description := body.description
              quotaCPU := body.quotaCPU
              quotaMem := body.quotaMem
              quotaObj := body.quotaObj }
          match sv.store.createProject p s with
          | (s', .error err) => (s', some (httpError err.message 409))
          | (s', .ok stored) => (s', some (writeJSON 201 (sv.json.projects.one stored)))
  else (s, some methodNotAllowed)

/-! ## Resource handlers -/

/-- The end of the branch for `POST`: the record gets its ID as its name and is stored. -/
def createNamed {Item : Type} (base : Item → Base) (setBase : Item → Base → Item)
    (create : Item → Write Content Item) (writer : Writer Item) (item : Item) (s : Content) :
    Outcome Content :=
  if (base item).id = "" then (s, some (httpError "id required" 400))
  else
    match create (setBase item { base item with name := (base item).id }) s with
    | (s', .error err) => (s', some (httpError err.message 409))
    | (s', .ok stored) => (s', some (writeJSON 201 (writer.one stored)))

def createResource (kind : Kind) (item : Resource) (s : Content) : Outcome Content :=
  createNamed Resource.base (fun item base => { item with base := base }) (sv.store.create kind)
    (sv.json.resources kind) item s

/-- The workloads differ from the other kinds: a failed list is reported. -/
def handleWorkloads : Handler Content := fun r s =>
  if r.query "project_id" = "" then (s, some (httpError "project_id required" 400))
  else if r.method = "GET" then
    match sv.store.listWorkloads (r.query "project_id") s with
    | (_, some err) => (s, some (httpError err.message 500))
    | (ws, none) => (s, some (writeJSON 200 (sv.json.workloads.list ws)))
  else if r.method = "POST" then
    match sv.json.readWorkload r.body with
    | .error text => (s, some (httpError text 400))
    | .ok w0 =>
        createNamed Workload.base (fun w base => { w with base := base }) sv.store.createWorkload
          sv.json.workloads { w0 with base := { w0.base with projectID := r.query "project_id" } } s
  else (s, some methodNotAllowed)

/-- The handler of a kind of resource that belongs to a project. -/
def handleScoped (kind : Kind) : Handler Content := fun r s =>
  if r.query "project_id" = "" then (s, some (httpError "project_id required" 400))
  else if r.method = "GET" then
    (s, some (writeJSON 200
      ((sv.json.resources kind).list (sv.store.listIn kind (r.query "project_id") s).1)))
  else if r.method = "POST" then
    match sv.json.readResource kind r.body with
    | .error text => (s, some (httpError text 400))
    | .ok item =>
        sv.createResource kind
          { item with base := { item.base with projectID := r.query "project_id" } } s
  else (s, some methodNotAllowed)

def handleServices : Handler Content := sv.handleScoped .service
def handleDeployments : Handler Content := sv.handleScoped .deployment
def handleNetworks : Handler Content := sv.handleScoped .network
def handleVolumes : Handler Content := sv.handleScoped .volume
def handleSecrets : Handler Content := sv.handleScoped .secret
def handleConfigMaps : Handler Content := sv.handleScoped .configMap

/-- The handler of a kind of resource without a project. -/
def handleUnscoped (kind : Kind) : Handler Content := fun r s =>
  if r.method = "GET" then
    (s, some (writeJSON 200 ((sv.json.resources kind).list (sv.store.listAll kind s).1)))
  else if r.method = "POST" then
    match sv.json.readResource kind r.body with
    | .error text => (s, some (httpError text 400))
    | .ok item => sv.createResource kind item s
  else (s, some methodNotAllowed)

def handleBuckets : Handler Content := sv.handleUnscoped .bucket
def handleAlerts : Handler Content := sv.handleUnscoped .alert

/-- The handler of a kind of resource that can only be listed. -/
def handleListed (kind : Kind) : Handler Content := fun r s =>
  if r.method = "GET" then
    (s, some (writeJSON 200 ((sv.json.resources kind).list (sv.store.listAll kind s).1)))
  else (s, some methodNotAllowed)

def handleNodes : Handler Content := sv.handleListed .node
def handleModels : Handler Content := sv.handleListed .model

/-- `/v1/buckets/{bucket}/{key...}`. -/
def handleObjects : Handler Content := fun r s =>
  match cut (trimPrefix r.path "/v1/buckets/") '/' with
  | none => (s, some (httpError "bucket/key required" 400))
  | some (bucket, key) =>
      if r.method = "GET" then
        match sv.store.getObject bucket key s with
        | .error err => (s, some (httpError err.message 404))
        | .ok obj => (s, some (writeJSON 200 ((sv.json.resources .object).one obj)))
      else if r.method = "DELETE" then
        match sv.store.deleteObject bucket key s with
        | (s', .error err) => (s', some (httpError err.message 500))
        | (s', .ok _) => (s', some ⟨204, "", ""⟩)
      else (s, some methodNotAllowed)

/-! ## Observability -/

/-- A handler with a fixed answer. -/
def handleFixed (contentType body : String) : Handler Content := fun r s =>
  if r.method ≠ "GET" then (s, some methodNotAllowed) else (s, some ⟨200, contentType, body⟩)

def handleMetrics : Handler Content :=
  handleFixed "text/plain; version=0.0.4" "# metrics are exposed by /v1/metrics/exposition\n"

def handleLogs : Handler Content := handleFixed "text/plain; charset=utf-8" "[]"

def handleHealth : Handler Content := fun _ s => (s, some ⟨200, "text/plain; charset=utf-8", "ok"⟩)

/-! ## Routes -/

def routes : List (String × Handler Content) :=
  [("/v1/login", sv.handleLogin moment),
    ("/v1/users", sv.authRequired moment (sv.handleUsers moment)),
    ("/v1/apikeys", sv.authRequired moment (sv.handleAPIKeys moment)),
    ("/v1/projects", sv.authRequired moment sv.handleProjects),
    ("/v1/workloads", sv.authRequired moment sv.handleWorkloads),
    ("/v1/services", sv.authRequired moment sv.handleServices),
    ("/v1/deployments", sv.authRequired moment sv.handleDeployments),
    ("/v1/networks", sv.authRequired moment sv.handleNetworks),
    ("/v1/volumes", sv.authRequired moment sv.handleVolumes),
    ("/v1/secrets", sv.authRequired moment sv.handleSecrets),
    ("/v1/configmaps", sv.authRequired moment sv.handleConfigMaps),
    ("/v1/nodes", sv.authRequired moment sv.handleNodes),
    ("/v1/buckets", sv.authRequired moment sv.handleBuckets),
    ("/v1/buckets/", sv.authRequired moment sv.handleObjects),
    ("/v1/metrics", handleMetrics),
    ("/v1/logs", sv.authRequired moment handleLogs),
    ("/v1/alerts", sv.authRequired moment sv.handleAlerts),
    ("/v1/models", sv.authRequired moment sv.handleModels),
    ("/healthz", handleHealth)]

/-- A request to the handler that `Routes` returns. -/
def serve : Handler Content := fun r s =>
  match sv.mux ((sv.routes moment).map Prod.fst) r with
  | .error response => (s, some response)
  | .ok pattern =>
      match (sv.routes moment).lookup pattern with
      | none => (s, some (httpError "404 page not found" 404))
      | some h => h r s

end Server

end MiniCloud.Api
