import MiniCloud.Api.ReadOnly

/-!
# What the API writes

A request changes the contents of the store by one write at most.  The record of the write
has an ID, carries the project of the query where its kind belongs to a project, and is
named after its ID; and the request carried the token of an administrator.
-/

namespace MiniCloud.Api

open MiniCloud.Identity
open MiniCloud.Library.Text (cut trimPrefix)
open MiniCloud.State

/-- A write that the handlers ask the store for. -/
inductive Effect where
  | createUser (u : User)
  | createAPIKey (k : APIKey)
  | createProject (p : Project)
  | createWorkload (w : Workload)
  | create (kind : Kind) (item : Resource)
  | deleteObject (bucket key : String)

/-- The record belongs to the project of the query. -/
def Base.InProject (base : Base) (r : Request) : Prop :=
  base.projectID = r.query "project_id" ∧ base.projectID ≠ ""

/-- The record has an ID, which is its name too. -/
def Base.Named (base : Base) : Prop := base.id ≠ "" ∧ base.name = base.id

/-- The kinds of records that `POST` creates in a project, and those outside of projects. -/
def scopedKinds : List Kind := [.service, .deployment, .network, .volume, .secret, .configMap]

def unscopedKinds : List Kind := [.bucket, .alert]

namespace Effect

/-- The contents after the write. -/
def apply {Content : Type} (sv : Server Content) (s : Content) : Effect → Content
  | .createUser u => (sv.idm.store.createUser u s).1
  | .createAPIKey k => (sv.idm.store.createAPIKey k s).1
  | .createProject p => (sv.store.createProject p s).1
  | .createWorkload w => (sv.store.createWorkload w s).1
  | .create kind item => (sv.store.create kind item s).1
  | .deleteObject bucket key => (sv.store.deleteObject bucket key s).1

/-- What is true of the record of a write, by the request that asked for it. -/
def Asked (moment : Moment) (r : Request) : Effect → Prop
  | .createUser u =>
      r.method = "POST" ∧ u.base.id = "usr_" ++ moment.random.id ∧ u.email ≠ "" ∧
        u.base.name = u.displayName
  | .createAPIKey k =>
      r.method = "POST" ∧ k.base.id = "key_" ++ moment.random.id ∧
        k.expiresAt = moment.handledAt
  | .createProject p => r.method = "POST" ∧ Base.Named p.base ∧ p.base.projectID = ""
  | .createWorkload w => r.method = "POST" ∧ Base.Named w.base ∧ Base.InProject w.base r
  | .create kind item =>
      r.method = "POST" ∧ Base.Named item.base ∧
        (kind ∈ scopedKinds ∧ Base.InProject item.base r ∨ kind ∈ unscopedKinds)
  | .deleteObject bucket key =>
      r.method = "DELETE" ∧ cut (trimPrefix r.path "/v1/buckets/") '/' = some (bucket, key)

end Effect

section Handlers

variable {Content : Type} (sv : Server Content) (moment : Moment)

/-- The contents are unchanged, or changed by one write that the request asked for. -/
def Writes (r : Request) (s s' : Content) : Prop :=
  s' = s ∨ ∃ e : Effect, e.Asked moment r ∧ s' = e.apply sv s

variable {sv moment} {r : Request} {s : Content}

theorem writes_none : Writes sv moment r s s := .inl rfl

theorem writes_one {e : Effect} (asked : e.Asked moment r) {s' : Content} (made : s' = e.apply sv s) :
    Writes sv moment r s s' :=
  .inr ⟨e, asked, made⟩

/-- A handler that reads for `GET`, writes for `POST` and refuses everything else. -/
theorem writes_switch {get post : Outcome Content} (getKeeps : get.1 = s)
    (posts : r.method = "POST" → Writes sv moment r s post.1) :
    Writes sv moment r s
      (if r.method = "GET" then get
        else if r.method = "POST" then post
        else (s, some methodNotAllowed)).1 := by
  split
  · exact .inl getKeeps
  split
  · rename_i isPost
    exact posts isPost
  · exact writes_none

theorem writes_handleUsers : Writes sv moment r s (sv.handleUsers moment r s).1 := by
  refine writes_switch ?_ ?_
  · split
    · rfl
    · rfl
  · intro isPost
    split
    · exact writes_none
    split
    · exact writes_none
    rename_i body _ complete
    have given : body.email ≠ "" := fun empty => complete (.inl empty)
    simp only [Manager.createUser, if_neg complete]
    cases sv.idm.packages.generateFromPassword body.password with
    | error text => exact writes_none
    | ok h =>
        refine writes_one (e := .createUser ⟨⟨"usr_" ++ moment.random.id, "",
          body.displayName⟩, body.email, body.displayName, body.admin, h⟩)
          ⟨isPost, rfl, given, rfl⟩ ?_
        simp only [Effect.apply, Manager.randID]
        generalize sv.idm.store.createUser _ s = created
        obtain ⟨s', result⟩ := created
        cases result with
        | error err => rfl
        | ok stored => rfl

theorem writes_handleAPIKeys : Writes sv moment r s (sv.handleAPIKeys moment r s).1 := by
  refine writes_switch rfl ?_
  intro isPost
  split
  · exact writes_none
  rename_i body _
  refine writes_one (e := .createAPIKey ⟨⟨"key_" ++ moment.random.id, body.projectID, body.name⟩,
    sv.idm.packages.sha256 (Manager.randSecret moment.random),
    Library.Text.take (Manager.randSecret moment.random) 8, moment.handledAt.add 0⟩)
    ⟨isPost, rfl, ?_⟩ ?_
  · exact congrArg Time.mk (Int.add_zero _)
  · simp only [Effect.apply, Manager.issueAPIKey, Manager.randID]
    generalize sv.idm.store.createAPIKey _ s = created
    obtain ⟨s', result⟩ := created
    cases result with
    | error err => rfl
    | ok stored => rfl

theorem writes_handleProjects : Writes sv moment r s (sv.handleProjects r s).1 := by
  refine writes_switch rfl ?_
  intro isPost
  split
  · exact writes_none
  split
  · exact writes_none
  rename_i body _ hasID
  refine writes_one (e := .createProject ⟨⟨body.id, "", body.id⟩, body.description,
    body.quotaCPU, body.quotaMem, body.quotaObj⟩) ⟨isPost, ⟨hasID, rfl⟩, rfl⟩ ?_
  simp only [Effect.apply]
  generalize sv.store.createProject _ s = created
  obtain ⟨s', result⟩ := created
  cases result with
  | error err => rfl
  | ok stored => rfl

/-- The end of the branch for `POST`, for the write that it leads to. -/
theorem writes_createNamed {Item : Type} {base : Item → Base} {setBase : Item → Base → Item}
    {create : Item → Write Content Item} {writer : Writer Item} {item : Item} (effect : Item → Effect)
    (made : ∀ stored, (effect stored).apply sv s = (create stored s).1)
    (asked : (base item).id ≠ "" →
      (effect (setBase item { base item with name := (base item).id })).Asked moment r) :
    Writes sv moment r s (Server.createNamed base setBase create writer item s).1 := by
  unfold Server.createNamed
  split
  · exact writes_none
  rename_i hasID
  refine writes_one (asked hasID) ?_
  rw [made]
  generalize create _ s = created
  obtain ⟨s', result⟩ := created
  cases result with
  | error err => rfl
  | ok stored => rfl

theorem writes_handleWorkloads : Writes sv moment r s (sv.handleWorkloads r s).1 := by
  unfold Server.handleWorkloads
  split
  · exact writes_none
  rename_i hasProject
  refine writes_switch ?_ ?_
  · split
    · rfl
    · rfl
  · intro isPost
    split
    · exact writes_none
    exact writes_createNamed .createWorkload (fun _ => rfl)
      fun hasID => ⟨isPost, ⟨hasID, rfl⟩, rfl, hasProject⟩

theorem writes_handleScoped {kind : Kind} (inProjects : kind ∈ scopedKinds) :
    Writes sv moment r s (sv.handleScoped kind r s).1 := by
  unfold Server.handleScoped
  split
  · exact writes_none
  rename_i hasProject
  refine writes_switch rfl ?_
  intro isPost
  split
  · exact writes_none
  exact writes_createNamed (.create kind) (fun _ => rfl)
    fun hasID => ⟨isPost, ⟨hasID, rfl⟩, .inl ⟨inProjects, rfl, hasProject⟩⟩

theorem writes_handleUnscoped {kind : Kind} (outside : kind ∈ unscopedKinds) :
    Writes sv moment r s (sv.handleUnscoped kind r s).1 := by
  refine writes_switch rfl ?_
  intro isPost
  split
  · exact writes_none
  exact writes_createNamed (.create kind) (fun _ => rfl)
    fun hasID => ⟨isPost, ⟨hasID, rfl⟩, .inr outside⟩

theorem writes_handleListed (kind : Kind) : Writes sv moment r s (sv.handleListed kind r s).1 := by
  unfold Server.handleListed
  split
  · exact writes_none
  · exact writes_none

theorem writes_handleObjects : Writes sv moment r s (sv.handleObjects r s).1 := by
  unfold Server.handleObjects
  split
  · exact writes_none
  rename_i bucket key parts
  split
  · split
    · exact writes_none
    · exact writes_none
  split
  · rename_i isDelete
    refine writes_one (e := .deleteObject bucket key) ⟨isDelete, parts⟩ ?_
    simp only [Effect.apply]
    generalize sv.store.deleteObject _ _ s = deleted
    obtain ⟨s', result⟩ := deleted
    cases result with
    | error err => rfl
    | ok _ => rfl
  · exact writes_none

end Handlers

/-! ## Requests -/

/-- The request carries the token of an administrator. -/
def AsAdmin {Content : Type} (sv : Server Content) (moment : Moment) (r : Request) (s : Content) :
    Prop :=
  ∃ u, sv.idm.verifyToken moment.verifiedAt (bearer r) s = .ok u ∧ u.admin = true

section Requests

variable {Content : Type} {sv : Server Content} {moment : Moment} {r : Request} {s : Content}

theorem readOnly_of_not_asAdmin (notAdmin : ¬AsAdmin sv moment r s) : ReadOnly sv moment r s := by
  intro u verified
  cases admin : u.admin with
  | false => rfl
  | true => exact absurd ⟨u, verified, admin⟩ notAdmin

/-- The contents are unchanged, or changed by one write that an administrator asked for. -/
def Changes (sv : Server Content) (moment : Moment) (r : Request) (s s' : Content) : Prop :=
  s' = s ∨ ∃ e : Effect, AsAdmin sv moment r s ∧ e.Asked moment r ∧ s' = e.apply sv s

theorem changes_none : Changes sv moment r s s := .inl rfl

theorem changes_authRequired {h : Handler Content} (reads : Reads h)
    (writes : Writes sv moment r s (h r s).1) :
    Changes sv moment r s (sv.authRequired moment h r s).1 := by
  by_cases admin : AsAdmin sv moment r s
  · obtain ⟨u, verified, isAdmin⟩ := admin
    simp only [Server.authRequired, verified]
    split
    · exact changes_none
    · unfold Server.authorized
      split
      · exact changes_none
      · rcases writes with kept | ⟨e, asked, made⟩
        · exact .inl kept
        · exact .inr ⟨e, ⟨u, verified, isAdmin⟩, asked, made⟩
  · exact .inl (authRequired_keeps sv moment reads (readOnly_of_not_asAdmin admin))

theorem changes_routes :
    ∀ route ∈ sv.routes moment, Changes sv moment r s (route.2 r s).1 := by
  have readsLogs : Reads (Server.handleLogs : Handler Content) :=
    fun r s _ => handleFixed_keeps _ _ r s
  have writesLogs : Writes sv moment r s (Server.handleLogs r s).1 :=
    .inl (handleFixed_keeps _ _ r s)
  have ofScoped (kind : Kind) (inProjects : kind ∈ scopedKinds) :
      Changes sv moment r s (sv.authRequired moment (sv.handleScoped kind) r s).1 :=
    changes_authRequired (reads_handleScoped sv kind) (writes_handleScoped inProjects)
  have ofUnscoped (kind : Kind) (outside : kind ∈ unscopedKinds) :
      Changes sv moment r s (sv.authRequired moment (sv.handleUnscoped kind) r s).1 :=
    changes_authRequired (reads_handleUnscoped sv kind) (writes_handleUnscoped outside)
  have ofListed (kind : Kind) :
      Changes sv moment r s (sv.authRequired moment (sv.handleListed kind) r s).1 :=
    changes_authRequired (reads_handleListed sv kind) (writes_handleListed kind)
  unfold Server.routes
  simp only [List.forall_mem_cons]
  exact ⟨.inl (handleLogin_keeps sv moment r s),
    changes_authRequired (reads_handleUsers sv moment) writes_handleUsers,
    changes_authRequired (reads_handleAPIKeys sv moment) writes_handleAPIKeys,
    changes_authRequired (reads_handleProjects sv) writes_handleProjects,
    changes_authRequired (reads_handleWorkloads sv) writes_handleWorkloads,
    ofScoped .service (by decide), ofScoped .deployment (by decide), ofScoped .network (by decide),
    ofScoped .volume (by decide), ofScoped .secret (by decide), ofScoped .configMap (by decide),
    ofListed .node, ofUnscoped .bucket (by decide),
    changes_authRequired (reads_handleObjects sv) writes_handleObjects,
    .inl (handleFixed_keeps _ _ r s), changes_authRequired readsLogs writesLogs,
    ofUnscoped .alert (by decide), ofListed .model, changes_none,
    fun _ member => absurd member List.not_mem_nil⟩

theorem changes_serve : Changes sv moment r s (sv.serve moment r s).1 := by
  unfold Server.serve
  split
  · exact changes_none
  split
  · exact changes_none
  · rename_i pattern _ _ h found
    obtain ⟨before, after, isTable, _⟩ := List.lookup_eq_some_iff.mp found
    refine changes_routes (pattern, h) ?_
    rw [isTable]
    exact List.mem_append_right _ List.mem_cons_self

end Requests

/-! ## Runs -/

section Runs

variable {Content : Type} (sv : Server Content)

/-- The contents after some requests, each with its clock and random source. -/
def Server.run (calls : List (Moment × Request)) (s : Content) : Content :=
  calls.foldl (fun s call => (sv.serve call.1 call.2 s).1) s

/-- The writes of a run: for each request one that an administrator asked for, at the
contents that the request found, or none. -/
inductive History : Content → List (Moment × Request) → List Effect → Content → Prop where
  | nil (s : Content) : History s [] [] s
  | read {s s' : Content} {call : Moment × Request} {calls : List (Moment × Request)}
      {effects : List Effect} (kept : (sv.serve call.1 call.2 s).1 = s)
      (later : History s calls effects s') : History s (call :: calls) effects s'
  | write {s s' : Content} {call : Moment × Request} {calls : List (Moment × Request)}
      {effects : List Effect} {e : Effect} (admin : AsAdmin sv call.1 call.2 s)
      (asked : e.Asked call.1 call.2) (made : (sv.serve call.1 call.2 s).1 = e.apply sv s)
      (later : History (e.apply sv s) calls effects s') :
      History s (call :: calls) (e :: effects) s'

variable {sv} {s s' : Content} {calls : List (Moment × Request)} {effects : List Effect}

theorem History.replay (history : History sv s calls effects s') :
    s' = effects.foldl (fun s e => e.apply sv s) s := by
  induction history with
  | nil s => rfl
  | read _ _ ih => exact ih
  | write _ _ _ _ ih => exact ih

/-- Whatever requests the server gets, its contents are the result of replaying writes that
administrators asked for, one per request at most; every other request leaves them alone. -/
theorem run_has_history (sv : Server Content) (calls : List (Moment × Request)) (s : Content) :
    ∃ effects : List Effect, History sv s calls effects (sv.run calls s) ∧
      sv.run calls s = effects.foldl (fun s e => e.apply sv s) s := by
  suffices found : ∃ effects : List Effect, History sv s calls effects (sv.run calls s) by
    obtain ⟨effects, history⟩ := found
    exact ⟨effects, history, history.replay⟩
  induction calls generalizing s with
  | nil => exact ⟨[], .nil s⟩
  | cons call calls ih =>
      have run_cons : sv.run (call :: calls) s = sv.run calls (sv.serve call.1 call.2 s).1 := rfl
      obtain ⟨effects, history⟩ := ih (sv.serve call.1 call.2 s).1
      have changes : Changes sv call.1 call.2 s (sv.serve call.1 call.2 s).1 := changes_serve
      rcases changes with kept | ⟨e, admin, asked, made⟩
      · rw [kept] at history run_cons
        exact ⟨effects, run_cons ▸ .read kept history⟩
      · rw [made] at history run_cons
        exact ⟨e :: effects, run_cons ▸ .write admin asked made history⟩

end Runs

end MiniCloud.Api
