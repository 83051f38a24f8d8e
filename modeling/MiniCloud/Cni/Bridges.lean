import Mathlib.Data.List.AList
import Mathlib.Data.List.Induction
import MiniCloud.Library.Text
import MiniCloud.State.Records

/-!
# The bridges of projects

`Ensure` names the bridge of a network by an abbreviation of the network's ID, and
`Attach` plugs a container into the bridge that is recorded for its project; the interface
is named by an abbreviation of the container's ID.  An abbreviation keeps six bytes.
Projects are kept apart exactly as long as the abbreviations of their networks are, and as
no container is attached under the interface of another project's.  Dashes are left out
after the length has been tested, so an ID with too many of them makes a call panic.
-/

namespace MiniCloud.Cni

open MiniCloud.Library

/-! ## The manager -/

/-- The network of the state, as far as `Ensure` reads it. -/
structure StateNetwork where
  base : State.Base
  cidr : String

structure Network where
  name : String
  cidr : String
  gateway : String
  bridge : String
  deriving DecidableEq, Repr

/-- The networks by project. -/
structure Manager where
  networks : AList fun _ : String => Network

def newManager : Manager := ⟨∅⟩

/-- A program with its arguments. -/
abbrev Command := List String

/-- A text of fewer than six bytes is kept; slicing a longer one panics when fewer than
six bytes are left without the dashes. -/
def shortID (s : String) : Option String :=
  if s.toList.length < 6 then some s
  else Text.sliceTo (String.ofList (s.toList.filter fun c => c != '-')) 6

/-- `SplitN` returns at least one part, so the error branch of the source is not taken. -/
def firstIP (cidr : String) : String :=
  match Text.cut cidr '/' with
  | some (address, _) => address
  | none => cidr

/-- The record of a network. -/
def networkOf (n : StateNetwork) : Option Network :=
  (shortID n.base.id).map fun short =>
    { name := n.base.name, cidr := n.cidr, gateway := firstIP n.cidr, bridge := "cbr-" ++ short }

/-- The manager after `Ensure` and the commands that it runs. -/
def Manager.ensure (m : Manager) (canExec : Bool) (n : StateNetwork) :
    Option (Manager × List Command) :=
  (networkOf n).map fun net =>
    (⟨m.networks.insert n.base.projectID net⟩,
      if canExec then
        [["ip", "link", "add", net.bridge, "type", "bridge"],
          ["ip", "addr", "add", net.gateway ++ "/24", "dev", net.bridge],
          ["ip", "link", "set", net.bridge, "up"]]
      else [])

/-- The commands that `Attach` runs; the argument `hostIf` is not used. -/
def Manager.attach (m : Manager) (canExec : Bool) (projectID containerID _hostIf : String) :
    Option (Except String (List Command)) :=
  match m.networks.lookup projectID with
  | none => some (.error ("cni: project " ++ projectID ++ " has no network"))
  | some net =>
      if canExec then
        (shortID containerID).map fun short =>
          let vethHost := "veth" ++ short
          .ok [["ip", "link", "add", vethHost, "type", "veth", "peer", "name", "eth0"],
            ["ip", "link", "set", vethHost, "master", net.bridge],
            ["ip", "link", "set", vethHost, "up"]]
      else some (.ok [])

/-- The commands that `Detach` runs. -/
def Manager.detach (_m : Manager) (canExec : Bool) (_projectID containerID : String) :
    Option (List Command) :=
  if canExec then
    (shortID containerID).map fun short => [["ip", "link", "del", "veth" ++ short]]
  else some []

/-! ## Runs -/

/-- A call, with whether the program `ip` is found while it runs. -/
inductive Call where
  | ensure (canExec : Bool) (n : StateNetwork)
  | attach (canExec : Bool) (projectID containerID hostIf : String)
  | detach (canExec : Bool) (projectID containerID : String)

/-- The manager after a call; a call that panics has changed nothing. -/
def Manager.next (m : Manager) : Call → Manager
  | .ensure canExec n =>
      match m.ensure canExec n with
      | some (m', _) => m'
      | none => m
  | .attach .. => m
  | .detach .. => m

def run (calls : List Call) : Manager := calls.foldl Manager.next newManager

theorem run_concat (calls : List Call) (call : Call) :
    run (calls ++ [call]) = (run calls).next call :=
  List.foldl_concat ..

/-- At some moment of the run the network is the one recorded for the project. -/
def Recorded (calls : List Call) (projectID : String) (net : Network) : Prop :=
  ∃ before after, calls = before ++ after ∧
    (run before).networks.lookup projectID = some net

/-- An interface of the host: the projects whose containers were attached under its name, and
the bridge that it is in. -/
structure Plug where
  projects : List String
  bridge : String

/-- The interfaces that are in a bridge. -/
abbrev Links := String → Option Plug

/-- What a command that is run for a project does to the interfaces. -/
def Links.exec (projectID : String) (links : Links) : Command → Links
  | ["ip", "link", "set", veth, "master", bridge] =>
      Function.update links veth
        (some ⟨projectID :: ((links veth).map Plug.projects).getD [], bridge⟩)
  | ["ip", "link", "del", veth] => Function.update links veth none
  | _ => links

/-- The manager and the interfaces of its host. -/
structure Host where
  manager : Manager
  links : Links

/-- The project that a call is for and the commands that it runs. -/
def Manager.commands (m : Manager) : Call → String × List Command
  | .ensure canExec n => (n.base.projectID, ((m.ensure canExec n).map Prod.snd).getD [])
  | .attach canExec projectID containerID hostIf =>
      (projectID, match m.attach canExec projectID containerID hostIf with
        | some (.ok commands) => commands
        | _ => [])
  | .detach canExec projectID containerID =>
      (projectID, (m.detach canExec projectID containerID).getD [])

def Host.next (h : Host) (call : Call) : Host :=
  ⟨h.manager.next call,
    (h.manager.commands call).2.foldl (Links.exec (h.manager.commands call).1) h.links⟩

def host (calls : List Call) : Host := calls.foldl Host.next ⟨newManager, fun _ => none⟩

theorem host_concat (calls : List Call) (call : Call) :
    host (calls ++ [call]) = (host calls).next call :=
  List.foldl_concat ..

theorem host_manager (calls : List Call) : (host calls).manager = run calls := by
  induction calls using List.reverseRecOn with
  | nil => rfl
  | append_singleton calls call ih => rw [host_concat, run_concat, ← ih, Host.next]

/-- Networks of different projects have different bridges, and at no moment a bridge has
containers of different projects. -/
structure Isolated (calls : List Call) : Prop where
  bridges : ∀ {p q net net'}, p ≠ q → Recorded calls p net → Recorded calls q net' →
    net.bridge ≠ net'.bridge
  attached : ∀ {before after veth veth' plug plug'}, calls = before ++ after →
    (host before).links veth = some plug → (host before).links veth' = some plug' →
      plug.bridge = plug'.bridge → ∀ p ∈ plug.projects, ∀ q ∈ plug'.projects, p = q

/-! ## Abbreviations -/

/-- The first six bytes other than dashes. -/
def start (id : String) : List Char := (id.toList.filter fun c => c != '-').take 6

/-- Two IDs with one abbreviation: one short ID, or two longer ones that begin with the
same six bytes, dashes aside. -/
def Alike (a b : String) : Prop :=
  (a = b ∧ a.toList.length < 6) ∨
    (6 ≤ a.toList.length ∧ 6 ≤ b.toList.length ∧ (start a).length = 6 ∧ start a = start b)

/-- An abbreviation is a short ID or the six bytes a longer one begins with. -/
theorem shortID_eq_some_iff (id short : String) :
    shortID id = some short ↔
      (id.toList.length < 6 ∧ short = id) ∨
        (6 ≤ id.toList.length ∧ (start id).length = 6 ∧ short = String.ofList (start id)) := by
  unfold shortID
  by_cases long : id.toList.length < 6
  · rw [if_pos long, Option.some.injEq]
    constructor
    · intro same
      exact Or.inl ⟨long, same.symm⟩
    · rintro (⟨_, same⟩ | ⟨notShort, _⟩)
      · exact same.symm
      · omega
  · rw [if_neg long, Text.sliceTo, Text.take, String.toList_ofList]
    have enough : (start id).length = 6 ↔ 6 ≤ (id.toList.filter fun c => c != '-').length := by
      rw [start, List.length_take]
      omega
    constructor
    · intro sliced
      split at sliced
      · rename_i reaches
        cases sliced
        exact Or.inr ⟨by omega, enough.mpr reaches, rfl⟩
      · cases sliced
    · rintro (⟨isShort, _⟩ | ⟨_, full, rfl⟩)
      · exact absurd isShort long
      · rw [if_pos (enough.mp full), start]

/-- Two IDs share an abbreviation exactly when they are alike. -/
theorem shared_iff_alike (a b : String) :
    (∃ short, shortID a = some short ∧ shortID b = some short) ↔ Alike a b := by
  constructor
  · rintro ⟨short, ofA, ofB⟩
    rw [shortID_eq_some_iff] at ofA ofB
    rcases ofA with ⟨shortA, rfl⟩ | ⟨longA, fullA, rfl⟩
    · rcases ofB with ⟨_, same⟩ | ⟨_, fullB, same⟩
      · exact Or.inl ⟨same, shortA⟩
      · rw [same, String.toList_ofList] at shortA
        omega
    · rcases ofB with ⟨shortB, same⟩ | ⟨longB, _, same⟩
      · rw [← same, String.toList_ofList] at shortB
        omega
      · exact Or.inr ⟨longA, longB, fullA, String.ofList_inj.mp same⟩
  · rintro (⟨rfl, short⟩ | ⟨longA, longB, full, same⟩)
    · exact ⟨a, (shortID_eq_some_iff a a).mpr (Or.inl ⟨short, rfl⟩),
        (shortID_eq_some_iff a a).mpr (Or.inl ⟨short, rfl⟩)⟩
    · refine ⟨String.ofList (start a), ?_, ?_⟩
      · exact (shortID_eq_some_iff a _).mpr (Or.inr ⟨longA, full, rfl⟩)
      · exact (shortID_eq_some_iff b _).mpr (Or.inr ⟨longB, by rw [← same]; exact full, by rw [same]⟩)

/-- The bridges of two networks are the same exactly when their IDs are alike. -/
theorem alike_iff_same_bridge (n n' : StateNetwork) :
    Alike n.base.id n'.base.id ↔
      ∃ net net', networkOf n = some net ∧ networkOf n' = some net' ∧ net.bridge = net'.bridge := by
  rw [← shared_iff_alike]
  constructor
  · rintro ⟨short, ofN, ofN'⟩
    simp only [networkOf, ofN, ofN', Option.map_some, Option.some.injEq]
    exact ⟨_, _, rfl, rfl, rfl⟩
  · rintro ⟨net, net', made, made', same⟩
    obtain ⟨short, ofN, rfl⟩ := Option.map_eq_some_iff.mp made
    obtain ⟨short', ofN', rfl⟩ := Option.map_eq_some_iff.mp made'
    have sameShort : short = short' := String.append_right_inj "cbr-" |>.mp same
    subst sameShort
    exact ⟨short, ofN, ofN'⟩

/-! ## What is recorded and connected -/

/-- The run ensures the network. -/
def Ensured (calls : List Call) (n : StateNetwork) : Prop :=
  ∃ canExec, Call.ensure canExec n ∈ calls

theorem Ensured.append {before : List Call} {n : StateNetwork} (ensured : Ensured before n)
    (after : List Call) : Ensured (before ++ after) n := by
  obtain ⟨canExec, called⟩ := ensured
  exact ⟨canExec, List.mem_append_left after called⟩

theorem lookup_ensure {n : StateNetwork} {net : Network} (made : networkOf n = some net)
    (m : Manager) (canExec : Bool) :
    (m.next (.ensure canExec n)).networks = m.networks.insert n.base.projectID net := by
  simp only [Manager.next, Manager.ensure, made, Option.map_some]

theorem next_of_panic {n : StateNetwork} (panics : networkOf n = none) (m : Manager)
    (canExec : Bool) : m.next (.ensure canExec n) = m := by
  simp only [Manager.next, Manager.ensure, panics, Option.map_none]

/-- The table holds networks of the run, each under its own project. -/
theorem ensured_of_lookup {calls : List Call} {p : String} {net : Network}
    (held : (run calls).networks.lookup p = some net) :
    ∃ n, Ensured calls n ∧ n.base.projectID = p ∧ networkOf n = some net := by
  induction calls using List.reverseRecOn with
  | nil => cases held
  | append_singleton calls call ih =>
      rw [run_concat] at held
      -- what was there before the call comes from the calls before it
      have earlier (kept : (run calls).networks.lookup p = some net) :
          ∃ n, Ensured (calls ++ [call]) n ∧ n.base.projectID = p ∧ networkOf n = some net := by
        obtain ⟨n, ensured, ofProject, made⟩ := ih kept
        exact ⟨n, ensured.append [call], ofProject, made⟩
      cases call with
      | ensure canExec n =>
          cases made : networkOf n with
          | none =>
              rw [next_of_panic made] at held
              exact earlier held
          | some net' =>
              rw [lookup_ensure made] at held
              by_cases same : p = n.base.projectID
              · subst same
                rw [AList.lookup_insert] at held
                have isNet : net' = net := Option.some.inj held
                subst isNet
                exact ⟨n, ⟨canExec, List.mem_concat_self⟩, rfl, made⟩
              · rw [AList.lookup_insert_ne same] at held
                exact earlier held
      | attach canExec projectID containerID hostIf => exact earlier held
      | detach canExec projectID containerID => exact earlier held

/-- The networks recorded during a run are those it ensures without a panic. -/
theorem recorded_iff (calls : List Call) (p : String) (net : Network) :
    Recorded calls p net ↔
      ∃ n, Ensured calls n ∧ n.base.projectID = p ∧ networkOf n = some net := by
  constructor
  · rintro ⟨before, after, rfl, held⟩
    obtain ⟨n, ensured, ofProject, made⟩ := ensured_of_lookup held
    exact ⟨n, ensured.append after, ofProject, made⟩
  · rintro ⟨n, ⟨canExec, called⟩, rfl, made⟩
    obtain ⟨before, after, rfl⟩ := List.append_of_mem called
    refine ⟨before ++ [.ensure canExec n], after, by simp, ?_⟩
    rw [run_concat, lookup_ensure made, AList.lookup_insert]

theorem Recorded.concat {calls : List Call} {p : String} {net : Network}
    (recorded : Recorded calls p net) (call : Call) : Recorded (calls ++ [call]) p net := by
  obtain ⟨before, after, rfl, held⟩ := recorded
  exact ⟨before, after ++ [call], List.append_assoc .., held⟩

/-! ## Interfaces -/

/-- The interface of a call and the bridge that it is put into. -/
def Manager.connects (m : Manager) : Call → Option (String × String)
  | .attach canExec projectID containerID _ =>
      if canExec then
        (m.networks.lookup projectID).bind fun net =>
          (shortID containerID).map fun short => ("veth" ++ short, net.bridge)
      else none
  | _ => none

/-- The bridge is recorded for the project of the call. -/
theorem recorded_of_connects {calls : List Call} {canExec : Bool} {p c hostIf veth bridge : String}
    (connects : (run calls).connects (.attach canExec p c hostIf) = some (veth, bridge)) :
    ∃ net, Recorded calls p net ∧ net.bridge = bridge := by
  cases canExec with
  | false => cases connects
  | true =>
      obtain ⟨net, held, named⟩ := Option.bind_eq_some_iff.mp connects
      obtain ⟨short, _, isTarget⟩ := Option.map_eq_some_iff.mp named
      exact ⟨net, ⟨calls, [], (List.append_nil _).symm, held⟩, (Prod.mk.inj isTarget).2⟩

/-- Only an `Attach` puts an interface into a bridge, and only one. -/
theorem links_attach (h : Host) (canExec : Bool) (p c hostIf : String) :
    (h.next (.attach canExec p c hostIf)).links =
      match h.manager.connects (.attach canExec p c hostIf) with
      | none => h.links
      | some (veth, bridge) =>
          Function.update h.links veth
            (some ⟨p :: ((h.links veth).map Plug.projects).getD [], bridge⟩) := by
  simp only [Host.next, Manager.commands, Manager.attach, Manager.connects]
  cases canExec with
  | false =>
      cases h.manager.networks.lookup p with
      | none => rfl
      | some net => rfl
  | true =>
      cases h.manager.networks.lookup p with
      | none => rfl
      | some net =>
          simp only [if_true, Option.bind_some]
          cases shortID c with
          | none => rfl
          | some short => rfl

/-- The other calls leave an interface as it is or delete it. -/
theorem links_other (h : Host) {call : Call} (other : h.manager.connects call = none)
    {veth : String} {plug : Plug} (held : (h.next call).links veth = some plug) :
    h.links veth = some plug := by
  cases call with
  | ensure canExec n =>
      rw [← held]
      simp only [Host.next, Manager.commands, Manager.ensure]
      cases networkOf n with
      | none => rfl
      | some net =>
          cases canExec with
          | false => rfl
          | true => rfl
  | attach canExec p c hostIf =>
      rw [links_attach, other] at held
      exact held
  | detach canExec p c =>
      simp only [Host.next, Manager.commands, Manager.detach] at held
      cases canExec with
      | false => exact held
      | true =>
          cases isShort : shortID c with
          | none =>
              rw [isShort] at held
              exact held
          | some short =>
              rw [isShort] at held
              change Function.update h.links ("veth" ++ short) none veth = some plug at held
              by_cases same : veth = "veth" ++ short
              · rw [same, Function.update_self] at held
                cases held
              · rwa [Function.update_of_ne same] at held

/-- No `Attach` of the run puts an interface into a bridge while a container of another
project is attached under its name. -/
def OwnInterfaces (calls : List Call) : Prop :=
  ∀ before canExec p c hostIf after veth bridge plug,
    calls = before ++ .attach canExec p c hostIf :: after →
      (run before).connects (.attach canExec p c hostIf) = some (veth, bridge) →
        (host before).links veth = some plug → ∀ q ∈ plug.projects, q = p

theorem OwnInterfaces.initial {calls after : List Call} (own : OwnInterfaces (calls ++ after)) :
    OwnInterfaces calls := by
  rintro before canExec p c hostIf later veth bridge plug rfl
  exact own before canExec p c hostIf (later ++ after) veth bridge plug (by simp)

/-- Under the name that an `Attach` uses there are containers of its project only. -/
theorem OwnInterfaces.attached {calls : List Call} {canExec : Bool}
    {p c hostIf veth bridge : String}
    (own : OwnInterfaces (calls ++ [.attach canExec p c hostIf]))
    (connects : (run calls).connects (.attach canExec p c hostIf) = some (veth, bridge)) :
    ∀ q ∈ p :: (((host calls).links veth).map Plug.projects).getD [], q = p := by
  intro q member
  rcases List.mem_cons.mp member with rfl | earlier
  · rfl
  · cases there : (host calls).links veth with
    | none =>
        rw [there] at earlier
        cases earlier
    | some old =>
        rw [there] at earlier
        exact own calls canExec p c hostIf [] veth bridge old rfl connects there q earlier

/-- The containers attached under a name are of one project, and in a bridge of it. -/
def Owned (calls : List Call) : Prop :=
  ∀ veth plug, (host calls).links veth = some plug →
    ∃ p net, (∀ q ∈ plug.projects, q = p) ∧ Recorded calls p net ∧ net.bridge = plug.bridge

theorem owned_of_ownInterfaces {calls : List Call} (own : OwnInterfaces calls) : Owned calls := by
  induction calls using List.reverseRecOn with
  | nil =>
      intro veth plug held
      cases held
  | append_singleton calls call ih =>
      have before := ih own.initial
      -- an interface that was there before the call
      have kept : ∀ veth plug, (host calls).links veth = some plug →
          ∃ p net, (∀ q ∈ plug.projects, q = p) ∧ Recorded (calls ++ [call]) p net ∧
            net.bridge = plug.bridge := by
        intro veth plug held
        obtain ⟨p, net, only, recorded, isBridge⟩ := before veth plug held
        exact ⟨p, net, only, recorded.concat call, isBridge⟩
      intro veth plug held
      rw [host_concat] at held
      cases connects : (host calls).manager.connects call with
      | none => exact kept veth plug (links_other _ connects held)
      | some target =>
          obtain ⟨veth', bridge⟩ := target
          cases call with
          | ensure canExec n => cases connects
          | detach canExec p c => cases connects
          | attach canExec p c hostIf =>
              rw [links_attach, connects] at held
              simp only at held
              by_cases same : veth = veth'
              · subst same
                rw [Function.update_self] at held
                cases held
                rw [host_manager] at connects
                obtain ⟨net, recorded, isBridge⟩ := recorded_of_connects connects
                exact ⟨p, net, own.attached connects, recorded.concat _, isBridge⟩
              · rw [Function.update_of_ne same] at held
                exact kept veth plug held

/-! ## Isolation -/

-- Networks that are apart, and containers that share an interface: it ends in the bridge of
-- the second project.
example :
    ((host [.ensure true ⟨⟨"n1", "p", "web"⟩, "10.0.0.0/24"⟩,
      .ensure true ⟨⟨"n2", "q", "db"⟩, "10.0.1.0/24"⟩, .attach true "p" "abcdef1" "eth1",
      .attach true "q" "abcdef2" "eth2"]).links "vethabcdef").map
        (fun plug => (plug.projects, plug.bridge)) = some (["q", "p"], "cbr-n2") := by
  decide +kernel

/-! ## Calls that return -/

/-- The call returns, with or without an error. -/
def Manager.returns (m : Manager) : Call → Bool
  | .ensure canExec n => (m.ensure canExec n).isSome
  | .attach canExec projectID containerID hostIf =>
      (m.attach canExec projectID containerID hostIf).isSome
  | .detach canExec projectID containerID => (m.detach canExec projectID containerID).isSome

/-- The ID that a call abbreviates: always that of the network, and that of the container
if the call gets to the commands. -/
def Manager.abbreviated (m : Manager) : Call → Option String
  | .ensure _ n => some n.base.id
  | .attach canExec projectID containerID _ =>
      if (m.networks.lookup projectID).isSome && canExec then some containerID else none
  | .detach canExec _ containerID => if canExec then some containerID else none

/-- The ID has fewer than six bytes, or at least six that are no dashes. -/
def Fits (id : String) : Prop :=
  id.toList.length < 6 ∨ 6 ≤ (id.toList.filter fun c => c != '-').length

theorem shortID_isSome_iff (id : String) : (shortID id).isSome = true ↔ Fits id := by
  have enough : (start id).length = 6 ↔ 6 ≤ (id.toList.filter fun c => c != '-').length := by
    rw [start, List.length_take]
    omega
  have kept := List.length_filter_le (fun c => c != '-') id.toList
  rw [Option.isSome_iff_exists]
  constructor
  · rintro ⟨short, isShort⟩
    rcases (shortID_eq_some_iff id short).mp isShort with ⟨few, _⟩ | ⟨_, full, _⟩
    · exact Or.inl few
    · exact Or.inr (enough.mp full)
  · rintro (few | many)
    · exact ⟨id, (shortID_eq_some_iff id id).mpr (Or.inl ⟨few, rfl⟩)⟩
    · exact ⟨_, (shortID_eq_some_iff id _).mpr (Or.inr ⟨by omega, enough.mpr many, rfl⟩)⟩

theorem length_shortID {id short : String} (isShort : shortID id = some short) :
    short.toList.length ≤ 6 := by
  rcases (shortID_eq_some_iff id short).mp isShort with ⟨few, rfl⟩ | ⟨_, full, rfl⟩
  · omega
  · rw [String.toList_ofList, full]

/-- A call panics only when it abbreviates an ID. -/
theorem returns_eq (m : Manager) (call : Call) :
    m.returns call = ((m.abbreviated call).map fun id => (shortID id).isSome).getD true := by
  cases call with
  | ensure canExec n =>
      simp only [Manager.returns, Manager.ensure, networkOf, Manager.abbreviated,
        Option.isSome_map, Option.map_some, Option.getD_some]
  | attach canExec projectID containerID hostIf =>
      simp only [Manager.returns, Manager.attach, Manager.abbreviated]
      cases m.networks.lookup projectID with
      | none => rfl
      | some net =>
          cases canExec with
          | false => rfl
          | true => exact Option.isSome_map
  | detach canExec projectID containerID =>
      simp only [Manager.returns, Manager.detach, Manager.abbreviated]
      cases canExec with
      | false => rfl
      | true => exact Option.isSome_map

/-- A call returns, and abbreviates to at most six characters, exactly if an ID that it
abbreviates has fewer than six bytes or at least six that are no dashes. -/
theorem setup_returns_iff (m : Manager) (call : Call) :
    (m.returns call = true ∧ ∀ id, m.abbreviated call = some id →
      ∃ short, shortID id = some short ∧ short.toList.length ≤ 6) ↔
      ∀ id, m.abbreviated call = some id → Fits id := by
  rw [returns_eq]
  cases m.abbreviated call with
  | none => simp
  | some id =>
      constructor
      · rintro ⟨returned, _⟩ other ⟨⟩
        exact (shortID_isSome_iff id).mp returned
      · intro fits
        have isSome := (shortID_isSome_iff id).mpr (fits id rfl)
        refine ⟨isSome, ?_⟩
        rintro other ⟨⟩
        obtain ⟨short, isShort⟩ := Option.isSome_iff_exists.mp isSome
        exact ⟨short, isShort, length_shortID isShort⟩

/-- Six bytes of which three are dashes make each of the calls panic. -/
theorem dashes_panic :
    newManager.ensure true ⟨⟨"a-b-c-", "p", "web"⟩, "10.0.0.0/24"⟩ = none ∧
      (run [.ensure true ⟨⟨"n1", "p", "web"⟩, "10.0.0.0/24"⟩]).attach true "p" "a-b-c-" "eth1" = none ∧
      newManager.detach true "p" "a-b-c-" = none := by
  have panics : shortID "a-b-c-" = none := by decide +kernel
  refine ⟨?_, ?_, ?_⟩
  · rw [Manager.ensure, networkOf, panics]
    rfl
  · rw [Manager.attach, panics]
    rfl
  · rw [Manager.detach, panics]
    rfl

end MiniCloud.Cni
