import NrcAtcmd.CommandReceiver
import NrcAtcmd.Lib.Links
import NrcAtcmd.Lib.Machine

/-!
# The command registry

The groups are linked to `g_atcmd_group_head`, and the commands of a group to its `cmd_list_head`.
Both heads have null links at first. `Registered` is what the lists are for: the groups and the
commands of each group, the newest first. A group that is unregistered keeps its commands.
-/

set_option linter.style.nameCheck false

namespace NrcAtcmd.CommandRegistry

/-- What is in the structures `atcmd_group_t` and `atcmd_info_t` at these addresses. -/
structure Structs (γ ι ε : Type*) where
  groupId : γ → ℕ
  cmdPrefix : γ → Bytes
  infoId : ι → ℤ
  info : ι → AtcmdInfo ε

/-- The links: from the head of the groups, which is `none`, or a group; and from the head of the
commands of a group, or a command. -/
structure Registry (γ ι : Type*) where
  groups : Links (Option γ)
  cmds : Links (γ ⊕ ι)

/-- What is registered. -/
structure Registered (γ ι : Type*) where
  groups : List γ
  cmds : γ → List ι

/-- An operation. A structure may be missing where one is registered. -/
inductive RegistryOp (γ ι : Type*) where
  | groupRegister (group : Option γ)
  | groupUnregister (id : ℕ)
  | infoRegister (gid : ℕ) (info : Option ι)
  | infoUnregister (gid : ℕ) (id : ℤ)

variable {γ ι ε : Type*} (S : Structs γ ι ε)

namespace Registry

/-- The heads as they are initialised, and structures that are not linked. -/
def boot : Registry γ ι := ⟨.empty, .empty⟩

def atcmdGroupSearch (id : ℕ) (r : Registry γ ι) : Option (Option γ) :=
  (r.groups.find (·.any fun g => S.groupId g == id) r.groups.adds (r.groups.prev none)).map
    Option.join

/-- The walk over the commands of a group, to the first with a property. -/
def findInfo (p : ι → Bool) (g : γ) (r : Registry γ ι) : Option (Option ι) :=
  (r.cmds.find (Sum.elim (fun _ => false) p) r.cmds.adds (r.cmds.prev (.inl g))).map
    (·.bind Sum.getRight?)

def atcmdInfoSearch (g : γ) (id : ℤ) (r : Registry γ ι) : Option (Option ι) :=
  r.findInfo (fun i => S.infoId i == id) g

/-- The loops of `atcmd_handler`, over the groups from a link on, of at most `fuel` groups: the
command whose handler is invoked. -/
def handlerFrom (name : Bytes) (r : Registry γ ι) : ℕ → Option (Option γ) → Option (Option ι)
  | _, none | _, some none => some none
  | 0, some (some _) => none
  | fuel + 1, some (some g) =>
    let next := handlerFrom name r fuel (r.groups.prev (some g))
    if (S.cmdPrefix g).isPrefixOf name then
      (r.findInfo (fun i => (S.info i).cmd == name.drop (S.cmdPrefix g).length) g).bind fun
        | some i => some (some i)
        | none => next
    else next

/-- `atcmd_handler`, up to the command that it finds. -/
def atcmdHandler (name : Bytes) (r : Registry γ ι) : Option (Option ι) :=
  r.handlerFrom S name r.groups.adds (r.groups.prev none)

/-- How often a null link was stored through. -/
def nulls (r : Registry γ ι) : ℕ := r.groups.null + r.cmds.null

/-- Whether an operation adds to an empty list or deletes the oldest entry of one. -/
def atEnd (r : Registry γ ι) : RegistryOp γ ι → Bool
  | .groupRegister (some g) =>
    match r.atcmdGroupSearch S (S.groupId g) with
    | some none => (r.groups.prev none).isNone
    | _ => false
  | .groupUnregister id =>
    match r.atcmdGroupSearch S id with
    | some (some g) => (r.groups.prev (some g)).isNone
    | _ => false
  | .infoRegister gid (some _) =>
    match r.atcmdGroupSearch S gid with
    | some (some g) => (r.cmds.prev (.inl g)).isNone
    | _ => false
  | .infoUnregister gid id =>
    match (r.atcmdGroupSearch S gid).join.bind fun g => (r.atcmdInfoSearch S g id).join with
    | some i => (r.cmds.prev (.inr i)).isNone
    | none => false
  | _ => false

/-- A command is registered only while it is not linked. -/
def OnceLinked (r : Registry γ ι) : RegistryOp γ ι → Prop
  | .infoRegister _ (some i) => r.cmds.next (.inr i) = none
  | _ => True

/-! ## Operations -/

variable [DecidableEq γ] [DecidableEq ι]

def atcmdGroupRegister (group : Option γ) (r : Registry γ ι) : Option (ℤ × Registry γ ι) :=
  match group with
  | none => some (-1, r)
  | some g => (r.atcmdGroupSearch S (S.groupId g)).map fun
    | some _ => (-1, r)
    | none => (0, { r with groups := r.groups.add none (some g) })

def atcmdGroupUnregister (id : ℕ) (r : Registry γ ι) : Option (ℤ × Registry γ ι) :=
  (r.atcmdGroupSearch S id).map fun
    | none => (-1, r)
    | some g => (0, { r with groups := r.groups.del (some g) })

def atcmdInfoRegister (gid : ℕ) (info : Option ι) (r : Registry γ ι) :
    Option (ℤ × Registry γ ι) :=
  (r.atcmdGroupSearch S gid).map fun group =>
    match group, info with
    | some g, some i => (0, { r with cmds := r.cmds.add (.inl g) (.inr i) })
    | _, _ => (-1, r)

def atcmdInfoUnregister (gid : ℕ) (id : ℤ) (r : Registry γ ι) : Option (Registry γ ι) :=
  (r.atcmdGroupSearch S gid).bind fun
    | none => some r
    | some g => (r.atcmdInfoSearch S g id).map fun
      | none => r
      | some i => { r with cmds := r.cmds.del (.inr i) }

/-- An operation, if its walks end. -/
def step (r : Registry γ ι) : RegistryOp γ ι → Option (Registry γ ι)
  | .groupRegister group => (r.atcmdGroupRegister S group).map (·.2)
  | .groupUnregister id => (r.atcmdGroupUnregister S id).map (·.2)
  | .infoRegister gid info => (r.atcmdInfoRegister S gid info).map (·.2)
  | .infoUnregister gid id => r.atcmdInfoUnregister S gid id

end Registry

namespace Registered

/-- Nothing is registered. -/
def empty : Registered γ ι := ⟨[], fun _ => []⟩

/-- The group with an id. -/
def group (a : Registered γ ι) (id : ℕ) : Option γ := a.groups.find? fun g => S.groupId g == id

/-- What is registered after an operation. -/
def step [DecidableEq γ] (a : Registered γ ι) : RegistryOp γ ι → Registered γ ι
  | .groupRegister (some g) =>
    if (a.group S (S.groupId g)).isSome then a else { a with groups := g :: a.groups }
  | .groupUnregister id => { a with groups := a.groups.eraseP fun g => S.groupId g == id }
  | .infoRegister gid (some i) =>
    match a.group S gid with
    | some g => { a with cmds := Function.update a.cmds g (i :: a.cmds g) }
    | none => a
  | .infoUnregister gid id =>
    match a.group S gid with
    | some g =>
      { a with cmds := Function.update a.cmds g ((a.cmds g).eraseP fun i => S.infoId i == id) }
    | none => a
  | _ => a

/-- The groups as `atcmdSearch` takes them. -/
def table (a : Registered γ ι) : List (AtcmdGroup ε) :=
  a.groups.map fun g => ⟨S.cmdPrefix g, (a.cmds g).map S.info⟩

/-- A command is registered under a name. -/
def Named (a : Registered γ ι) (name : Bytes) (i : ι) : Prop :=
  ∃ g ∈ a.groups, i ∈ a.cmds g ∧ name = S.cmdPrefix g ++ (S.info i).cmd

end Registered

/-- The walk from each head is over what is registered, and `atcmd_handler` invokes the handler of a
command that is registered under the name, if there is one. -/
structure Visits (r : Registry γ ι) (a : Registered γ ι) : Prop where
  groups : r.groups.walk r.groups.adds (r.groups.prev none) = some (a.groups.map some)
  cmds : ∀ g, r.cmds.walk r.cmds.adds (r.cmds.prev (.inl g)) = some ((a.cmds g).map .inr)
  handler : ∀ name, ∃ found, r.atcmdHandler S name = some found
    ∧ (∀ i ∈ found, a.Named S name i) ∧ (found = none → ∀ i, ¬ a.Named S name i)
  search : ∀ name, (r.atcmdHandler S name).map (·.map S.info) = some (atcmdSearch (a.table S) name)

/-- The registry, and what should be in it. -/
def registryStep [DecidableEq γ] [DecidableEq ι] (x : Registry γ ι × Registered γ ι)
    (op : RegistryOp γ ι) :
    Option (Registry γ ι × Registered γ ι) :=
  (x.1.step S op).map fun r => (r, x.2.step S op)

/-- Before any operation. -/
def registryBoot : Registry γ ι × Registered γ ι := (.boot, .empty)

/-- No null link was stored through, and the walks are over what is registered. -/
def RegistrySound (x : Registry γ ι × Registered γ ι) : Prop := x.1.nulls = 0 ∧ Visits S x.1 x.2

end NrcAtcmd.CommandRegistry
