import TeamAccess.Proofs.Atomicity
import TeamAccess.Proofs.Run

/-!
# Calls — a store that is used directly and through its writers

The operations of a store can be called as they are, or through a service, whose writers check
before they write. An `Act` is either, and a run of acts gives the answer of each. For teams, roles
and ownerships it is the same few things that can happen, whoever asks: nothing at all, or one
successful write of the store, with what it answers (`Store.Turn`, `Service.turn_act`). What is kept
by these is kept in every run (`Service.acts_induction`).
-/

namespace TeamAccess

namespace Store

/-! ## Calls of the store -/

/-- A call that can change the store. -/
inductive Call where
  /-- Time passes. -/
  | clock (now : Timestamp)
  | setUp
  | createEnvironment (e : Environment)
  | createTenant (t : Tenant)
  | createOds (o : Ods)
  | createEdOrg (x : EdOrg)
  | rebuildClosure (ods : ResourceId)
  | createTeam (name : String)
  | createRole (name : String) (scope : RoleScope) (privileges : KeySet Privilege)
  | createOwnership (o : NewOwnership)
  | deleteOwnership (id : OwnershipId)
  | replaceOwnership (id : OwnershipId) (o : NewOwnership)

/-- What a call answers when it succeeds. -/
inductive Reply where
  | done
  | team (t : Team)
  | role (r : Role)
  | ownership (o : Ownership)
  /-- Whether there was something to remove. -/
  | removed (found : Bool)

/-- The answer of statements, and the store after them. -/
def execute {α : Type} (s : Store) (reply : α → Reply) (x : Statements α) :
    Except Fault Reply × Store :=
  ((x.run s).1.map reply, (x.run s).2)

/-- The answer of a statement that has nothing to tell. -/
def executeChange (s : Store) (write : Store → Except Fault Store) : Except Fault Reply × Store :=
  s.execute (fun _ => .done) (.change write)

/-- The answer of a call, and the store after it. -/
def call (s : Store) : Call → Except Fault Reply × Store
  | .clock now => (.ok .done, { s with now })
  | .setUp => (s.setUp.1.map fun _ => .done, s.setUp.2)
  | .createEnvironment e => s.executeChange (·.createEnvironment e)
  | .createTenant t => s.executeChange (·.createTenant t)
  | .createOds o => s.executeChange (·.createOds o)
  | .createEdOrg x => s.executeChange (·.createEdOrg x)
  | .rebuildClosure ods => s.execute (fun _ => .done) (rebuildingClosure ods)
  | .createTeam name => s.execute .team (.one (·.createTeam name))
  | .createRole name scope privileges => s.execute .role (addingRole name scope privileges)
  | .createOwnership o => s.execute .ownership (.one (·.createOwnership o))
  | .deleteOwnership id => s.execute .removed (.one (·.deleteOwnership id))
  | .replaceOwnership id o => s.execute .ownership (replacingOwnership id o)

variable {s s' s'' : Store}

/-- Statements that are answered with success were made. -/
theorem of_execute_eq_ok {α : Type} {reply : α → Reply} {x : Statements α} {y : Reply}
    (h : (s.execute reply x).1 = .ok y) :
    ∃ a s', x.written s = .ok (a, s') ∧ reply a = y ∧ s.execute reply x = (.ok y, s') := by
  rw [execute] at h ⊢
  rw [Statements.written]
  generalize x.run s = outcome at h ⊢
  obtain ⟨e | a, s'⟩ := outcome
  · cases h
  · exact ⟨a, s', rfl, Except.ok.inj h, congrArg (·, s') h⟩

/-- **Atomic statements that are answered with a fault leave the store.** -/
theorem of_execute_eq_error {α : Type} {reply : α → Reply} {x : Statements α} (hx : x.Atomic)
    {fault : Fault} (h : (s.execute reply x).1 = .error fault) :
    x.written s = .error fault ∧ s.execute reply x = (.error fault, s) := by
  rw [execute, hx.run_eq s] at h ⊢
  generalize x.written s = outcome at h ⊢
  rcases outcome with e | ⟨a, s'⟩
  · cases h
    exact ⟨rfl, rfl⟩
  · cases h

/-! ## What can happen to teams, roles and ownerships -/

/-- Teams, roles and ownerships are the same, and no table has gone. -/
structure SameTeams (s s' : Store) : Prop where
  teams : s'.teams = s.teams
  roles : s'.roles = s.roles
  privileges : s'.privileges = s.privileges
  ownerships : s'.ownerships = s.ownerships
  complete : s.Complete → s'.Complete

namespace SameTeams

theorem refl (s : Store) : SameTeams s s := ⟨rfl, rfl, rfl, rfl, id⟩

theorem trans (h : SameTeams s s') (h' : SameTeams s' s'') : SameTeams s s'' where
  teams := h'.teams.trans h.teams
  roles := h'.roles.trans h.roles
  privileges := h'.privileges.trans h.privileges
  ownerships := h'.ownerships.trans h.ownerships
  complete hs := h'.complete (h.complete hs)

theorem createEnvironment {e : Environment} (hok : s.createEnvironment e = .ok s') :
    SameTeams s s' := by
  obtain ⟨t, -, -, rfl⟩ := createEnvironment_eq_ok_iff.1 hok
  exact ⟨rfl, rfl, rfl, rfl, fun h => { h with environments := rfl }⟩

theorem createTenant {t : Tenant} (hok : s.createTenant t = .ok s') : SameTeams s s' := by
  obtain ⟨u, -, -, -, -, -, -, rfl⟩ := createTenant_eq_ok_iff.1 hok
  exact ⟨rfl, rfl, rfl, rfl, fun h => { h with tenants := rfl }⟩

theorem createOds {o : Ods} (hok : s.createOds o = .ok s') : SameTeams s s' := by
  obtain ⟨t, -, -, -, -, -, rfl⟩ := createOds_eq_ok_iff.1 hok
  exact ⟨rfl, rfl, rfl, rfl, fun h => { h with odss := rfl }⟩

theorem createEdOrg {x : EdOrg} (hok : s.createEdOrg x = .ok s') : SameTeams s s' := by
  obtain ⟨t, -, -, -, -, -, -, -, rfl⟩ := createEdOrg_eq_ok_iff.1 hok
  exact ⟨rfl, rfl, rfl, rfl, fun h => { h with edOrgs := rfl }⟩

theorem rebuildClosure {ods : ResourceId} (hok : s.rebuildClosure ods = .ok s') :
    SameTeams s s' := by
  obtain ⟨t, -, c, -, -, rfl⟩ := rebuildClosure_eq_ok_iff.1 hok
  exact ⟨rfl, rfl, rfl, rfl, fun h => { h with closure := rfl }⟩

end SameTeams

/-- **What an operation does to teams, roles and ownerships**, and what it answers: it is elsewhere
that anything happens, or it is one write that succeeds. -/
inductive Turn (s : Store) : Except Fault Reply → Store → Prop
  | refused (e : Fault) {s' : Store} : SameTeams s s' → Turn s (.error e) s'
  | elsewhere {s' : Store} : SameTeams s s' → Turn s (.ok .done) s'
  /-- There is nothing to remove. -/
  | missing : Turn s (.ok (.removed false)) s
  | setUp : Turn s (s.setUp.1.map fun _ => .done) s.setUp.2
  | team {name : String} {t : Team} {s' : Store} :
      s.createTeam name = .ok (t, s') → Turn s (.ok (.team t)) s'
  | role {name : String} {scope : RoleScope} {ps : KeySet Privilege} {r : Role} {s' : Store} :
      s.createRole name scope ps = .ok (r, s') → Turn s (.ok (.role r)) s'
  | added {o : NewOwnership} {created : Ownership} {s' : Store} :
      s.createOwnership o = .ok (created, s') → Turn s (.ok (.ownership created)) s'
  | removed {id : OwnershipId} {found : Bool} {s' : Store} :
      s.deleteOwnership id = .ok (found, s') → Turn s (.ok (.removed found)) s'
  | replaced {id : OwnershipId} {o : NewOwnership} {created : Ownership} {s' : Store} :
      s.replaceOwnership id o = .ok (created, s') → Turn s (.ok (.ownership created)) s'

namespace Turn

/-- Atomic statements take the turn that they take when they are made, or they are refused. -/
theorem execute {α : Type} {reply : α → Reply} {x : Statements α} (hx : x.Atomic)
    (h : ∀ a s', x.written s = .ok (a, s') → Turn s (.ok (reply a)) s') :
    Turn s (s.execute reply x).1 (s.execute reply x).2 := by
  cases hreply : (s.execute reply x).1 with
  | error e =>
    rw [(of_execute_eq_error hx hreply).2]
    exact .refused e (.refl s)
  | ok y =>
    obtain ⟨a, s', hmade, rfl, hafter⟩ := of_execute_eq_ok hreply
    rw [hafter]
    exact h a s' hmade

/-- One statement takes the turn that it takes when it is made, or it is refused. -/
theorem executeOne {α : Type} {reply : α → Reply} {write : Store → Except Fault (α × Store)}
    (h : ∀ a s', write s = .ok (a, s') → Turn s (.ok (reply a)) s') :
    Turn s (s.execute reply (.one write)).1 (s.execute reply (.one write)).2 :=
  .execute (Statements.atomic_one _) fun a s' hmade =>
    h a s' ((Statements.written_one _).symm.trans hmade)

/-- A write to the hierarchy happens elsewhere. -/
theorem executeChange {write : Store → Except Fault Store}
    (h : ∀ s', write s = .ok s' → SameTeams s s') :
    Turn s (s.executeChange write).1 (s.executeChange write).2 := by
  refine .execute (Statements.atomic_change _) fun u s' hmade => .elsewhere (h s' ?_)
  rw [Statements.written_change] at hmade
  cases hwrite : write s with
  | error e =>
    rw [hwrite] at hmade
    cases hmade
  | ok _ =>
    rw [hwrite] at hmade
    cases hmade
    rfl

end Turn

/-- A call takes a turn. -/
theorem turn_call (s : Store) (c : Call) : Turn s (s.call c).1 (s.call c).2 := by
  cases c with
  | clock now => exact .elsewhere ⟨rfl, rfl, rfl, rfl, fun h => { h with }⟩
  | setUp => exact .setUp
  | createEnvironment e => exact .executeChange fun _ => .createEnvironment
  | createTenant t => exact .executeChange fun _ => .createTenant
  | createOds o => exact .executeChange fun _ => .createOds
  | createEdOrg x => exact .executeChange fun _ => .createEdOrg
  | rebuildClosure ods =>
    refine .execute (atomic_rebuildingClosure ods) fun u s' hmade => ?_
    exact .elsewhere (.rebuildClosure (congrArg (Except.map Prod.snd) hmade))
  | createTeam name => exact .executeOne fun _ _ => .team
  | createRole name scope privileges =>
    exact .execute (atomic_addingRole name scope privileges) fun _ _ => .role
  | createOwnership o => exact .executeOne fun _ _ => .added
  | deleteOwnership id => exact .executeOne fun _ _ => .removed
  | replaceOwnership id o => exact .execute (atomic_replacingOwnership id o) fun _ _ => .replaced

end Store

namespace Service

/-! ## Acts -/

/-- A call of the store, or of one of the writers. -/
inductive Act where
  | call (c : Store.Call)
  | write (w : Write)

/-- An outcome, told as the store tells it. -/
def tell {α : Type} (reply : α → Store.Reply) (x : Outcome α) : Outcome Store.Reply :=
  (x.1.map reply, x.2)

/-- The answer of a writer, and the service after it. -/
def replyOf (v : Service) : Write → Outcome Store.Reply
  | .addOwnership o => tell .ownership (v.addOwnership o)
  | .removeOwnership id => tell .removed (v.removeOwnership id)
  | .replaceOwnership id o => tell .ownership (v.replaceOwnership id o)
  | w => tell (fun _ => .done) (v.write w)

/-- The answer of an act, and the service after it. -/
def act (v : Service) : Act → Outcome Store.Reply
  | .call c => ((v.store.call c).1, { v with store := (v.store.call c).2 })
  | .write w => v.replyOf w

/-- The service after acts, one after the other. -/
def acts (v : Service) (as : List Act) : Service := as.foldl (fun v a => (v.act a).2) v

/-- What acts answer, one after the other. -/
def replies (v : Service) : List Act → List (Except Fault Store.Reply)
  | [] => []
  | a :: as => (v.act a).1 :: (v.act a).2.replies as

variable {v : Service}

/-- A hierarchy write in one step happens elsewhere. -/
theorem turn_commit {written : Except Fault Store}
    (h : ∀ s, written = .ok s → v.store.SameTeams s) :
    v.store.Turn (tell (fun _ => .done) (v.commit written)).1
      (tell (fun _ => .done) (v.commit written)).2.store := by
  cases written with
  | error e => exact .refused e (.refl _)
  | ok s => exact .elsewhere (h s rfl)

/-- The addition of an organization happens elsewhere, also if the rebuild after it fails. -/
theorem turn_addEdOrg (x : EdOrg) : v.store.Turn (tell (fun _ => .done) (v.addEdOrg x)).1
    (tell (fun _ => .done) (v.addEdOrg x)).2.store := by
  rw [addEdOrg]
  split
  · exact .refused _ (.refl _)
  · rename_i s hs
    obtain ⟨_, -, hs⟩ := bind_eq_ok_iff.1 hs
    have hsame := Store.SameTeams.createEdOrg hs
    cases hrebuild : s.rebuildClosure x.ods with
    | error e => exact .refused e hsame
    | ok s' => exact .elsewhere (hsame.trans (.rebuildClosure hrebuild))

/-- A new ownership is one of the store. -/
theorem turn_addOwnership (o : NewOwnership) : v.store.Turn (tell .ownership (v.addOwnership o)).1
    (tell .ownership (v.addOwnership o)).2.store := by
  rw [addOwnership]
  split
  · exact .refused _ (.refl _)
  · rename_i created s hs
    obtain ⟨_, -, hs⟩ := bind_eq_ok_iff.1 hs
    exact .added hs

/-- An ownership is removed from the store, or it is not there. -/
theorem turn_removeOwnership (id : OwnershipId) :
    v.store.Turn (tell .removed (v.removeOwnership id)).1
      (tell .removed (v.removeOwnership id)).2.store := by
  rw [removeOwnership]
  split
  · exact .refused _ (.refl _)
  · exact .missing
  · split
    · exact .refused _ (.refl _)
    · rename_i s hs
      exact .removed hs
    · rename_i s hs
      exact .removed hs

/-- A replacement that is reported was made in the store. -/
theorem replaceOwnership_of_ok {id : OwnershipId} {o : NewOwnership} {created : Ownership}
    (h : (v.replaceOwnership id o).1 = .ok created) :
    v.store.replaceOwnership id o = .ok (created, (v.replaceOwnership id o).2.store) := by
  simp only [replaceOwnership] at h ⊢
  split at h
  · cases h
  · rename_i hs
    cases h
    obtain ⟨found, -, hs⟩ := bind_eq_ok_iff.1 hs
    cases found with
    | none => cases hs
    | some old =>
      obtain ⟨_, -, hs⟩ := bind_eq_ok_iff.1 hs
      obtain ⟨_, hreplace, hs⟩ := bind_eq_ok_iff.1 hs
      cases hs
      exact hreplace

/-- An ownership is replaced in the store. -/
theorem turn_replaceOwnership (id : OwnershipId) (o : NewOwnership) :
    v.store.Turn (tell .ownership (v.replaceOwnership id o)).1
      (tell .ownership (v.replaceOwnership id o)).2.store := by
  rw [tell]
  cases h : (v.replaceOwnership id o).1 with
  | error e =>
    rw [replaceOwnership_of_error h]
    exact .refused e (.refl _)
  | ok created => exact .replaced (replaceOwnership_of_ok h)

/-- **Every act takes a turn of the store.** -/
theorem turn_act (v : Service) (a : Act) : v.store.Turn (v.act a).1 (v.act a).2.store := by
  cases a with
  | call c => exact v.store.turn_call c
  | write w =>
    cases w with
    | addEnvironment e => exact turn_commit fun _ => .createEnvironment
    | addTenant t =>
      refine turn_commit fun s hs => ?_
      obtain ⟨_, -, hs⟩ := bind_eq_ok_iff.1 hs
      exact .createTenant hs
    | addOds o =>
      refine turn_commit fun s hs => ?_
      obtain ⟨_, -, hs⟩ := bind_eq_ok_iff.1 hs
      exact .createOds hs
    | addEdOrg x => exact turn_addEdOrg x
    | rebuildClosure ods =>
      refine turn_commit fun s hs => ?_
      obtain ⟨found, -, hs⟩ := bind_eq_ok_iff.1 hs
      cases found with
      | none => cases hs
      | some _ => exact .rebuildClosure hs
    | addOwnership o => exact turn_addOwnership o
    | removeOwnership id => exact turn_removeOwnership id
    | replaceOwnership id o => exact turn_replaceOwnership id o

/-! ## Runs -/

/-- **What every turn keeps, every run keeps.** -/
theorem acts_induction {P : Store → Prop}
    (hturn : ∀ s reply s', P s → Store.Turn s reply s' → P s') {v : Service} (h : P v.store)
    (as : List Act) : P (v.acts as).store := by
  induction as generalizing v with
  | nil => exact h
  | cons a as ih => exact ih (hturn _ _ _ h (v.turn_act a))

end Service

end TeamAccess
