import TeamAccess.Http.Handler
import TeamAccess.Proofs.References

/-!
# Refusals — why a request is refused

Status 500 says only that something failed inside; every other refusal explains what was wrong with
the request. A service that has only been asked has every table and can read every row, and what an
insertion refers to was looked up before, so no storage fails there: what is left are faults that a
reply explains (`Fault.Explained`), unless the store has no ids left to hand out (`Store.Spare`).
-/

namespace TeamAccess

open Http

/-- The reply is not one that only says that something failed. -/
def Http.Reply.Explains (r : Reply) : Prop := r.status ≠ 500

/-! ## Replies with another status -/

theorem Http.Reply.explains_bare {status : Nat} (h : status ≠ 500) :
    (Reply.bare status).Explains := h

theorem Http.Reply.explains_data {status : Nat} {data : Json} (h : status ≠ 500) :
    (Reply.data status data).Explains := h

theorem Http.Reply.explains_error {status : Nat} {message : String} (h : status ≠ 500) :
    (Reply.error status message).Explains := h

/-! ## Faults -/

/-- Every reply to the fault of a write explains it. -/
def Fault.Explained (e : Fault) : Prop := ∀ message, (writeFault message e).Explains

namespace Fault

theorem explained_notFound : notFound.Explained := fun _ => Reply.explains_error (by decide)

theorem explained_alreadyExists : alreadyExists.Explained :=
  fun _ => Reply.explains_error (by decide)

/-- What is refused as known is explained. -/
theorem explained_of_known {α : Type} {x : Except Fault α} (h : FailsOnly x (· = .alreadyExists)) :
    FailsOnly x Explained := by
  refine h.imp ?_
  rintro _ rfl
  exact explained_alreadyExists

/-- Every reply to the fault of a write blames the request. -/
def Blames (e : Fault) : Prop := ∀ message, (writeFault message e).status = 400

/-- A reply that blames the request explains. -/
theorem Blames.explained {e : Fault} (h : e.Blames) : e.Explained := by
  intro message
  rw [Reply.Explains, h message]
  decide

/-- What the request is to blame for is explained. -/
theorem explained_of_blames {α : Type} {x : Except Fault α} (h : FailsOnly x Blames) :
    FailsOnly x Explained :=
  h.imp fun _ he => he.explained

theorem blames_resource (cause : ResourceFault) : (resource cause).Blames := fun _ => rfl

theorem blames_request (cause : RequestFault) : (request cause).Blames := fun _ => rfl

end Fault

namespace Store

variable {s : Store}

/-! ## Rows that are refused -/

/-- An insertion that is only ever refused for its row is refused as known. -/
theorem known_of_constraint {α : Type} {x : Except Refusal α}
    (h : FailsOnly x (· = .constraint)) :
    FailsOnly (x.mapError Refusal.asKnown) (· = .alreadyExists) := by
  refine h.mapError ?_
  rintro _ rfl
  rfl

/-- A table that is there is available. -/
theorem failsOnly_available {α : Type} {a : Option α} {b : α} {P : Refusal → Prop}
    (h : a = some b) : FailsOnly (available a) P :=
  .of_succeeds ⟨b, available_eq_ok_iff.2 h⟩

/-- A condition that does not hold is a constraint. -/
theorem failsOnly_holds (c : Bool) : FailsOnly (holds c) (· = .constraint) := by
  cases c with
  | true => exact .ok ()
  | false => exact .error rfl

/-- An environment is refused for its row only. -/
theorem Sound.known_createEnvironment (h : s.Sound) (e : Environment) :
    FailsOnly (s.createEnvironment e) (· = .alreadyExists) := by
  obtain ⟨_, henvironments, -⟩ := h.environments
  refine known_of_constraint (.bind (failsOnly_available henvironments) fun _ _ => ?_)
  exact .bind (failsOnly_holds _) fun _ _ => .ok _

/-- A tenant is refused for its row only. -/
theorem Sound.known_createTenant (h : s.Sound) (t : Tenant) :
    FailsOnly (s.createTenant t) (· = .alreadyExists) := by
  obtain ⟨_, henvironments, -⟩ := h.environments
  obtain ⟨_, htenants, -⟩ := h.tenants
  refine known_of_constraint (.bind (failsOnly_available htenants) fun _ _ => ?_)
  refine .bind (failsOnly_available henvironments) fun _ _ => ?_
  exact .bind (failsOnly_holds _) fun _ _ => .bind (failsOnly_holds _) fun _ _ =>
    .bind (failsOnly_holds _) fun _ _ => .ok _

/-- An ODS is refused for its row only. -/
theorem Sound.known_createOds (h : s.Sound) (o : Ods) :
    FailsOnly (s.createOds o) (· = .alreadyExists) := by
  obtain ⟨_, htenants, -⟩ := h.tenants
  obtain ⟨_, hodss, -⟩ := h.odss
  refine known_of_constraint (.bind (failsOnly_available hodss) fun _ _ => ?_)
  refine .bind (failsOnly_available htenants) fun _ _ => ?_
  exact .bind (failsOnly_holds _) fun _ _ => .bind (failsOnly_holds _) fun _ _ => .ok _

/-- An organization is refused for its row only. -/
theorem Sound.known_createEdOrg (h : s.Sound) (x : EdOrg) :
    FailsOnly (s.createEdOrg x) (· = .alreadyExists) := by
  obtain ⟨_, hodss, -⟩ := h.odss
  obtain ⟨_, hedOrgs, -⟩ := h.edOrgs
  refine known_of_constraint (.bind (failsOnly_available hedOrgs) fun _ _ => ?_)
  refine .bind (failsOnly_available hodss) fun _ _ => ?_
  exact .bind (failsOnly_holds _) fun _ _ => .bind (failsOnly_holds _) fun _ _ =>
    .bind (failsOnly_holds _) fun _ _ => .bind (failsOnly_holds _) fun _ _ => .ok _

/-- A team is refused for its name only. -/
theorem Spare.explained_createTeam (h : s.Spare) (name : String) :
    FailsOnly (s.createTeam name) Fault.Explained := by
  obtain ⟨t, id, ht, hid⟩ := h.teams
  refine Fault.explained_of_known (known_of_constraint ?_)
  refine .bind (failsOnly_available ht) fun t' ht' => ?_
  obtain rfl := Option.some.inj (ht.symm.trans (available_eq_ok_iff.1 ht'))
  refine .bind (failsOnly_available hid) fun _ _ => ?_
  exact .bind (failsOnly_holds _) fun _ _ => .ok _

/-- **A role for a stored team is refused for its name only**: having a new id, its privileges
cannot be there before it. -/
theorem Spare.explained_createRole (h : s.Spare) (hattributed : s.Attributed) {team : Team}
    (hteam : s.HasTeam team) (name : String) (ps : KeySet Privilege) :
    FailsOnly (s.createRole name (.team team.id) ps) Fault.Explained := by
  obtain ⟨t, id, ht, hid⟩ := h.roles
  obtain ⟨teams, hteams, hmem⟩ := hteam
  have ⟨_, _, rows, hrows, _⟩ := hattributed
  by_cases hname : ∀ r ∈ t.rows.rows, r.isIn (.team team.id) = true → r.name ≠ .text name
  · have hscope : (RoleScope.team team.id).team?.all teams.rows.hasKey = true :=
      Index.hasKey_iff.2 ⟨team.row, hmem, rfl⟩
    exact .of_succeeds ⟨_, createRole_of_new hattributed ht hteams hrows hid hname hscope⟩
  · have htaken : s.hasRoleNamed (.team team.id) name = .ok true :=
      bind_eq_ok_iff.2 ⟨t, need_eq_ok_iff.2 ht, congrArg Except.ok (by simpa using hname)⟩
    rw [createRole_eq, htaken]
    exact .error Fault.explained_alreadyExists

/-- What names a stored team and a stored role is added as an ownership. -/
theorem Spare.succeeds_createOwnership (h : s.Spare) {o : NewOwnership}
    (ho : s.Backs o.team o.role o.resource) : Succeeds (s.createOwnership o) := by
  obtain ⟨t, id, ht, hid⟩ := h.ownerships
  obtain ⟨team, ⟨teams, hteams, hmem⟩, hteam⟩ := ho.hasTeam
  obtain ⟨role, ⟨roles, hroles, r, hr, hload⟩, hrole, -⟩ := ho.hasRole
  have hteamKey : teams.rows.hasKey o.team = true := Index.hasKey_iff.2 ⟨team.row, hmem, hteam⟩
  have hroleKey : roles.rows.hasKey o.role = true :=
    Index.hasKey_iff.2 ⟨r, hr, (loadRole_id hload).symm.trans hrole⟩
  exact ⟨_, createOwnership_eq_ok_iff.2
    ⟨t, ht, teams, hteams, roles, hroles, id, hid, hteamKey, hroleKey, rfl, rfl⟩⟩

/-- An ownership can be removed, stored or not. -/
theorem Sound.succeeds_deleteOwnership (h : s.Sound) (id : OwnershipId) :
    Succeeds (s.deleteOwnership id) := by
  obtain ⟨_, hownerships, -⟩ := h.ownerships
  obtain ⟨_, hteams, -⟩ := h.teams
  obtain ⟨_, hroles, -⟩ := h.roles
  exact .bind (succeeds_need hownerships) fun _ _ => .bind (succeeds_need hteams) fun _ _ =>
    .bind (succeeds_need hroles) fun _ _ => .pure _

end Store

namespace Service

variable {v : Service}

/-! ## Writes that are refused -/

/-- A hierarchy write fails as what it writes. -/
theorem failsOnly_commit {P : Fault → Prop} {written : Except Fault Store}
    (h : FailsOnly written P) : FailsOnly (v.commit written).1 P := by
  cases written with
  | error e => exact .error (h e rfl)
  | ok s => exact .ok ()

/-- A parent that is looked up and missing is the request's fault. -/
theorem blames_parent {α : Type} {kind : ResourceKind} {id : ResourceId}
    {found : Except Fault (Option α)} (h : Succeeds found) :
    FailsOnly (parent kind id found) Fault.Blames := by
  refine .bind (.of_succeeds h) fun a _ => ?_
  cases a with
  | none => exact .error (Fault.blames_resource _)
  | some a => exact .ok a

theorem explained_addEnvironment (h : v.store.Sound) (e : Environment) :
    FailsOnly (v.addEnvironment e).1 Fault.Explained :=
  failsOnly_commit (Fault.explained_of_known (h.known_createEnvironment e))

theorem explained_addTenant (h : v.store.Sound) (t : Tenant) :
    FailsOnly (v.addTenant t).1 Fault.Explained :=
  failsOnly_commit (.bind (Fault.explained_of_blames (blames_parent (h.succeeds_environment? _)))
    fun _ _ => Fault.explained_of_known (h.known_createTenant t))

theorem explained_addOds (h : v.store.Sound) (o : Ods) :
    FailsOnly (v.addOds o).1 Fault.Explained :=
  failsOnly_commit (.bind (Fault.explained_of_blames (blames_parent (h.succeeds_tenant? _)))
    fun _ _ => Fault.explained_of_known (h.known_createOds o))

theorem blames_checkEdOrg {s : Store} (h : s.Sound) (x : EdOrg) :
    FailsOnly (checkEdOrg s x) Fault.Blames := by
  refine .bind (blames_parent (h.succeeds_ods? _)) fun _ _ => ?_
  cases x.parent with
  | none => exact .ok ()
  | some id =>
    refine .bind (blames_parent (h.succeeds_edOrg? id)) fun above _ => ?_
    split
    · exact .ok ()
    · exact .error (Fault.blames_request _)

theorem explained_addEdOrg (h : v.store.Sound) (x : EdOrg) :
    FailsOnly (v.addEdOrg x).1 Fault.Explained := by
  rw [addEdOrg_eq_commit h]
  refine failsOnly_commit ?_
  refine .bind (Fault.explained_of_blames (blames_checkEdOrg h x)) fun _ hcheck => ?_
  have hparent := (checkEdOrg_eq_ok_iff.1 hcheck).2
  refine .bind (Fault.explained_of_known (h.known_createEdOrg x)) fun _ hcreate => ?_
  exact .of_succeeds ((h.createEdOrg hparent hcreate).exists_rebuildClosure x.ods)

/-- The closure of an ODS that is not stored is not rebuilt. -/
theorem failsOnly_rebuildClosure (h : v.store.Sound) (ods : ResourceId) :
    FailsOnly (v.rebuildClosure ods).1 (· = .notFound) := by
  refine failsOnly_commit (.found (.of_succeeds (h.succeeds_ods? ods)) (.error rfl) fun _ => ?_)
  exact .of_succeeds (h.exists_rebuildClosure ods)

/-- Whether a resource is stored can be told. -/
theorem succeeds_resourceExists {s : Store} (h : s.Sound) (r : ResourceRef) :
    Succeeds (resourceExists s r) := by
  cases r with
  | global => exact .pure _
  | environment id => exact .bind (h.succeeds_environment? id) fun _ _ => .pure _
  | tenant id => exact .bind (h.succeeds_tenant? id) fun _ _ => .pure _
  | ods id => exact .bind (h.succeeds_ods? id) fun _ _ => .pure _
  | edOrg id => exact .bind (h.succeeds_edOrg? id) fun _ _ => .pure _

/-- **An ownership that is refused is so for what it names.** -/
theorem explained_checkOwnership {s : Store} (h : s.Sound) (o : NewOwnership) :
    FailsOnly (checkOwnership s o) Fault.Explained := by
  have hmissing {α : Type} : FailsOnly (.error .notFound : Except Fault α) Fault.Explained :=
    .error Fault.explained_notFound
  refine .found (.of_succeeds (h.succeeds_team? o.team)) hmissing fun team => ?_
  refine .found (.of_succeeds (h.succeeds_role? o.role)) hmissing fun role => ?_
  dsimp only
  split
  · exact .error (Fault.blames_request _).explained
  · refine .bind (.of_succeeds (succeeds_resourceExists h o.resource)) fun found _ => ?_
    cases found with
    | true => exact .ok ()
    | false => exact .error (Fault.blames_resource _).explained

theorem explained_addOwnership (h : v.store.Sound) (hspare : v.store.Spare) (o : NewOwnership) :
    FailsOnly (v.addOwnership o).1 Fault.Explained := by
  have hadd : FailsOnly (do checkOwnership v.store o; v.store.createOwnership o)
      Fault.Explained :=
    .bind (explained_checkOwnership h o) fun _ hcheck =>
      .of_succeeds (hspare.succeeds_createOwnership (h.backs_of_check hcheck))
  rw [addOwnership]
  split
  · rename_i fault hfault
    exact .error (hadd fault hfault)
  · exact .ok _

theorem succeeds_removeOwnership (h : v.store.Sound) (id : OwnershipId) :
    Succeeds (v.removeOwnership id).1 := by
  obtain ⟨found, hfound⟩ := h.succeeds_ownership? id
  obtain ⟨⟨deleted, s⟩, hs⟩ := h.succeeds_deleteOwnership id
  rw [removeOwnership, hfound]
  cases found with
  | none => exact .ok _
  | some o =>
    dsimp only
    rw [hs]
    cases deleted <;> exact .ok _

theorem explained_replaceOwnership (h : v.store.Sound) (hspare : v.store.Spare)
    (id : OwnershipId) (o : NewOwnership) :
    FailsOnly (v.replaceOwnership id o).1 Fault.Explained := by
  simp only [replaceOwnership]
  split
  · rename_i hfault
    refine .error (FailsOnly.found (.of_succeeds (h.succeeds_ownership? id))
      (.error Fault.explained_notFound) (fun existing => ?_) _ hfault)
    refine .bind (explained_checkOwnership h o) fun _ hcheck => .bind ?_ fun _ _ => .ok _
    have hcreate := hspare.succeeds_createOwnership (h.backs_of_check hcheck)
    rw [Store.replaceOwnership_eq]
    refine .bind (.of_succeeds hcreate) fun added hadded => ?_
    have hdelete := (h.createOwnership hadded).succeeds_deleteOwnership id
    refine .bind (.of_succeeds hdelete) fun removed _ => ?_
    obtain ⟨deleted, _⟩ := removed
    cases deleted with
    | true => exact .ok _
    | false => exact .error Fault.explained_notFound
  · exact .ok _

end Service

end TeamAccess
