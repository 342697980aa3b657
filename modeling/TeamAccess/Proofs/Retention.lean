import TeamAccess.Proofs.Memory
import TeamAccess.Proofs.Contents
import TeamAccess.Proofs.Writes

/-!
# Retention — changes that a build does not see

Not every change of the store drops caches, so those that do not must leave every build as it was.
`Store.Retains` says when a change does so for a team: the hierarchy is the same, roles that could
be read read the same, and so do role and resource of each of the team's ownerships. Time, new teams
and the ownerships of other teams are such changes, and so is a new role, since its id is new.
-/

namespace TeamAccess.Store

variable {s s' : Store}

/-! ## The same hierarchy -/

/-- The tables of the hierarchy are the same. -/
structure SameHierarchy (s s' : Store) : Prop where
  environments : s'.environments = s.environments
  tenants : s'.tenants = s.tenants
  odss : s'.odss = s.odss
  edOrgs : s'.edOrgs = s.edOrgs
  closure : s'.closure = s.closure

namespace SameHierarchy

/-- A write to the ownerships leaves the hierarchy. -/
theorem of_ownerships {os : Option (Numbered OwnershipRow.id)}
    (h : s' = { s with ownerships := os }) : SameHierarchy s s' := by
  subst h
  exact ⟨rfl, rfl, rfl, rfl, rfl⟩

theorem environment?_eq (h : SameHierarchy s s') : s'.environment? = s.environment? := by
  funext id
  simp only [environment?, h.environments]

theorem tenant?_eq (h : SameHierarchy s s') : s'.tenant? = s.tenant? := by
  funext id
  simp only [tenant?, h.tenants]

theorem ods?_eq (h : SameHierarchy s s') : s'.ods? = s.ods? := by
  funext id
  simp only [ods?, h.odss]

theorem edOrg?_eq (h : SameHierarchy s s') : s'.edOrg? = s.edOrg? := by
  funext id
  simp only [edOrg?, h.edOrgs]

/-- Organizations have the same keys. -/
theorem keysOf_eq (h : SameHierarchy s s') (version : ApiVersion) (xs : List EdOrg) :
    s'.keysOf version xs = s.keysOf version xs := by
  have hkey (x : EdOrg) : s'.keyOf? version x = s.keyOf? version x := by
    cases version <;> simp only [keyOf?, h.ods?_eq]
  induction xs with
  | nil => rfl
  | cons x xs ih => simp only [keysOf, hkey, ih]

/-- Resources reach the same. -/
theorem expansion_eq (h : SameHierarchy s s') (r : ResourceRef) :
    s'.expansion r = s.expansion r := by
  have hpart (ods : ResourceId) (ownsOds : Bool) (xs : List EdOrg) :
      s'.partOf ods ownsOds xs = s.partOf ods ownsOds xs := by
    simp only [partOf, h.ods?_eq, h.tenant?_eq, h.environment?_eq, h.keysOf_eq]
  cases r with
  | global => rfl
  | environment n => simp only [expansion, h.environment?_eq, listTenants, h.tenants]
  | tenant n => simp only [expansion, h.tenant?_eq, h.environment?_eq]
  | ods n => simp only [expansion, hpart, listOdsEdOrgs, h.edOrgs]
  | edOrg n => simp only [expansion, hpart, h.edOrg?_eq, listDescendants, h.edOrgs, h.closure]

end SameHierarchy

/-! ## The same builds -/

/-- The ownerships are by the same role over the same resource. -/
def Alike (o o' : Ownership) : Prop := o'.role = o.role ∧ o'.resource = o.resource

/-- **A change that no build of the team's cache sees.** -/
structure Retains (s s' : Store) (team : TeamId) : Prop where
  hierarchy : SameHierarchy s s'
  roles : ∀ id role, s.role? id = .ok (some role) → s'.role? id = .ok (some role)
  ownerships : ∀ os, s.listOwnerships team = .ok os →
    ∃ os', s'.listOwnerships team = .ok os' ∧ List.Forall₂ Alike os os'

namespace Retains

variable {team : TeamId}

/-- An ownership adds what it added. -/
theorem addTo (h : Retains s s' team) {c c' : Cache} {o o' : Ownership} (ho : Alike o o')
    (hadd : s.addTo c o = .ok c') : s'.addTo c o' = .ok c' := by
  obtain ⟨role?, hrole, hadd⟩ := bind_eq_ok_iff.1 hadd
  cases role? with
  | none => cases hadd
  | some role =>
    refine bind_eq_ok_iff.2 ⟨some role, ho.1 ▸ h.roles _ _ hrole, ?_⟩
    simp only [ho.2, h.hierarchy.expansion_eq]
    exact hadd

/-- Ownerships add what they added. -/
theorem foldlM_addTo (h : Retains s s' team) {os os' : List Ownership}
    (ho : List.Forall₂ Alike os os') {c c' : Cache} (hadd : os.foldlM s.addTo c = .ok c') :
    os'.foldlM s'.addTo c = .ok c' := by
  induction ho generalizing c with
  | nil => exact hadd
  | cons hhead _ ih =>
    obtain ⟨c₁, h₁, h₂⟩ := bind_eq_ok_iff.1 hadd
    exact bind_eq_ok_iff.2 ⟨c₁, h.addTo hhead h₁, ih h₂⟩

/-- **A build gives what it gave.** -/
theorem buildCache (h : Retains s s' team) {c : Cache} (hbuild : s.buildCache team = .ok c) :
    s'.buildCache team = .ok c := by
  rw [buildCache_eq] at hbuild ⊢
  obtain ⟨os, hos, hadd⟩ := bind_eq_ok_iff.1 hbuild
  obtain ⟨os', hos', halike⟩ := h.ownerships os hos
  exact bind_eq_ok_iff.2 ⟨os', hos', h.foldlM_addTo halike hadd⟩

/-- Ownerships that are the same are alike. -/
theorem forall₂_alike (os : List Ownership) : List.Forall₂ Alike os os :=
  List.forall₂_same.2 fun _ _ => ⟨rfl, rfl⟩

/-- Nothing that builds read has changed. -/
theorem of_eq (hhierarchy : SameHierarchy s s') (hroles : s'.roles = s.roles)
    (hprivileges : s'.privileges = s.privileges)
    (hownerships : s'.listOwnerships team = s.listOwnerships team) : Retains s s' team where
  hierarchy := hhierarchy
  roles id role h := by
    have hload : s'.loadRole = s.loadRole := by
      funext r
      simp only [loadRole, loadPrivileges, hprivileges]
    rwa [role?, hroles, hload]
  ownerships os h := ⟨os, hownerships.trans h, forall₂_alike os⟩

end Retains

/-! ## Writes that builds do not see -/

/-- A row is read as an ownership by the same role over the same resource at any time. -/
theorem alike_of_load {r : OwnershipRow} {now : Timestamp} {o : Ownership} (h : r.load now = .ok o)
    (now' : Timestamp) : ∃ o', r.load now' = .ok o' ∧ Alike o o' := by
  simp only [OwnershipRow.load, bind_eq_ok_iff] at h ⊢
  obtain ⟨team, hteam, role, hrole, kind, hkind, id, hid, created, hcreated, h⟩ := h
  -- The clock counts only where the text of the time is no time, and then for the time alone.
  have htime : ∃ created', r.time now' = .ok created' := by
    unfold OwnershipRow.time at hcreated ⊢
    cases hc : r.createdAt with
    | none =>
      rw [hc] at hcreated
      cases hcreated
    | some c =>
      rw [hc] at hcreated
      obtain ⟨text, htext, -⟩ := bind_eq_ok_iff.1 hcreated
      exact ⟨_, bind_eq_ok_iff.2 ⟨text, htext, rfl⟩⟩
  obtain ⟨created', hcreated'⟩ := htime
  cases hr : ResourceRef.ofParts kind id with
  | error _ =>
    rw [hr] at h
    cases h
  | ok resource =>
    rw [hr] at h
    cases h
    refine ⟨⟨r.id, team, role, resource, created'⟩, ?_, rfl, rfl⟩
    exact ⟨team, hteam, role, hrole, kind, hkind, id, hid, created', hcreated', by rw [hr]⟩

/-- Rows are read as ownerships by the same roles over the same resources at any time. -/
theorem alike_of_mapM_load {rows : List OwnershipRow} {now : Timestamp} {os : List Ownership}
    (h : rows.mapM (fun r => r.load now) = .ok os) (now' : Timestamp) :
    ∃ os', rows.mapM (fun r => r.load now') = .ok os' ∧ List.Forall₂ Alike os os' := by
  induction mapM_eq_ok_iff.1 h with
  | nil => exact ⟨[], rfl, .nil⟩
  | cons hload hrest ih =>
    obtain ⟨os', hos', halike⟩ := ih (mapM_eq_ok_iff.2 hrest)
    obtain ⟨o', hload', ho'⟩ := alike_of_load hload now'
    exact ⟨o' :: os', mapM_eq_ok_iff.2 (.cons hload' (mapM_eq_ok_iff.1 hos')), .cons ho' halike⟩

variable {team : TeamId}

/-- Time passes. -/
theorem retains_withNow (now : Timestamp) : Retains s { s with now } team where
  hierarchy := ⟨rfl, rfl, rfl, rfl, rfl⟩
  roles _ _ h := h
  ownerships os h := by
    obtain ⟨t, ht, h⟩ := listOwnerships_eq_ok_iff.1 h
    obtain ⟨os', hos', halike⟩ := alike_of_mapM_load h now
    exact ⟨os', listOwnerships_eq_ok_iff.2 ⟨t, ht, hos'⟩, halike⟩

/-- A new team has no part in any build. -/
theorem retains_createTeam {name : String} {created : Team}
    (hok : s.createTeam name = .ok (created, s')) : Retains s s' team := by
  obtain ⟨t, -, id, -, -, -, rfl⟩ := createTeam_eq_ok_iff.1 hok
  exact .of_eq ⟨rfl, rfl, rfl, rfl, rfl⟩ rfl rfl rfl

/-- The privileges of other roles are read as they were. -/
theorem loadPrivileges_withPrivileges {roles : Option (Numbered RoleRow.id)} {id n : RoleId}
    {ps : KeySet Privilege} (hne : n ≠ id) :
    loadPrivileges { s with
      roles := roles
      privileges := s.privileges.map fun rows => withPrivileges rows id ps } n =
        s.loadPrivileges n := by
  unfold loadPrivileges
  cases s.privileges with
  | none => rfl
  | some rows =>
    have hrows : (withPrivileges rows id ps).filter (fun p => p.role.equals n) =
        rows.filter fun p => p.role.equals n := by
      refine Index.ext_mem fun p => ?_
      rw [Index.mem_filter, Index.mem_filter]
      exact and_congr_left fun hp => mem_withPrivileges_iff hp hne
    have hlist := congrArg Index.rows hrows
    simp only [Index.filter] at hlist
    simp only [Option.map_some, need, Option.elim_some, bind, Except.bind, hlist]

/-- A new role has a new id, so it changes no role that a build has read. -/
theorem retains_createRole {name : String} {scope : RoleScope} {ps : KeySet Privilege} {role : Role}
    (hok : s.createRole name scope ps = .ok (role, s')) : Retains s s' team := by
  obtain ⟨t, ht, id, hid, -, rfl⟩ := createRole_eq_ok hok
  refine ⟨⟨rfl, rfl, rfl, rfl, rfl⟩, fun n role h => ?_, fun os h =>
    ⟨os, h, Retains.forall₂_alike os⟩⟩
  rw [role?_eq_some_iff] at h ⊢
  obtain ⟨⟨t', ht', r, hr, hload⟩, hn⟩ := h
  obtain rfl := Option.some.inj (ht.symm.trans ht')
  have hne : r.id ≠ id := Numbered.ne_of_next? hid hr
  refine ⟨⟨_, rfl, r, Index.mem_insert.2 (.inr ⟨hr, hne⟩), ?_⟩, hn⟩
  simp only [loadRole, loadPrivileges_withPrivileges hne]
  exact hload

/-- Ownerships that are of another team before and after do not show in a team's list. -/
theorem retains_of_filter {t : Numbered OwnershipRow.id} {rows : Index OwnershipRow.id}
    {last : Int64} (ht : s.ownerships = some t)
    (hrows : rows.filter (fun r => r.team.equals team) =
      t.rows.filter fun r => r.team.equals team) :
    Retains s { s with ownerships := some ⟨rows, last⟩ } team := by
  refine .of_eq ⟨rfl, rfl, rfl, rfl, rfl⟩ rfl rfl ?_
  have hlist := congrArg Index.rows hrows
  simp only [Index.filter] at hlist
  simp only [listOwnerships, ht, need, Option.elim_some, bind, Except.bind, hlist]

/-- A new ownership of another team. -/
theorem retains_createOwnership {o : NewOwnership} {created : Ownership}
    (hok : s.createOwnership o = .ok (created, s')) (hteam : team ≠ o.team) :
    Retains s s' team := by
  obtain ⟨t, ht, -, -, -, -, id, hid, -, -, -, rfl⟩ := createOwnership_eq_ok_iff.1 hok
  refine retains_of_filter ht (Index.filter_insert ?_ fun r hr => Numbered.ne_of_next? hid hr)
  rw [Bool.eq_false_iff, NewOwnership.row, ne_eq, IntCell.equals_int]
  exact hteam.symm

/-- One ownership of another team less. -/
theorem retains_deleteOwnership {id : OwnershipId} {found : Bool} {o : Ownership}
    (hok : s.deleteOwnership id = .ok (found, s')) (ho : s.HasOwnership o) (hid : o.id = id)
    (hteam : team ≠ o.team) : Retains s s' team := by
  obtain ⟨t, ht, -, -, -, rfl⟩ := deleteOwnership_eq_ok_iff.1 hok
  obtain ⟨t', ht', r, hr, hload⟩ := ho
  obtain rfl := Option.some.inj (ht.symm.trans ht')
  obtain ⟨hrid, hrteam, -⟩ := OwnershipRow.columns_of_load hload
  -- The one row that is erased is the ownership's, and that is of another team.
  refine retains_of_filter ht (Index.filter_erase fun r' hr' hid' => ?_)
  obtain rfl := Index.eq_of_key_eq hr hr' (hrid.trans (hid.trans hid'.symm))
  rw [Bool.eq_false_iff, hrteam, ne_eq, IntCell.equals_int]
  exact hteam.symm

/-- An ownership that is there is there after another was added. -/
theorem HasOwnership.createOwnership {o : NewOwnership} {created old : Ownership}
    (hok : s.createOwnership o = .ok (created, s')) (hold : s.HasOwnership old) :
    s'.HasOwnership old := by
  obtain ⟨t, ht, -, -, -, -, id, hid, -, -, -, rfl⟩ := createOwnership_eq_ok_iff.1 hok
  obtain ⟨t', ht', r, hr, hload⟩ := hold
  obtain rfl := Option.some.inj (ht.symm.trans ht')
  exact ⟨_, rfl, r, Index.mem_insert.2 (.inr ⟨hr, Numbered.ne_of_next? hid hr⟩), hload⟩

/-- Built-in roles are added as roles are, and builds give what they gave. -/
theorem buildCache_seedAll {rs : List BuiltinRole} {c : Cache}
    (hbuild : s.buildCache team = .ok c) : (s.seedAll rs).2.buildCache team = .ok c :=
  seedAll_induction (P := fun s => s.buildCache team = .ok c)
    (fun _ _ _ _ hs hadd => (retains_createRole hadd).buildCache hs) hbuild rs

end TeamAccess.Store
