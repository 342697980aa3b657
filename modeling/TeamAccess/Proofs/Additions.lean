import TeamAccess.Proofs.Roles
import TeamAccess.Proofs.Run

/-!
# Additions — writes that go through

A write of the service goes through if what its row refers to is stored and its id is free. The
lemmas here say so for each kind of row, from what the store holds, and name the store afterwards.
They are how a particular service is set up: a new store is given an environment, a tenant, an ODS
and a team (`Service.grounds_run`), and further rows are laid on these grounds.
-/

namespace TeamAccess.Store

/-! ## Rows that are new -/

variable {s : Store}

/-- A tenant is inserted into an environment. -/
theorem createTenant_of_new {u : Tenant} {e : Environment} {t : Index TenantRow.id}
    (ht : s.tenants = some t) (he : s.HasEnvironment e) (hue : e.id = u.environment)
    (hfree : t.hasKey u.id = false)
    (hname : ∀ r ∈ t.rows, r.environment.equals u.environment = true → r.name ≠ u.name) :
    s.createTenant u = .ok { s with tenants := some (t.insert u.row) } := by
  obtain ⟨es, hes, hmem⟩ := he
  have hkey : es.hasKey u.environment = true := Index.hasKey_iff.2 ⟨e.row, hmem, hue⟩
  exact createTenant_eq_ok_iff.2 ⟨t, ht, es, hes, hfree, hname, hkey, rfl⟩

/-- An ODS is inserted into a tenant. -/
theorem createOds_of_new {o : Ods} {u : Tenant} {t : Index OdsRow.id} (ht : s.odss = some t)
    (hu : s.HasTenant u) (hou : u.id = o.tenant) (hfree : t.hasKey o.id = false) :
    s.createOds o = .ok { s with odss := some (t.insert o.row) } := by
  obtain ⟨us, hus, hmem⟩ := hu
  have hkey : us.hasKey o.tenant = true := Index.hasKey_iff.2 ⟨u.row, hmem, hou⟩
  exact createOds_eq_ok_iff.2 ⟨t, ht, us, hus, hfree, hkey, rfl⟩

/-- An organization is inserted into an ODS. -/
theorem createEdOrg_of_new {x : EdOrg} {o : Ods} {t : Index EdOrgRow.id} (ht : s.edOrgs = some t)
    (ho : s.HasOds o) (hxo : o.id = x.ods) (hparent : s.ParentIn x)
    (hfree : t.hasKey x.id = false) (hnew : ∀ r ∈ t.rows, r.ods.equals x.ods = true →
      r.organization.equals x.organization = false) :
    s.createEdOrg x = .ok { s with edOrgs := some (t.insert x.row) } := by
  obtain ⟨os, hos, hmem⟩ := ho
  have hkey : os.hasKey x.ods = true := Index.hasKey_iff.2 ⟨o.row, hmem, hxo⟩
  have hparents : ∀ p, x.parent = some p → p = x.id ∨ t.hasKey p = true := by
    intro p hp
    obtain ⟨y, ⟨t', ht', hy⟩, hid, -⟩ := hparent p hp
    obtain rfl := Option.some.inj (ht.symm.trans ht')
    exact .inr (Index.hasKey_iff.2 ⟨y.row, hy, hid⟩)
  exact createEdOrg_eq_ok_iff.2 ⟨t, ht, os, hos, hfree, hnew, hkey, hparents, rfl⟩

/-! ## Ids to hand out -/

/-- **The store has ids left** for teams, roles and ownerships. -/
structure Spare (s : Store) : Prop where
  teams : ∃ t id, s.teams = some t ∧ t.next? = some id
  roles : ∃ t id, s.roles = some t ∧ t.next? = some id
  ownerships : ∃ t id, s.ownerships = some t ∧ t.next? = some id

end TeamAccess.Store

namespace TeamAccess.Service

open Store (HasEnvironment HasTenant HasOds HasEdOrg HasTeam HasRole)

variable {v : Service}

/-! ## Rows of the hierarchy -/

/-- A hierarchy write that succeeds drops every cache. -/
theorem commit_of_ok {written : Except Fault Store} {s : Store} (h : written = .ok s) :
    v.commit written = (.ok (), v.afterWrite s) := by
  rw [h]
  rfl

/-- What a write that goes through leaves in the store. -/
theorem store_step_of_write (w : Write) {s : Store} (h : v.write w = (.ok (), v.afterWrite s)) :
    (v.step (.write w)).store = s := by
  rw [step, h]
  rfl

/-- An environment is added. -/
theorem addEnvironment_of_new {e : Environment} {t : Index EnvironmentRow.id}
    (ht : v.store.environments = some t) (hfree : t.hasKey e.id = false) :
    v.addEnvironment e =
      (.ok (), v.afterWrite { v.store with environments := some (t.insert e.row) }) :=
  commit_of_ok (Store.createEnvironment_eq_ok_iff.2 ⟨t, ht, hfree, rfl⟩)

/-- A tenant is added to an environment. -/
theorem addTenant_of_new {u : Tenant} {e : Environment} {t : Index TenantRow.id}
    (ht : v.store.tenants = some t) (he : v.store.HasEnvironment e) (hue : e.id = u.environment)
    (hfree : t.hasKey u.id = false)
    (hname : ∀ r ∈ t.rows, r.environment.equals u.environment = true → r.name ≠ u.name) :
    v.addTenant u = (.ok (), v.afterWrite { v.store with tenants := some (t.insert u.row) }) := by
  refine commit_of_ok (bind_eq_ok_iff.2 ⟨e, ?_, Store.createTenant_of_new ht he hue hfree hname⟩)
  exact parent_eq_ok_iff.2 (Store.environment?_eq_some_iff.2 ⟨he, hue⟩)

/-- An ODS is added to a tenant. -/
theorem addOds_of_new {o : Ods} {u : Tenant} {t : Index OdsRow.id} (ht : v.store.odss = some t)
    (hu : v.store.HasTenant u) (hou : u.id = o.tenant) (hfree : t.hasKey o.id = false) :
    v.addOds o = (.ok (), v.afterWrite { v.store with odss := some (t.insert o.row) }) := by
  refine commit_of_ok (bind_eq_ok_iff.2 ⟨u, ?_, Store.createOds_of_new ht hu hou hfree⟩)
  exact parent_eq_ok_iff.2 (Store.tenant?_eq_some_iff.2 ⟨hu, hou⟩)

/-- **An organization is added to an ODS**, with some closure. -/
theorem addEdOrg_of_new {x : EdOrg} {o : Ods} {t : Index EdOrgRow.id} (h : v.store.Sound)
    (ht : v.store.edOrgs = some t) (ho : v.store.HasOds o) (hxo : o.id = x.ods)
    (hparent : v.store.ParentIn x) (hfree : t.hasKey x.id = false)
    (hnew : ∀ r ∈ t.rows, r.ods.equals x.ods = true →
      r.organization.equals x.organization = false) :
    ∃ c, v.addEdOrg x = (.ok (), v.afterWrite
      { v.store with edOrgs := some (t.insert x.row), closure := some c }) := by
  have hcheck : checkEdOrg v.store x = .ok () := checkEdOrg_eq_ok_iff.2 ⟨⟨o, ho, hxo⟩, hparent⟩
  have hadd := Store.createEdOrg_of_new ht ho hxo hparent hfree hnew
  obtain ⟨s', hs'⟩ := (h.createEdOrg hparent hadd).exists_rebuildClosure x.ods
  obtain ⟨t', ht', c, hc, -, rfl⟩ := Store.rebuildClosure_eq_ok_iff.1 hs'
  rw [addEdOrg_eq_commit h]
  exact ⟨_, commit_of_ok (bind_eq_ok_iff.2 ⟨(), hcheck, bind_eq_ok_iff.2 ⟨_, hadd, hs'⟩⟩)⟩

/-! ## Teams and ownerships -/

/-- A team is added under a name that is new. -/
theorem step_addTeam_of_new {name : String} {t : Numbered TeamRow.id} {id : TeamId}
    (ht : v.store.teams = some t) (hid : t.next? = some id)
    (hname : ∀ u ∈ t.rows.rows, u.name ≠ .text name) : v.step (.addTeam name) =
      { v with store := { v.store with teams := some (t.push ⟨id, .text name⟩) } } := by
  have hcreate := Store.createTeam_eq_ok_iff.2 ⟨t, ht, id, hid, hname, rfl, rfl⟩
  rw [step, hcreate]
  rfl

/-- A stored ODS can be owned. -/
theorem resourceExists_ods {s : Store} {o : Ods} {n : ResourceId} (h : s.HasOds o)
    (hid : o.id = n) : resourceExists s (.ods n) = .ok true := by
  rw [resourceExists, Store.ods?_eq_some_iff.2 ⟨h, hid⟩]
  rfl

/-- A stored tenant can be owned. -/
theorem resourceExists_tenant {s : Store} {t : Tenant} {n : ResourceId} (h : s.HasTenant t)
    (hid : t.id = n) : resourceExists s (.tenant n) = .ok true := by
  rw [resourceExists, Store.tenant?_eq_some_iff.2 ⟨h, hid⟩]
  rfl

/-- A stored organization can be owned. -/
theorem resourceExists_edOrg {s : Store} {x : EdOrg} {n : ResourceId} (h : s.HasEdOrg x)
    (hid : x.id = n) : resourceExists s (.edOrg n) = .ok true := by
  rw [resourceExists, Store.edOrg?_eq_some_iff.2 ⟨h, hid⟩]
  rfl

/-- **An ownership is added** for a team that may use the role, of a resource that is stored. -/
theorem addOwnership_of_new {o : NewOwnership} {team : Team} {role : Role}
    {t : Numbered OwnershipRow.id} {id : OwnershipId} (ht : v.store.ownerships = some t)
    (hid : t.next? = some id) (hteam : v.store.HasTeam team) (hot : team.id = o.team)
    (hrole : v.store.HasRole role) (hor : role.id = o.role)
    (hadmits : role.scope.admits o.team = true)
    (hresource : resourceExists v.store o.resource = .ok true) :
    v.addOwnership o = (.ok (o.stored id v.store.now),
      ⟨{ v.store with ownerships := some (t.push (o.row id v.store.now)) },
        v.registry.invalidate o.team⟩) := by
  have hcheck : checkOwnership v.store o = .ok () := by
    rw [checkOwnership, Store.team?_eq_some_iff.2 ⟨hteam, hot⟩,
      Store.role?_eq_some_iff.2 ⟨hrole, hor⟩, hresource]
    simp [bind, Except.bind, hadmits]
  have hadd : v.store.createOwnership o = .ok (o.stored id v.store.now,
      { v.store with ownerships := some (t.push (o.row id v.store.now)) }) := by
    obtain ⟨teams, hteams, hmem⟩ := hteam
    obtain ⟨roles, hroles, r, hr, hload⟩ := hrole
    have hteamKey : teams.rows.hasKey o.team = true := Index.hasKey_iff.2 ⟨team.row, hmem, hot⟩
    have hroleKey : roles.rows.hasKey o.role = true :=
      Index.hasKey_iff.2 ⟨r, hr, (Store.loadRole_id hload).symm.trans hor⟩
    exact Store.createOwnership_eq_ok_iff.2
      ⟨t, ht, teams, hteams, roles, hroles, id, hid, hteamKey, hroleKey, rfl, rfl⟩
  have hall : (do checkOwnership v.store o; v.store.createOwnership o) = .ok
      (o.stored id v.store.now,
        { v.store with ownerships := some (t.push (o.row id v.store.now)) }) :=
    bind_eq_ok_iff.2 ⟨(), hcheck, hadd⟩
  rw [addOwnership, hall]
  rfl

/-- The only ownership that is stored is the only one of its team. -/
theorem ownsOnly_of_single {s : Store} {t : Numbered OwnershipRow.id} (o : NewOwnership)
    {id : OwnershipId} {stamp : Timestamp} {role : Role} (ht : s.ownerships = some t)
    (hrows : t.rows.rows = [o.row id stamp]) (hrole : s.HasRole role) (hor : o.role = role.id) :
    s.OwnsOnly o.team role o.resource := by
  obtain ⟨created, hload⟩ := o.load_row id stamp s.now
  have hteam : (o.row id stamp).team.equals o.team = true := IntCell.equals_int.2 rfl
  have hlist : t.rows.rows.filter (fun r => r.team.equals o.team) = [o.row id stamp] := by
    rw [hrows]
    exact List.filter_cons_of_pos hteam
  refine ⟨hrole, ⟨id, o.team, o.role, o.resource, created⟩, ?_, hor, rfl⟩
  refine Store.listOwnerships_eq_ok_iff.2 ⟨t, ht, ?_⟩
  rw [hlist]
  exact mapM_eq_ok_iff.2 (.cons hload .nil)

/-- **A team is given its first ownership**, by a built-in role. -/
theorem step_addOwnership_first {t : Team} {team : TeamId} {b : BuiltinRole} {role : RoleId}
    {r : ResourceRef} (hnone : v.store.ownerships = some Numbered.empty)
    (hteam : v.store.HasTeam t) (htid : t.id = team) (hrole : v.store.HasRole (Store.stored b role))
    (hresource : resourceExists v.store r = .ok true) :
    ∃ os, os.next? = some 2 ∧ (v.step (.write (.addOwnership ⟨team, role, r⟩))).store =
        { v.store with ownerships := some os } ∧
      (v.step (.write (.addOwnership ⟨team, role, r⟩))).store.OwnsOnly team
        (Store.stored b role) r := by
  have hnext : (Numbered.empty : Numbered OwnershipRow.id).next? = some 1 := by decide
  have hok : v.addOwnership ⟨team, role, r⟩ = _ :=
    addOwnership_of_new hnone hnext hteam htid hrole rfl rfl hresource
  have hstep : (v.step (.write (.addOwnership ⟨team, role, r⟩))).store =
      { v.store with ownerships := some (Numbered.empty.push
        ((⟨team, role, r⟩ : NewOwnership).row 1 v.store.now)) } := by
    rw [step, write, hok]
    rfl
  refine ⟨_, rfl, hstep, ?_⟩
  rw [hstep]
  exact ownsOnly_of_single ⟨team, role, r⟩ rfl rfl hrole rfl

/-! ## First grounds -/

/-- An environment, a tenant of it, an ODS of that, and a team. -/
def grounds : List Event :=
  [.write (.addEnvironment ⟨1, "East", .v1⟩), .write (.addTenant ⟨2, 1, "North"⟩),
    .write (.addOds ⟨3, 2, "Main", none⟩), .addTeam "Wardens"]

/-- What a store has that has been given these, and nothing else. -/
structure Grounds (s : Store) : Prop where
  environment : s.HasEnvironment ⟨1, "East", .v1⟩
  tenant : s.HasTenant ⟨2, 1, "North"⟩
  odss : s.odss = some (Index.empty.insert (Ods.row ⟨3, 2, "Main", none⟩))
  edOrgs : s.edOrgs = some Index.empty
  teams : s.teams = some (Numbered.empty.push ⟨1, .text "Wardens"⟩)
  owner : s.HasRole (Store.stored .environmentOwner 1)
  reader : s.HasRole (Store.stored .readOnly 3)
  ownerships : s.ownerships = some Numbered.empty
  spare : s.Spare

theorem Grounds.team {s : Store} (h : Grounds s) : s.HasTeam ⟨1, "Wardens"⟩ :=
  ⟨_, h.teams, Index.mem_insert.2 (.inl rfl)⟩

/-- A store without rows takes them, one after the other. -/
theorem grounds_of_unfilled {s : Store} (mode : CacheMode) (h : s.Unfilled)
    (howner : s.HasRole (Store.stored .environmentOwner 1))
    (hreader : s.HasRole (Store.stored .readOnly 3))
    (hroles : ∃ t id, s.roles = some t ∧ t.next? = some id) :
    Grounds ((start s mode).run grounds).store := by
  have hfirst {ρ : Type} {key : ρ → Int64} (r : ρ) :
      r ∈ (Index.empty : Index key).insert r := Index.mem_insert.2 (.inl rfl)
  -- Each write goes through, as its table is still empty and the row above it was just added.
  obtain ⟨v₁, h₁, hs₁⟩ : ∃ v₁,
      (start s mode).step (.write (.addEnvironment ⟨1, "East", .v1⟩)) = v₁ ∧
        v₁.store = { s with
          environments := some (Index.empty.insert (Environment.row ⟨1, "East", .v1⟩)) } :=
    ⟨_, rfl, store_step_of_write _ (addEnvironment_of_new h.environments rfl)⟩
  obtain ⟨v₂, h₂, hs₂⟩ : ∃ v₂, v₁.step (.write (.addTenant ⟨2, 1, "North"⟩)) = v₂ ∧
      v₂.store = { v₁.store with
        tenants := some (Index.empty.insert (Tenant.row ⟨2, 1, "North"⟩)) } := by
    have henvironment : v₁.store.HasEnvironment ⟨1, "East", .v1⟩ := by
      rw [hs₁]
      exact ⟨_, rfl, hfirst _⟩
    have htenants : v₁.store.tenants = some Index.empty := by rw [hs₁, h.tenants]
    refine ⟨_, rfl, store_step_of_write _ (addTenant_of_new htenants henvironment rfl rfl ?_)⟩
    exact fun _ hr => absurd hr List.not_mem_nil
  obtain ⟨v₃, h₃, hs₃⟩ : ∃ v₃, v₂.step (.write (.addOds ⟨3, 2, "Main", none⟩)) = v₃ ∧
      v₃.store = { v₂.store with
        odss := some (Index.empty.insert (Ods.row ⟨3, 2, "Main", none⟩)) } := by
    have htenant : v₂.store.HasTenant ⟨2, 1, "North"⟩ := by
      rw [hs₂]
      exact ⟨_, rfl, hfirst _⟩
    have hodss : v₂.store.odss = some Index.empty := by rw [hs₂, hs₁, h.odss]
    exact ⟨_, rfl, store_step_of_write _ (addOds_of_new hodss htenant rfl rfl)⟩
  obtain ⟨v₄, h₄, hs₄⟩ : ∃ v₄, v₃.step (.addTeam "Wardens") = v₄ ∧
      v₄.store = { v₃.store with teams := some (Numbered.empty.push ⟨1, .text "Wardens"⟩) } := by
    have hteams : v₃.store.teams = some Numbered.empty := by rw [hs₃, hs₂, hs₁, h.teams]
    have hnone : ∀ u ∈ (Numbered.empty : Numbered TeamRow.id).rows.rows, u.name ≠ .text "Wardens" :=
      fun _ hu => absurd hu List.not_mem_nil
    exact ⟨_, step_addTeam_of_new hteams (by decide) hnone, rfl⟩
  have hrun : (start s mode).run grounds = v₄ := by
    rw [grounds, run, List.foldl_cons, h₁, List.foldl_cons, h₂, List.foldl_cons, h₃,
      List.foldl_cons, h₄, List.foldl_nil]
  rw [hrun, hs₄, hs₃, hs₂, hs₁]
  exact {
    environment := ⟨_, rfl, hfirst _⟩
    tenant := ⟨_, rfl, hfirst _⟩
    odss := rfl
    edOrgs := h.edOrgs
    teams := rfl
    owner := howner
    reader := hreader
    ownerships := h.ownerships
    spare := ⟨⟨_, 2, rfl, by decide⟩, hroles, ⟨_, 1, h.ownerships, by decide⟩⟩ }

/-- **A new store takes them.** -/
theorem grounds_run (mode : CacheMode) (now : Timestamp) :
    Grounds ((initial mode now).run grounds).store := by
  obtain ⟨hseeded, howner, -, hreader⟩ := Store.fresh_spec now
  exact grounds_of_unfilled mode (Store.unfilled_fresh now) howner hreader
    ⟨_, 4, hseeded.roles, by decide⟩

end TeamAccess.Service
