import TeamAccess.Proofs.Fallible
import TeamAccess.Index.Lemmas
import TeamAccess.Store.Closure
import TeamAccess.Store.Hierarchy
import TeamAccess.Store.Ownerships
import TeamAccess.Store.Teams

/-!
# What a store holds

A store holds an environment, a tenant and so on if its table has the row of it. These relations say
nothing of how tables are searched, and every read of the store is put in terms of them here: a
look-up finds what is held under its id, and a list has what is held of its kind and place. A row
that cannot be read back is the row of nothing, so it is held by no relation; a read that meets such
a row fails, and the lemmas on reads that succeed are silent on it.
-/

namespace TeamAccess

/-! ## Rows and what they are rows of -/

/-- A version is known by its name. -/
theorem ApiVersion.ofName?_eq_some_iff {name : String} {v : ApiVersion} :
    ofName? name = some v ↔ name = v.name := by
  constructor
  · fun_cases ofName? name <;> rintro ⟨⟩ <;> rfl
  · rintro rfl
    cases v <;> rfl

/-- A privilege is known by its code. -/
theorem Privilege.ofCode?_code (p : Privilege) : ofCode? p.code = some p := by
  cases p <;> rfl

/-- The privilege of a code is the one that has it. -/
theorem Privilege.ofCode?_eq_some_iff {code : String} {p : Privilege} :
    ofCode? code = some p ↔ code = p.code := by
  constructor
  · intro h
    have hp := List.find?_some h
    exact Eq.symm (by simpa using hp)
  · rintro rfl
    exact p.ofCode?_code

/-- Different privileges have different codes. -/
theorem Privilege.code_injective : Function.Injective code := by
  intro p q h
  have hp := ofCode?_code p
  rw [h, ofCode?_code q] at hp
  exact (Option.some.inj hp).symm

/-- Only an integer is read from a cell. -/
@[simp] theorem IntCell.load_eq_ok_iff {c : IntCell} {n : Int64} : c.load = .ok n ↔ c = .int n := by
  cases c <;> simp [load, int?]

/-- An integer is read as it is. -/
@[simp] theorem IntCell.load_int (n : Int64) : (int n).load = .ok n := rfl

/-- An empty cell is read as nothing, a full one by its integer. -/
@[simp] theorem IntCell.load?_eq_ok_iff {c : Option IntCell} {n : Option Int64} :
    load? c = .ok n ↔ c = n.map .int := by
  cases c with
  | none => cases n <;> simp [load?]
  | some c => cases n <;> simp [load?]

/-- Only a text is read from a cell of texts. -/
@[simp] theorem TextCell.load_eq_ok_iff {c : TextCell} {s : String} :
    c.load = .ok s ↔ c = .text s := by
  cases c <;> simp [load, text?]

/-- A text is read as it is. -/
@[simp] theorem TextCell.load_text (s : String) : (text s).load = .ok s := rfl

/-- An environment is read from its row. -/
@[simp] theorem EnvironmentRow.load_eq_ok_iff {r : EnvironmentRow} {e : Environment} :
    r.load = .ok e ↔ r = e.row := by
  obtain ⟨id, name, version⟩ := r
  obtain ⟨id', name', version'⟩ := e
  simp only [load, Environment.row, bind_eq_ok_iff, TextCell.load_eq_ok_iff,
    EnvironmentRow.mk.injEq]
  constructor
  · rintro ⟨version, rfl, name, rfl, h⟩
    split at h
    · cases h
    · rename_i hversion
      cases h
      exact ⟨rfl, rfl, congrArg _ (ApiVersion.ofName?_eq_some_iff.1 hversion)⟩
  · rintro ⟨rfl, rfl, rfl⟩
    refine ⟨_, rfl, _, rfl, ?_⟩
    rw [ApiVersion.ofName?_eq_some_iff.2 rfl]

/-- A tenant is read from its row. -/
@[simp] theorem TenantRow.load_eq_ok_iff {r : TenantRow} {t : Tenant} :
    r.load = .ok t ↔ r = t.row := by
  obtain ⟨id, environment, name⟩ := r
  obtain ⟨id', environment', name'⟩ := t
  simp only [load, Tenant.row, bind_eq_ok_iff, IntCell.load_eq_ok_iff, TextCell.load_eq_ok_iff,
    pure_eq_ok_iff, Tenant.mk.injEq, TenantRow.mk.injEq]
  constructor
  · rintro ⟨_, rfl, _, rfl, rfl, rfl, rfl⟩
    exact ⟨rfl, rfl, rfl⟩
  · rintro ⟨rfl, rfl, rfl⟩
    exact ⟨_, rfl, _, rfl, rfl, rfl, rfl⟩

/-- An ODS is read from its row. -/
@[simp] theorem OdsRow.load_eq_ok_iff {r : OdsRow} {o : Ods} : r.load = .ok o ↔ r = o.row := by
  obtain ⟨id, tenant, name, inst⟩ := r
  obtain ⟨id', tenant', name', inst'⟩ := o
  simp only [load, Ods.row, bind_eq_ok_iff, IntCell.load_eq_ok_iff, IntCell.load?_eq_ok_iff,
    TextCell.load_eq_ok_iff, pure_eq_ok_iff, Ods.mk.injEq, OdsRow.mk.injEq]
  constructor
  · rintro ⟨_, rfl, _, rfl, _, rfl, rfl, rfl, rfl, rfl⟩
    exact ⟨rfl, rfl, rfl, rfl⟩
  · rintro ⟨rfl, rfl, rfl, rfl⟩
    exact ⟨_, rfl, _, rfl, _, rfl, rfl, rfl, rfl, rfl⟩

/-- An organization is read from its row. -/
@[simp] theorem EdOrgRow.load_eq_ok_iff {r : EdOrgRow} {x : EdOrg} :
    r.load = .ok x ↔ r = x.row := by
  obtain ⟨id, ods, organization, name, parent⟩ := r
  obtain ⟨id', ods', organization', name', parent'⟩ := x
  simp only [load, EdOrg.row, bind_eq_ok_iff, IntCell.load_eq_ok_iff, IntCell.load?_eq_ok_iff,
    TextCell.load_eq_ok_iff, pure_eq_ok_iff, EdOrg.mk.injEq, EdOrgRow.mk.injEq]
  constructor
  · rintro ⟨_, rfl, _, rfl, _, rfl, _, rfl, rfl, rfl, rfl, rfl, rfl⟩
    exact ⟨rfl, rfl, rfl, rfl, rfl⟩
  · rintro ⟨rfl, rfl, rfl, rfl, rfl⟩
    exact ⟨_, rfl, _, rfl, _, rfl, _, rfl, rfl, rfl, rfl, rfl, rfl⟩

/-- A team is read from its row. -/
@[simp] theorem TeamRow.load_eq_ok_iff {r : TeamRow} {t : Team} : r.load = .ok t ↔ r = t.row := by
  obtain ⟨id, name⟩ := r
  obtain ⟨id', name'⟩ := t
  simp only [load, Team.row, bind_eq_ok_iff, TextCell.load_eq_ok_iff, pure_eq_ok_iff,
    Team.mk.injEq, TeamRow.mk.injEq]
  constructor
  · rintro ⟨_, rfl, rfl, rfl⟩
    exact ⟨rfl, rfl⟩
  · rintro ⟨rfl, rfl⟩
    exact ⟨_, rfl, rfl, rfl⟩

/-- An environment is known by its row. -/
theorem Environment.row_inj {e e' : Environment} (h : e.row = e'.row) : e = e' :=
  Except.ok.inj
    ((EnvironmentRow.load_eq_ok_iff.2 rfl).symm.trans (EnvironmentRow.load_eq_ok_iff.2 h))

/-- A tenant is known by its row. -/
theorem Tenant.row_inj {t t' : Tenant} (h : t.row = t'.row) : t = t' :=
  Except.ok.inj ((TenantRow.load_eq_ok_iff.2 rfl).symm.trans (TenantRow.load_eq_ok_iff.2 h))

/-- An ODS is known by its row. -/
theorem Ods.row_inj {o o' : Ods} (h : o.row = o'.row) : o = o' :=
  Except.ok.inj ((OdsRow.load_eq_ok_iff.2 rfl).symm.trans (OdsRow.load_eq_ok_iff.2 h))

/-- An organization is known by its row. -/
theorem EdOrg.row_inj {x x' : EdOrg} (h : x.row = x'.row) : x = x' :=
  Except.ok.inj ((EdOrgRow.load_eq_ok_iff.2 rfl).symm.trans (EdOrgRow.load_eq_ok_iff.2 h))

/-- The integer in a cell. -/
theorem IntCell.int?_eq_some_iff {c : IntCell} {n : Int64} : c.int? = some n ↔ c = .int n := by
  cases c <;> simp [int?]

/-- What an ownership's columns are read as. -/
theorem OwnershipRow.columns_of_load {r : OwnershipRow} {now : Timestamp} {o : Ownership}
    (h : r.load now = .ok o) :
    r.id = o.id ∧ r.team = .int o.team ∧ r.role = .int o.role := by
  simp only [load, bind_eq_ok_iff, IntCell.load_eq_ok_iff] at h
  obtain ⟨team, hteam, role, hrole, kind, -, id, -, created, -, h⟩ := h
  split at h
  · cases h
  · cases h
    exact ⟨rfl, hteam, hrole⟩

/-- Every column of an ownership's row can be read. -/
theorem OwnershipRow.isReadable_of_load {r : OwnershipRow} {now : Timestamp} {o : Ownership}
    (h : r.load now = .ok o) : r.isReadable = true := by
  simp only [load, time, bind_eq_ok_iff, IntCell.load_eq_ok_iff, IntCell.load?_eq_ok_iff,
    TextCell.load_eq_ok_iff] at h
  obtain ⟨team, hteam, role, hrole, kind, hkind, id, hid, created, hcreated, -⟩ := h
  split at hcreated
  · cases hcreated
  · rename_i c hc
    simp only [bind_eq_ok_iff, TextCell.load_eq_ok_iff] at hcreated
    obtain ⟨text, rfl, -⟩ := hcreated
    cases id <;> simp [isReadable, hteam, hrole, hkind, hid, hc, IntCell.int?, TextCell.text?]

/-- A role keeps the id of its row. -/
theorem Store.loadRole_id {s : Store} {r : RoleRow} {role : Role} (h : s.loadRole r = .ok role) :
    role.id = r.id := by
  simp only [loadRole, bind_eq_ok_iff, pure_eq_ok_iff] at h
  obtain ⟨_, -, _, -, _, -, rfl⟩ := h
  rfl

@[simp] theorem Environment.row_id (e : Environment) : e.row.id = e.id := rfl
@[simp] theorem Tenant.row_id (t : Tenant) : t.row.id = t.id := rfl
@[simp] theorem Ods.row_id (o : Ods) : o.row.id = o.id := rfl
@[simp] theorem EdOrg.row_id (x : EdOrg) : x.row.id = x.id := rfl
@[simp] theorem Team.row_id (t : Team) : t.row.id = t.id := rfl
@[simp] theorem Tenant.row_environment (t : Tenant) : t.row.environment = .int t.environment := rfl
@[simp] theorem Ods.row_tenant (o : Ods) : o.row.tenant = .int o.tenant := rfl
@[simp] theorem EdOrg.row_ods (x : EdOrg) : x.row.ods = .int x.ods := rfl
@[simp] theorem EdOrg.row_parent (x : EdOrg) : x.row.parent = x.parent.map .int := rfl

namespace Store

variable {s : Store}

/-! ## What is held -/

/-- The environment is stored. -/
def HasEnvironment (s : Store) (e : Environment) : Prop :=
  ∃ t, s.environments = some t ∧ e.row ∈ t

/-- The tenant is stored. -/
def HasTenant (s : Store) (t : Tenant) : Prop := ∃ u, s.tenants = some u ∧ t.row ∈ u

/-- The ODS is stored. -/
def HasOds (s : Store) (o : Ods) : Prop := ∃ t, s.odss = some t ∧ o.row ∈ t

/-- The organization is stored. -/
def HasEdOrg (s : Store) (x : EdOrg) : Prop := ∃ t, s.edOrgs = some t ∧ x.row ∈ t

/-- The closure has the organization `d` below the organization `a`. -/
def LiesBelow (s : Store) (a d : ResourceId) : Prop :=
  ∃ t, s.closure = some t ∧ ∃ r, r ∈ t ∧ r.ancestor.equals a ∧ r.descendant = .int d

/-- The team is stored. -/
def HasTeam (s : Store) (t : Team) : Prop := ∃ u, s.teams = some u ∧ t.row ∈ u.rows

/-- The role is stored, with just these privileges. -/
def HasRole (s : Store) (role : Role) : Prop :=
  ∃ t, s.roles = some t ∧ ∃ r, r ∈ t.rows ∧ s.loadRole r = .ok role

/-- The ownership is stored. -/
def HasOwnership (s : Store) (o : Ownership) : Prop :=
  ∃ t, s.ownerships = some t ∧ ∃ r, r ∈ t.rows ∧ r.load s.now = .ok o

/-! ## Look-ups -/

section LookUp

variable {ρ α : Type} {key : ρ → Int64} {load : ρ → Except Fault α} {t : Index key} {id : Int64}

/-- A look-up in a table finds what the row of the id reads as. -/
theorem lookUp_eq_some_iff {a : α} :
    lookUp t load id = .ok (some a) ↔ ∃ r, r ∈ t ∧ key r = id ∧ load r = .ok a := by
  unfold lookUp
  cases hf : t.find? id with
  | none =>
    simp only [Option.mapM_none, pure_eq_ok_iff, reduceCtorEq, false_iff, not_exists, not_and]
    intro r hr hid
    exact absurd hid (Index.find?_eq_none_iff.1 hf r hr)
  | some r =>
    obtain ⟨hr, hid⟩ := Index.find?_eq_some_iff.1 hf
    simp only [Option.mapM_some, map_eq_ok_iff, Option.some.injEq, exists_eq_right]
    constructor
    · intro h
      exact ⟨r, hr, hid, h⟩
    · rintro ⟨r', hr', hid', h⟩
      rwa [Index.eq_of_key_eq hr hr' (hid.trans hid'.symm)]

end LookUp

/-- **A look-up finds the environment that is held under the id.** -/
theorem environment?_eq_some_iff {id : ResourceId} {e : Environment} :
    s.environment? id = .ok (some e) ↔ s.HasEnvironment e ∧ e.id = id := by
  simp only [environment?, bind_eq_ok_iff, need_eq_ok_iff, lookUp_eq_some_iff, HasEnvironment,
    EnvironmentRow.load_eq_ok_iff]
  constructor
  · rintro ⟨t, ht, r, hr, hid, rfl⟩
    exact ⟨⟨t, ht, hr⟩, hid⟩
  · rintro ⟨⟨t, ht, hr⟩, hid⟩
    exact ⟨t, ht, _, hr, hid, rfl⟩

/-- **A look-up finds the tenant that is held under the id.** -/
theorem tenant?_eq_some_iff {id : ResourceId} {u : Tenant} :
    s.tenant? id = .ok (some u) ↔ s.HasTenant u ∧ u.id = id := by
  simp only [tenant?, bind_eq_ok_iff, need_eq_ok_iff, lookUp_eq_some_iff, HasTenant,
    TenantRow.load_eq_ok_iff]
  constructor
  · rintro ⟨t, ht, r, hr, hid, rfl⟩
    exact ⟨⟨t, ht, hr⟩, hid⟩
  · rintro ⟨⟨t, ht, hr⟩, hid⟩
    exact ⟨t, ht, _, hr, hid, rfl⟩

/-- **A look-up finds the ODS that is held under the id.** -/
theorem ods?_eq_some_iff {id : ResourceId} {o : Ods} :
    s.ods? id = .ok (some o) ↔ s.HasOds o ∧ o.id = id := by
  simp only [ods?, bind_eq_ok_iff, need_eq_ok_iff, lookUp_eq_some_iff, HasOds,
    OdsRow.load_eq_ok_iff]
  constructor
  · rintro ⟨t, ht, r, hr, hid, rfl⟩
    exact ⟨⟨t, ht, hr⟩, hid⟩
  · rintro ⟨⟨t, ht, hr⟩, hid⟩
    exact ⟨t, ht, _, hr, hid, rfl⟩

/-- **A look-up finds the organization that is held under the id.** -/
theorem edOrg?_eq_some_iff {id : ResourceId} {x : EdOrg} :
    s.edOrg? id = .ok (some x) ↔ s.HasEdOrg x ∧ x.id = id := by
  simp only [edOrg?, bind_eq_ok_iff, need_eq_ok_iff, lookUp_eq_some_iff, HasEdOrg,
    EdOrgRow.load_eq_ok_iff]
  constructor
  · rintro ⟨t, ht, r, hr, hid, rfl⟩
    exact ⟨⟨t, ht, hr⟩, hid⟩
  · rintro ⟨⟨t, ht, hr⟩, hid⟩
    exact ⟨t, ht, _, hr, hid, rfl⟩

/-- A look-up finds the role that is held under the id. -/
theorem role?_eq_some_iff {id : RoleId} {role : Role} :
    s.role? id = .ok (some role) ↔ s.HasRole role ∧ role.id = id := by
  simp only [role?, bind_eq_ok_iff, need_eq_ok_iff, lookUp_eq_some_iff, HasRole]
  constructor
  · rintro ⟨t, ht, r, hr, hid, h⟩
    exact ⟨⟨t, ht, r, hr, h⟩, (loadRole_id h).trans hid⟩
  · rintro ⟨⟨t, ht, r, hr, h⟩, hid⟩
    exact ⟨t, ht, r, hr, (loadRole_id h).symm.trans hid, h⟩

/-- A look-up finds the team that is held under the id. -/
theorem team?_eq_some_iff {id : TeamId} {t : Team} :
    s.team? id = .ok (some t) ↔ s.HasTeam t ∧ t.id = id := by
  simp only [team?, bind_eq_ok_iff, need_eq_ok_iff, lookUp_eq_some_iff, HasTeam,
    TeamRow.load_eq_ok_iff]
  constructor
  · rintro ⟨u, hu, r, hr, hid, rfl⟩
    exact ⟨⟨u, hu, hr⟩, hid⟩
  · rintro ⟨⟨u, hu, hr⟩, hid⟩
    exact ⟨u, hu, _, hr, hid, rfl⟩

/-- A look-up finds the ownership that is held under the id. -/
theorem ownership?_eq_some_iff {id : OwnershipId} {o : Ownership} :
    s.ownership? id = .ok (some o) ↔ s.HasOwnership o ∧ o.id = id := by
  simp only [ownership?, bind_eq_ok_iff, need_eq_ok_iff, lookUp_eq_some_iff, HasOwnership]
  constructor
  · rintro ⟨t, ht, r, hr, hid, h⟩
    exact ⟨⟨t, ht, r, hr, h⟩, (OwnershipRow.columns_of_load h).1.symm.trans hid⟩
  · rintro ⟨⟨t, ht, r, hr, h⟩, hid⟩
    exact ⟨t, ht, r, hr, (OwnershipRow.columns_of_load h).1.trans hid, h⟩

/-! ## Lists -/

/-- A list of environments has what is held and passes. -/
theorem mem_of_listEnvironments {f : RowFilter} {es : List Environment}
    (h : s.listEnvironments f = .ok es) {e : Environment} :
    e ∈ es ↔ s.HasEnvironment e ∧ f.admits e.id = true := by
  simp only [listEnvironments, bind_eq_ok_iff, need_eq_ok_iff] at h
  obtain ⟨t, ht, h⟩ := h
  simp [mem_iff_of_mapM_eq_ok h, HasEnvironment, ht, Index.mem_def]

/-- A list of an environment's tenants has what is held there and passes. -/
theorem mem_of_listTenants {id : ResourceId} {f : RowFilter} {us : List Tenant}
    (h : s.listTenants id f = .ok us) {u : Tenant} :
    u ∈ us ↔ s.HasTenant u ∧ u.environment = id ∧ f.admits u.id = true := by
  simp only [listTenants, bind_eq_ok_iff, need_eq_ok_iff] at h
  obtain ⟨t, ht, h⟩ := h
  simp [mem_iff_of_mapM_eq_ok h, HasTenant, ht, Index.mem_def]

/-- A list of a tenant's ODSs has what is held there and passes. -/
theorem mem_of_listOdss {id : ResourceId} {f : RowFilter} {os : List Ods}
    (h : s.listOdss id f = .ok os) {o : Ods} :
    o ∈ os ↔ s.HasOds o ∧ o.tenant = id ∧ f.admits o.id = true := by
  simp only [listOdss, bind_eq_ok_iff, need_eq_ok_iff] at h
  obtain ⟨t, ht, h⟩ := h
  simp [mem_iff_of_mapM_eq_ok h, HasOds, ht, Index.mem_def]

/-- The list of an ODS's organizations has what is held there. -/
theorem mem_of_listOdsEdOrgs {id : ResourceId} {xs : List EdOrg}
    (h : s.listOdsEdOrgs id = .ok xs) {x : EdOrg} : x ∈ xs ↔ s.HasEdOrg x ∧ x.ods = id := by
  simp only [listOdsEdOrgs, bind_eq_ok_iff, need_eq_ok_iff] at h
  obtain ⟨t, ht, h⟩ := h
  simp [mem_iff_of_mapM_eq_ok h, HasEdOrg, ht, Index.mem_def]

/-- The list of an organization's descendants has what is held below it. -/
theorem mem_of_listDescendants {id : ResourceId} {xs : List EdOrg}
    (h : s.listDescendants id = .ok xs) {x : EdOrg} :
    x ∈ xs ↔ s.HasEdOrg x ∧ s.LiesBelow id x.id := by
  simp only [listDescendants, bind_eq_ok_iff, need_eq_ok_iff] at h
  obtain ⟨c, hc, t, ht, h⟩ := h
  simp only [mem_iff_of_mapM_eq_ok h, HasEdOrg, LiesBelow, ht, hc, List.mem_filterMap,
    List.mem_filter, EdOrgRow.load_eq_ok_iff, Option.some.injEq, exists_eq_left', exists_eq_right,
    ← Index.mem_def, Option.bind_eq_some_iff, Index.find?_eq_some_iff]
  constructor
  · rintro ⟨r, ⟨hr, ha⟩, d, hd, hx, rfl⟩
    exact ⟨hx, r, hr, ha, IntCell.int?_eq_some_iff.1 hd⟩
  · rintro ⟨hx, r, hr, ha, hd⟩
    exact ⟨r, ⟨hr, ha⟩, x.id, IntCell.int?_eq_some_iff.2 hd, hx, rfl⟩

/-- The list of a team's ownerships is read from the team's rows, each of which can be read. -/
theorem listOwnerships_eq_ok_iff {team : TeamId} {os : List Ownership} :
    s.listOwnerships team = .ok os ↔ ∃ t, s.ownerships = some t ∧
      (t.rows.rows.filter fun r => r.team.equals team).mapM (fun r => r.load s.now) = .ok os := by
  simp only [listOwnerships, bind_eq_ok_iff, need_eq_ok_iff]
  refine exists_congr fun t => and_congr_right fun _ => ?_
  split
  · rfl
  · rename_i hunreadable
    simp only [reduceCtorEq, false_iff]
    intro h
    refine hunreadable (List.all_eq_true.2 fun r hr => ?_)
    obtain ⟨o, ho⟩ := exists_of_mapM_eq_ok h hr
    exact OwnershipRow.isReadable_of_load ho

/-- The list of a team's ownerships has what the team holds. -/
theorem mem_of_listOwnerships {team : TeamId} {os : List Ownership}
    (h : s.listOwnerships team = .ok os) {o : Ownership} :
    o ∈ os ↔ s.HasOwnership o ∧ o.team = team := by
  obtain ⟨t, ht, h⟩ := listOwnerships_eq_ok_iff.1 h
  simp only [mem_iff_of_mapM_eq_ok h, HasOwnership, ht, List.mem_filter, Option.some.injEq,
    exists_eq_left', ← Index.mem_def]
  constructor
  · rintro ⟨r, ⟨hr, hteam⟩, hl⟩
    rw [(OwnershipRow.columns_of_load hl).2.1, IntCell.equals_int] at hteam
    exact ⟨⟨r, hr, hl⟩, hteam⟩
  · rintro ⟨⟨r, hr, hl⟩, rfl⟩
    exact ⟨r, ⟨hr, by simp [(OwnershipRow.columns_of_load hl).2.1]⟩, hl⟩

end Store

end TeamAccess
