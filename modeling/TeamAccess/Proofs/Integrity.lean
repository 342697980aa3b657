import TeamAccess.Proofs.Contribution
import TeamAccess.Proofs.Writes

/-!
# Integrity — stores that writes have made

Tables can be changed behind the store's back, so a store may hold rows that cannot be read, or that
refer to nothing. A store whose tables were filled by its own writes alone is `Sound`: every table
is there, every row can be read, and every row's parent is stored — that of an organization in the
same ODS. The closure joins organizations of one ODS only. Each write keeps this, and on a sound
store a closure can always be rebuilt.
-/

namespace TeamAccess.Store

variable {s s' : Store}

/-! ## Tables -/

section Filled

variable {ρ κ : Type} [Ord κ] {key : ρ → κ} {t : Option (Index key)} {P Q : ρ → Prop}

/-- The table is there, and its rows are as they should be. -/
def Filled (t : Option (Index key)) (P : ρ → Prop) : Prop := ∃ u, t = some u ∧ ∀ r ∈ u, P r

/-- What rows are in one sense they are in every wider sense. -/
theorem Filled.imp (h : Filled t P) (hPQ : ∀ r, P r → Q r) : Filled t Q := by
  obtain ⟨u, hu, hP⟩ := h
  exact ⟨u, hu, fun r hr => hPQ r (hP r hr)⟩

/-- The rows of a filled table are as they should be. -/
theorem Filled.of_mem {u : Index key} (h : Filled t P) (hu : t = some u) {r : ρ} (hr : r ∈ u) :
    P r := by
  obtain ⟨u', hu', hP⟩ := h
  rw [hu] at hu'
  cases hu'
  exact hP r hr

/-- A filled table is there. -/
theorem Filled.isSome (h : Filled t P) : t.isSome = true := by
  obtain ⟨_, rfl, -⟩ := h
  rfl

variable [Std.LawfulEqOrd κ]

/-- What has a key in a filled table is a row as it should be. -/
theorem Filled.exists_of_hasKey {u : Index key} (h : Filled t P) (hu : t = some u) {k : κ}
    (hk : u.hasKey k = true) : ∃ r, r ∈ u ∧ P r ∧ key r = k := by
  obtain ⟨r, hr, hrk⟩ := Index.hasKey_iff.1 hk
  exact ⟨r, hr, h.of_mem hu hr, hrk⟩

variable [Std.TransOrd κ]

/-- A filled table takes a row that is as it should be. -/
theorem Filled.insert {u : Index key} (h : Filled t P) (hu : t = some u) {r : ρ} (hr : P r) :
    Filled (some (u.insert r)) P := by
  refine ⟨_, rfl, fun r' hr' => ?_⟩
  rcases Index.mem_insert.1 hr' with rfl | ⟨hr', -⟩
  · exact hr
  · exact h.of_mem hu hr'

end Filled

/-! ## Complete stores -/

/-- Every table is there. -/
structure Complete (s : Store) : Prop where
  environments : s.environments.isSome
  tenants : s.tenants.isSome
  odss : s.odss.isSome
  edOrgs : s.edOrgs.isSome
  closure : s.closure.isSome
  teams : s.teams.isSome
  roles : s.roles.isSome
  privileges : s.privileges.isSome
  ownerships : s.ownerships.isSome

/-- A store with every table has none to make. -/
theorem Complete.withTables_eq (h : s.Complete) : s.withTables = s := by
  have hsome {α : Type} {a b : Option α} (ha : a.isSome = true) : a.orElse (fun _ => b) = a := by
    obtain ⟨_, rfl⟩ := Option.isSome_iff_exists.1 ha
    rfl
  simp only [withTables, hsome h.environments, hsome h.tenants, hsome h.odss, hsome h.edOrgs,
    hsome h.closure, hsome h.teams, hsome h.roles, hsome h.privileges, hsome h.ownerships]

/-! ## Sound stores -/

/-- The parent that an organization names is stored, in the same ODS. -/
def ParentIn (s : Store) (x : EdOrg) : Prop :=
  ∀ p, x.parent = some p → ∃ y, s.HasEdOrg y ∧ y.id = p ∧ y.ods = x.ods

/-- An organization that names no parent has none to look for. -/
theorem parentIn_of_none {x : EdOrg} (h : x.parent = none) : s.ParentIn x := by
  intro p hp
  rw [h] at hp
  cases hp

/-- A role is stored under the id. -/
def KnowsRole (s : Store) (id : RoleId) : Prop :=
  ∃ t, s.roles = some t ∧ t.rows.hasKey id = true

/-- **The integrity of a store.** -/
structure Sound (s : Store) : Prop where
  environments : Filled s.environments fun r => ∃ e : Environment, r = e.row
  tenants : Filled s.tenants fun r =>
    ∃ t : Tenant, r = t.row ∧ ∃ e, s.HasEnvironment e ∧ t.environment = e.id
  odss : Filled s.odss fun r => ∃ o : Ods, r = o.row ∧ ∃ t, s.HasTenant t ∧ o.tenant = t.id
  edOrgs : Filled s.edOrgs fun r =>
    ∃ x : EdOrg, r = x.row ∧ (∃ o, s.HasOds o ∧ x.ods = o.id) ∧ s.ParentIn x
  /-- The closure joins organizations that are stored, of one ODS. -/
  closure : Filled s.closure fun r => ∃ a d, s.HasEdOrg a ∧ s.HasEdOrg d ∧ a.ods = d.ods ∧
    r.ancestor = .int a.id ∧ r.descendant = .int d.id
  teams : ∃ t, s.teams = some t ∧ ∀ r ∈ t.rows, ∃ u : Team, r = u.row
  roles : ∃ t, s.roles = some t ∧ ∀ r ∈ t.rows, (∃ name : String, r.name = .text name) ∧
    ∃ scope : RoleScope, r.team = scope.team?.map .int
  privileges : Filled s.privileges fun r => ∃ id, ∃ p : Privilege, r = ⟨.int id, .text p.code⟩
  ownerships : ∃ t, s.ownerships = some t ∧ ∀ r ∈ t.rows,
    ∃ o : NewOwnership, ∃ id now, r = o.row id now ∧ s.KnowsRole o.role

namespace Sound

/-! ## What stands -/

/-- A stored tenant lies in a stored environment. -/
theorem tenantIn (h : s.Sound) {t : Tenant} (ht : s.HasTenant t) : ∃ e, s.TenantIn t e := by
  obtain ⟨u, hu, hmem⟩ := ht
  obtain ⟨t', hrow, e, he, hte⟩ := h.tenants.of_mem hu hmem
  obtain rfl := Tenant.row_inj hrow
  exact ⟨e, ⟨u, hu, hmem⟩, he, hte⟩

/-- A stored ODS lies in a stored tenant of a stored environment. -/
theorem odsIn (h : s.Sound) {o : Ods} (ho : s.HasOds o) : ∃ t e, s.OdsIn o t e := by
  obtain ⟨u, hu, hmem⟩ := ho
  obtain ⟨o', hrow, t, ht, hot⟩ := h.odss.of_mem hu hmem
  obtain rfl := Ods.row_inj hrow
  obtain ⟨e, hin⟩ := h.tenantIn ht
  exact ⟨t, e, ⟨u, hu, hmem⟩, hot, hin⟩

/-- A stored organization lies in a stored ODS. -/
theorem edOrgIn (h : s.Sound) {x : EdOrg} (hx : s.HasEdOrg x) :
    ∃ o t e, s.OdsIn o t e ∧ x.ods = o.id := by
  obtain ⟨u, hu, hmem⟩ := hx
  obtain ⟨x', hrow, ⟨o, ho, hxo⟩, -⟩ := h.edOrgs.of_mem hu hmem
  obtain rfl := EdOrg.row_inj hrow
  obtain ⟨t, e, hin⟩ := h.odsIn ho
  exact ⟨o, t, e, hin, hxo⟩

/-- The parent of a stored organization is stored, in the same ODS. -/
theorem parentIn (h : s.Sound) {x : EdOrg} (hx : s.HasEdOrg x) : s.ParentIn x := by
  obtain ⟨u, hu, hmem⟩ := hx
  obtain ⟨x', hrow, -, hparent⟩ := h.edOrgs.of_mem hu hmem
  obtain rfl := EdOrg.row_inj hrow
  exact hparent

/-- The closure joins stored organizations of one ODS. -/
theorem ends_of_liesBelow (h : s.Sound) {a d : ResourceId} (hbelow : s.LiesBelow a d) :
    ∃ x y, s.HasEdOrg x ∧ s.HasEdOrg y ∧ x.ods = y.ods ∧ x.id = a ∧ y.id = d := by
  obtain ⟨u, hu, r, hr, hancestor, hdescendant⟩ := hbelow
  obtain ⟨x, y, hx, hy, hods, hra, hrd⟩ := h.closure.of_mem hu hr
  rw [hra, IntCell.equals_int] at hancestor
  rw [hrd, IntCell.int.injEq] at hdescendant
  exact ⟨x, y, hx, hy, hods, hancestor, hdescendant⟩

/-! ## Rebuilding closures -/

end Sound

/-- The ancestors of a stored organization are itself and those of its parent. -/
theorem ancestors_succ {t : Index EdOrgRow.id} (ht : s.edOrgs = some t) {x : EdOrg}
    (hx : s.HasEdOrg x) (n : Nat) : ancestors t (n + 1) (.int x.id) =
      .int x.id :: x.parent.elim [] fun p => ancestors t n (.int p) := by
  have hfind : t.find? x.id = some x.row := by
    obtain ⟨u, hu, hmem⟩ := hx
    obtain rfl := Option.some.inj (ht.symm.trans hu)
    exact Index.find?_eq_some_iff.2 ⟨hmem, rfl⟩
  simp only [ancestors, IntCell.int?, Option.bind_some, hfind, EdOrg.row_parent]
  cases x.parent <;> rfl

namespace Sound

/-- Parent links lead from an organization to organizations of the same ODS. -/
theorem mem_ancestors (h : s.Sound) {t : Index EdOrgRow.id} (ht : s.edOrgs = some t) {n : Nat}
    {x : EdOrg} (hx : s.HasEdOrg x) {c : IntCell} (hc : c ∈ ancestors t n (.int x.id)) :
    ∃ y, s.HasEdOrg y ∧ y.ods = x.ods ∧ c = .int y.id := by
  -- Along the links: each parent is stored and of the same ODS, so the rest is its own chain.
  induction n generalizing x with
  | zero => exact ⟨x, hx, rfl, List.mem_singleton.1 hc⟩
  | succ n ih =>
    rw [ancestors_succ ht hx] at hc
    rcases List.mem_cons.1 hc with rfl | hc
    · exact ⟨x, hx, rfl, rfl⟩
    · cases hp : x.parent with
      | none =>
        rw [hp] at hc
        cases hc
      | some p =>
        rw [hp] at hc
        obtain ⟨y, hy, rfl, hods⟩ := h.parentIn hx p hp
        obtain ⟨z, hz, hzods, rfl⟩ := ih hy hc
        exact ⟨z, hz, hzods.trans hods, rfl⟩

/-- The organizations of an ODS, by their ids. -/
theorem mem_membersOf_iff (h : s.Sound) {t : Index EdOrgRow.id} (ht : s.edOrgs = some t)
    {ods id : ResourceId} : id ∈ membersOf t ods ↔ ∃ x, s.HasEdOrg x ∧ x.ods = ods ∧ x.id = id := by
  simp only [membersOf, List.mem_map, List.mem_filter, ← Index.mem_def]
  constructor
  · rintro ⟨r, ⟨hr, hods⟩, rfl⟩
    obtain ⟨x, rfl, -⟩ := h.edOrgs.of_mem ht hr
    exact ⟨x, ⟨t, ht, hr⟩, by simpa using hods, rfl⟩
  · rintro ⟨x, ⟨u, hu, hmem⟩, rfl, rfl⟩
    obtain rfl := Option.some.inj (ht.symm.trans hu)
    exact ⟨x.row, ⟨hmem, by simp⟩, rfl⟩

end Sound

/-- A closure row of an organization has one of its ancestors above it. -/
theorem ends_of_mem_closureRows {t : Index EdOrgRow.id} {id : ResourceId} {r : ClosureRow}
    (hr : r ∈ closureRows t id) :
    r.ancestor ∈ ancestors t depthLimit (.int id) ∧ r.descendant = .int id := by
  obtain ⟨⟨ancestor, depth⟩, hmem, rfl⟩ := List.mem_map.1 (Index.mem_of_mem_ofList hr)
  exact ⟨List.fst_mem_of_mem_zipIdx hmem, rfl⟩

/-- **On a sound store a closure can be rebuilt**, of whatever ODS. -/
theorem Sound.exists_rebuildClosure (h : s.Sound) (ods : ResourceId) :
    ∃ s', s.rebuildClosure ods = .ok s' := by
  obtain ⟨t, ht, -⟩ := h.edOrgs
  obtain ⟨c, hc, -⟩ := h.closure
  refine ⟨_, rebuildClosure_eq_ok_iff.2 ⟨t, ht, c, hc, fun id hid r hr => ?_, rfl⟩⟩
  obtain ⟨x, hx, -, rfl⟩ := (h.mem_membersOf_iff ht).1 hid
  obtain ⟨y, ⟨u, hu, hmem⟩, -, hy⟩ := h.mem_ancestors ht hx (ends_of_mem_closureRows hr).1
  obtain rfl := Option.some.inj (ht.symm.trans hu)
  rw [hy]
  exact Index.hasKey_iff.2 ⟨y.row, hmem, rfl⟩

/-! ## Writes keep stores sound -/

/-- An insertion under a free id keeps every row. -/
theorem has_of_insert {ρ : Type} {key : ρ → Int64} {t : Option (Index key)} {u : Index key}
    {r r' : ρ} (hu : t = some u) (hfree : u.hasKey (key r) = false)
    (h : ∃ v, t = some v ∧ r' ∈ v) : ∃ v, some (u.insert r) = some v ∧ r' ∈ v := by
  obtain ⟨v, hv, hmem⟩ := h
  obtain rfl := Option.some.inj (hu.symm.trans hv)
  exact ⟨_, rfl, Index.mem_insert.2 (.inr ⟨hmem, Index.hasKey_eq_false_iff.1 hfree r' hmem⟩)⟩

namespace Sound

/-- A new environment. -/
theorem createEnvironment (h : s.Sound) {e : Environment} (hok : s.createEnvironment e = .ok s') :
    s'.Sound := by
  obtain ⟨t, ht, hfree, rfl⟩ := createEnvironment_eq_ok_iff.1 hok
  have hgrows : ∀ e', s.HasEnvironment e' →
      HasEnvironment { s with environments := some (t.insert e.row) } e' :=
    fun _ h' => has_of_insert ht hfree h'
  exact { h with
    environments := h.environments.insert ht ⟨e, rfl⟩
    tenants := h.tenants.imp fun r ⟨u, hrow, e', he', hue⟩ => ⟨u, hrow, e', hgrows e' he', hue⟩ }

/-- A new tenant. -/
theorem createTenant (h : s.Sound) {u : Tenant} (hok : s.createTenant u = .ok s') : s'.Sound := by
  obtain ⟨t, ht, es, hes, hfree, -, henvironment, rfl⟩ := createTenant_eq_ok_iff.1 hok
  have hgrows : ∀ u', s.HasTenant u' → HasTenant { s with tenants := some (t.insert u.row) } u' :=
    fun _ h' => has_of_insert ht hfree h'
  have hparent : ∃ e, s.HasEnvironment e ∧ u.environment = e.id := by
    obtain ⟨_, hr, ⟨e, rfl⟩, hid⟩ := h.environments.exists_of_hasKey hes henvironment
    exact ⟨e, ⟨es, hes, hr⟩, hid.symm⟩
  exact { h with
    tenants := h.tenants.insert ht ⟨u, rfl, hparent⟩
    odss := h.odss.imp fun r ⟨o, hrow, u', hu', hou⟩ => ⟨o, hrow, u', hgrows u' hu', hou⟩ }

/-- A new ODS. -/
theorem createOds (h : s.Sound) {o : Ods} (hok : s.createOds o = .ok s') : s'.Sound := by
  obtain ⟨t, ht, us, hus, hfree, htenant, rfl⟩ := createOds_eq_ok_iff.1 hok
  have hgrows : ∀ o', s.HasOds o' → HasOds { s with odss := some (t.insert o.row) } o' :=
    fun _ h' => has_of_insert ht hfree h'
  have hparent : ∃ u, s.HasTenant u ∧ o.tenant = u.id := by
    obtain ⟨_, hr, ⟨u, rfl, -⟩, hid⟩ := h.tenants.exists_of_hasKey hus htenant
    exact ⟨u, ⟨us, hus, hr⟩, hid.symm⟩
  exact { h with
    odss := h.odss.insert ht ⟨o, rfl, hparent⟩
    edOrgs := h.edOrgs.imp fun r ⟨x, hrow, ⟨o', ho', hxo⟩, hx⟩ =>
      ⟨x, hrow, ⟨o', hgrows o' ho', hxo⟩, hx⟩ }

/-- A new organization, whose parent lies in the same ODS. -/
theorem createEdOrg (h : s.Sound) {x : EdOrg} (hparent : s.ParentIn x)
    (hok : s.createEdOrg x = .ok s') : s'.Sound := by
  obtain ⟨t, ht, os, hos, hfree, -, hods, -, rfl⟩ := createEdOrg_eq_ok_iff.1 hok
  have hgrows : ∀ x', s.HasEdOrg x' → HasEdOrg { s with edOrgs := some (t.insert x.row) } x' :=
    fun _ h' => has_of_insert ht hfree h'
  have hparents : ∀ x', s.ParentIn x' →
      ParentIn { s with edOrgs := some (t.insert x.row) } x' := by
    intro x' hx' p hp
    obtain ⟨y, hy, hid, hyx⟩ := hx' p hp
    exact ⟨y, hgrows y hy, hid, hyx⟩
  have hplace : ∃ o, s.HasOds o ∧ x.ods = o.id := by
    obtain ⟨_, hr, ⟨o, rfl, -⟩, hid⟩ := h.odss.exists_of_hasKey hos hods
    exact ⟨o, ⟨os, hos, hr⟩, hid.symm⟩
  exact { h with
    edOrgs := (h.edOrgs.imp fun r ⟨x', hrow, ho, hx'⟩ =>
      ⟨x', hrow, ho, hparents x' hx'⟩).insert ht ⟨x, rfl, hplace, hparents x hparent⟩
    closure := h.closure.imp fun r ⟨a, d, ha, hd, hrest⟩ =>
      ⟨a, d, hgrows a ha, hgrows d hd, hrest⟩ }

/-- A rebuilt closure. -/
theorem rebuildClosure (h : s.Sound) {ods : ResourceId} (hok : s.rebuildClosure ods = .ok s') :
    s'.Sound := by
  obtain ⟨t, ht, c, hc, -, rfl⟩ := rebuildClosure_eq_ok_iff.1 hok
  refine { h with closure := ⟨_, rfl, fun r hr => ?_⟩ }
  -- A row was there before or is of an organization of the ODS, with an ancestor of it above.
  rcases mem_of_mem_rebuiltClosure hr with hr | ⟨id, hid, hr⟩
  · exact h.closure.of_mem hc hr
  · obtain ⟨x, hx, -, rfl⟩ := (h.mem_membersOf_iff ht).1 hid
    obtain ⟨hancestor, hdescendant⟩ := ends_of_mem_closureRows hr
    obtain ⟨y, hy, hods, hya⟩ := h.mem_ancestors ht hx hancestor
    exact ⟨y, x, hy, hx, hods, hya, hdescendant⟩

/-- A new team. -/
theorem createTeam (h : s.Sound) {name : String} {team : Team}
    (hok : s.createTeam name = .ok (team, s')) : s'.Sound := by
  obtain ⟨t, ht, id, -, -, -, rfl⟩ := createTeam_eq_ok_iff.1 hok
  obtain ⟨t', ht', hrows⟩ := h.teams
  obtain rfl := Option.some.inj (ht.symm.trans ht')
  refine { h with teams := ⟨_, rfl, fun r hr => ?_⟩ }
  rcases Index.mem_insert.1 hr with rfl | ⟨hr, -⟩
  · exact ⟨⟨id, name⟩, rfl⟩
  · exact hrows r hr

/-- A new role. -/
theorem createRole (h : s.Sound) {name : String} {scope : RoleScope} {ps : KeySet Privilege}
    {role : Role} (hok : s.createRole name scope ps = .ok (role, s')) : s'.Sound := by
  obtain ⟨t, ht, id, -, -, rfl⟩ := createRole_eq_ok hok
  obtain ⟨t', ht', hroles⟩ := h.roles
  obtain rfl := Option.some.inj (ht.symm.trans ht')
  refine { h with roles := ⟨_, rfl, fun r hr => ?_⟩, privileges := ?_, ownerships := ?_ }
  · rcases Index.mem_insert.1 hr with rfl | ⟨hr, -⟩
    · exact ⟨⟨name, rfl⟩, scope, rfl⟩
    · exact hroles r hr
  · obtain ⟨rows, hrows, hprivileges⟩ := h.privileges
    refine ⟨withPrivileges rows id ps, by simp [hrows], fun r hr => ?_⟩
    rcases mem_of_mem_withPrivileges hr with hr | ⟨p, -, rfl⟩
    · exact hprivileges r hr
    · exact ⟨id, p, rfl⟩
  · -- No role went, so the role of each ownership is still stored.
    obtain ⟨os, hos, hrows⟩ := h.ownerships
    refine ⟨os, hos, fun r hr => ?_⟩
    obtain ⟨o, n, now, hrow, u, hu, hrole⟩ := hrows r hr
    obtain rfl := Option.some.inj (ht.symm.trans hu)
    refine ⟨o, n, now, hrow, _, rfl, ?_⟩
    rw [Numbered.push, Index.insert, Index.hasKey_union, hrole, Bool.or_true]

/-- A new ownership. -/
theorem createOwnership (h : s.Sound) {o : NewOwnership} {created : Ownership}
    (hok : s.createOwnership o = .ok (created, s')) : s'.Sound := by
  obtain ⟨t, ht, teams, -, roles, hroles, id, -, -, hrole, -, rfl⟩ :=
    createOwnership_eq_ok_iff.1 hok
  obtain ⟨t', ht', hrows⟩ := h.ownerships
  obtain rfl := Option.some.inj (ht.symm.trans ht')
  refine { h with ownerships := ⟨_, rfl, fun r hr => ?_⟩ }
  rcases Index.mem_insert.1 hr with rfl | ⟨hr, -⟩
  · exact ⟨o, id, s.now, rfl, roles, hroles, hrole⟩
  · exact hrows r hr

/-- One ownership less. -/
theorem deleteOwnership (h : s.Sound) {id : OwnershipId} {found : Bool}
    (hok : s.deleteOwnership id = .ok (found, s')) : s'.Sound := by
  obtain ⟨t, ht, -, -, -, rfl⟩ := deleteOwnership_eq_ok_iff.1 hok
  obtain ⟨t', ht', hrows⟩ := h.ownerships
  obtain rfl := Option.some.inj (ht.symm.trans ht')
  exact { h with ownerships := ⟨_, rfl, fun r hr => hrows r (Index.mem_erase.1 hr).1⟩ }

/-- One ownership for another. -/
theorem replaceOwnership (h : s.Sound) {id : OwnershipId} {o : NewOwnership} {created : Ownership}
    (hok : s.replaceOwnership id o = .ok (created, s')) : s'.Sound := by
  obtain ⟨s₁, hadd, hdelete⟩ := replaceOwnership_eq_ok_iff.1 hok
  exact (h.createOwnership hadd).deleteOwnership hdelete

/-- Another time. -/
theorem withNow (h : s.Sound) (now : Timestamp) : ({ s with now } : Store).Sound := { h with }

/-! ## Setting up -/

/-- Built-in roles are added as roles are. -/
theorem seedAll (h : s.Sound) (rs : List BuiltinRole) : (s.seedAll rs).2.Sound :=
  seedAll_induction (fun _ _ _ _ hs hadd => hs.createRole hadd) h rs

/-- A sound store has every table. -/
theorem complete (h : s.Sound) : s.Complete where
  environments := h.environments.isSome
  tenants := h.tenants.isSome
  odss := h.odss.isSome
  edOrgs := h.edOrgs.isSome
  closure := h.closure.isSome
  teams := Option.isSome_iff_exists.2 (h.teams.imp fun _ => And.left)
  roles := Option.isSome_iff_exists.2 (h.roles.imp fun _ => And.left)
  privileges := h.privileges.isSome
  ownerships := Option.isSome_iff_exists.2 (h.ownerships.imp fun _ => And.left)

/-- A sound store has no table to make. -/
theorem withTables_eq (h : s.Sound) : s.withTables = s := h.complete.withTables_eq

/-- A store is sound once set up, if its tables are when those that are missing are made. -/
theorem afterSetUp_of_withTables (h : s.withTables.Sound) : s.afterSetUp.Sound := by
  rw [afterSetUp, setUp]
  exact h.seedAll _

/-- Setting up again. -/
theorem afterSetUp (h : s.Sound) : s.afterSetUp.Sound := by
  refine afterSetUp_of_withTables ?_
  rwa [h.withTables_eq]

/-- Empty tables are sound. -/
theorem withTables_blank (now : Timestamp) : (blank now).withTables.Sound := by
  have hempty {ρ κ : Type} [Ord κ] {key : ρ → κ} {P : ρ → Prop} :
      Filled (some (Index.empty : Index key)) P :=
    ⟨_, rfl, fun _ hr => absurd hr Index.not_mem_empty⟩
  exact {
    environments := hempty
    tenants := hempty
    odss := hempty
    edOrgs := hempty
    closure := hempty
    teams := ⟨_, rfl, fun _ hr => absurd hr Index.not_mem_empty⟩
    roles := ⟨_, rfl, fun _ hr => absurd hr Index.not_mem_empty⟩
    privileges := hempty
    ownerships := ⟨_, rfl, fun _ hr => absurd hr Index.not_mem_empty⟩ }

/-- **A new store is sound.** -/
theorem fresh (now : Timestamp) : (Store.fresh now).Sound :=
  afterSetUp_of_withTables (withTables_blank now)

end Sound

end TeamAccess.Store
