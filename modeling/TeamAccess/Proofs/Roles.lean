import TeamAccess.Proofs.Retention
import TeamAccess.Proofs.Totality

/-!
# Roles — what becomes of a new one

A role and its privileges lie in two tables, and a role is read back with whatever rows of
privileges name it. In a store that its own writes have filled these are of stored roles only
(`Store.Attributed`), so a new role, having a new id, reads back with just the privileges that it
was made with. The roles of a new store are known from this without looking at any of their rows
(`Store.fresh_spec`).
-/

namespace TeamAccess.Store

variable {s s' : Store} {name : String} {scope : RoleScope} {ps : KeySet Privilege}

/-! ## Rows of privileges -/

/-- A privilege of a new role has its row. -/
theorem mem_withPrivileges_of_mem {rows : Index PrivilegeRow.key} {id : RoleId} {p : Privilege}
    (hp : p ∈ ps) : (⟨.int id, .text p.code⟩ : PrivilegeRow) ∈ withPrivileges rows id ps := by
  rw [withPrivileges_eq_foldr]
  refine Index.mem_foldr_insert_of_mem (List.mem_map.2 ⟨p, List.mem_reverse.2 hp, rfl⟩)
    fun r' hr' hkey => ?_
  obtain ⟨p', -, rfl⟩ := List.mem_map.1 hr'
  have hcode : (TextCell.text p'.code) = .text p.code := congrArg Prod.snd hkey
  rw [hcode]

/-- **A new role reads back with its privileges**, if no row named it before. -/
theorem loadPrivileges_of_new {rows : Index PrivilegeRow.key} {id : RoleId}
    (hprivileges : s.privileges = some (withPrivileges rows id ps))
    (hfree : ∀ r ∈ rows, r.role.equals id = false) : s.loadPrivileges id = .ok ps := by
  have hown : ∀ r, r ∈ (withPrivileges rows id ps).rows.filter (fun r => r.role.equals id) ↔
      ∃ p ∈ ps, r = ⟨.int id, .text p.code⟩ := by
    intro r
    rw [List.mem_filter]
    constructor
    · rintro ⟨hr, hid⟩
      rcases mem_of_mem_withPrivileges hr with hr | hr
      · rw [hfree r hr] at hid
        cases hid
      · exact hr
    · rintro ⟨p, hp, rfl⟩
      exact ⟨mem_withPrivileges_of_mem hp, by simp⟩
  have hparse (p : Privilege) : Privilege.parse p.code = .ok p := by
    rw [Privilege.parse, Privilege.ofCode?_code]
    rfl
  obtain ⟨found, hread⟩ := succeeds_codes_iff.2 fun r hr => by
    obtain ⟨p, -, rfl⟩ := (hown r).1 hr
    exact ⟨p, rfl⟩
  obtain ⟨codes, hcodes, hfound⟩ := bind_eq_ok_iff.1 hread
  have hmem (code : String) : code ∈ codes ↔ ∃ p ∈ ps, p.code = code := by
    rw [mem_iff_of_mapM_eq_ok hcodes]
    simp only [hown, TextCell.load_eq_ok_iff]
    constructor
    · rintro ⟨_, ⟨p, hp, rfl⟩, hcode⟩
      exact ⟨p, hp, TextCell.text.inj hcode⟩
    · rintro ⟨p, hp, rfl⟩
      exact ⟨_, ⟨p, hp, rfl⟩, rfl⟩
  have hsame : Index.ofList found = ps := by
    refine Index.ext_mem fun p => ?_
    rw [KeySet.mem_ofList, mem_iff_of_mapM_eq_ok hfound]
    simp only [hmem]
    constructor
    · rintro ⟨_, ⟨p', hp', rfl⟩, hread⟩
      rw [hparse] at hread
      exact Except.ok.inj hread ▸ hp'
    · intro hp
      exact ⟨p.code, ⟨p, hp, rfl⟩, hparse p⟩
  simp only [loadPrivileges, hprivileges, need, Option.elim_some, hcodes, hfound, bind, Except.bind,
    hsame, pure, Except.pure]

/-- Rows of privileges are of stored roles, and have codes of the catalog. -/
def Attributed (s : Store) : Prop :=
  ∃ t, s.roles = some t ∧ Filled s.privileges fun r =>
    ∃ id, t.rows.hasKey id = true ∧ ∃ p : Privilege, r = ⟨.int id, .text p.code⟩

/-- Rows of privileges stay attributed where neither they nor roles change. -/
theorem Attributed.of_eq (h : s.Attributed) (hroles : s'.roles = s.roles)
    (hprivileges : s'.privileges = s.privileges) : s'.Attributed := by
  rwa [Attributed, hroles, hprivileges]

/-- No row of privileges names a role that is yet to come. -/
theorem Attributed.free (h : s.Attributed) {t : Numbered RoleRow.id} (ht : s.roles = some t)
    {id : RoleId} (hid : t.next? = some id) {rows : Index PrivilegeRow.key}
    (hrows : s.privileges = some rows) : ∀ r ∈ rows, r.role.equals id = false := by
  intro r hr
  obtain ⟨t', ht', hfilled⟩ := h
  obtain rfl := Option.some.inj (ht.symm.trans ht')
  obtain ⟨n, hkey, p, rfl⟩ := hfilled.of_mem hrows hr
  obtain ⟨row, hrow, hn⟩ := Index.hasKey_iff.1 hkey
  have hne : n ≠ id := hn ▸ Numbered.ne_of_next? hid hrow
  rwa [Bool.eq_false_iff, ne_eq, IntCell.equals_int]

/-! ## New roles -/

/-- The store with a new role. -/
def withRole (s : Store) (t : Numbered RoleRow.id) (rows : Index PrivilegeRow.key) (role : Role) :
    Store :=
  { s with
    roles := some (t.push ⟨role.id, .text role.name, role.scope.team?.map .int⟩)
    privileges := some (withPrivileges rows role.id role.privileges) }

/-- Privileges are inserted if their role is stored and has none of them. -/
theorem insertPrivileges_of_new {t : Numbered RoleRow.id} {rows : Index PrivilegeRow.key}
    {id : RoleId} {ps : List Privilege} (ht : s.roles = some t) (hid : t.rows.hasKey id = true)
    (hrows : s.privileges = some rows) (hdistinct : ps.Pairwise (· ≠ ·))
    (hfree : ∀ p ∈ ps, rows.hasKey (.int id, .text p.code) = false) :
    Succeeds (ps.foldlM (insertPrivilege · id) s) := by
  induction ps generalizing s rows with
  | nil => exact .pure s
  | cons p ps ih =>
    have hinsert : s.insertPrivilege id p =
        .ok { s with privileges := some (rows.insert ⟨.int id, .text p.code⟩) } := by
      simp [insertPrivilege, hrows, ht, hid, available, holds, PrivilegeRow.key, hfree p, bind,
        Except.bind, pure, Except.pure]
    rw [List.foldlM_cons]
    refine .bind ⟨_, hinsert⟩ fun s₁ h₁ => ?_
    obtain rfl := Except.ok.inj (hinsert.symm.trans h₁)
    refine ih ht rfl hdistinct.of_cons fun q hq => ?_
    -- The row that was inserted has another code than the rest.
    rw [Index.insert, Index.hasKey_union, hfree q (List.mem_cons_of_mem _ hq), Bool.or_false,
      Index.hasKey_eq_false_iff]
    intro r hr hkey
    obtain rfl := Index.mem_single.1 hr
    have hcode : TextCell.text p.code = .text q.code := congrArg Prod.snd hkey
    have hsame : p = q := Privilege.code_injective (TextCell.text.inj hcode)
    exact List.rel_of_pairwise_cons hdistinct hq hsame

/-- **A role is added under a name that is new in its scope**, for a team that is stored. -/
theorem createRole_of_new {t : Numbered RoleRow.id} {teams : Numbered TeamRow.id}
    {rows : Index PrivilegeRow.key} {id : RoleId} (h : s.Attributed) (ht : s.roles = some t)
    (hteams : s.teams = some teams) (hrows : s.privileges = some rows) (hid : t.next? = some id)
    (hname : ∀ r ∈ t.rows.rows, r.isIn scope = true → r.name ≠ .text name)
    (hscope : scope.team?.all teams.rows.hasKey = true) :
    s.createRole name scope ps =
      .ok (⟨id, name, scope, ps⟩, s.withRole t rows ⟨id, name, scope, ps⟩) := by
  have hfree := h.free ht hid hrows
  have hnew : s.hasRoleNamed scope name = .ok false := by
    refine bind_eq_ok_iff.2 ⟨t, need_eq_ok_iff.2 ht, pure_eq_ok_iff.2 ?_⟩
    simpa using hname
  have hrow : s.insertRole name scope = .ok (id,
      { s with roles := some (t.push ⟨id, .text name, scope.team?.map .int⟩) }) := by
    refine bind_eq_ok_iff.2 ⟨t, available_eq_ok_iff.2 ht, ?_⟩
    refine bind_eq_ok_iff.2 ⟨teams, available_eq_ok_iff.2 hteams, ?_⟩
    refine bind_eq_ok_iff.2 ⟨id, available_eq_ok_iff.2 hid, ?_⟩
    exact bind_eq_ok_iff.2 ⟨(), holds_eq_ok_iff.2 hscope, rfl⟩
  generalize hs₁ : { s with roles := some (t.push ⟨id, .text name, scope.team?.map .int⟩) } = s₁
    at hrow
  have hstored : (t.push ⟨id, .text name, scope.team?.map .int⟩).rows.hasKey id = true :=
    Index.hasKey_iff.2 ⟨_, Index.mem_insert.2 (.inl rfl), rfl⟩
  obtain ⟨s₂, hprivileges⟩ : Succeeds (ps.rows.foldlM (insertPrivilege · id) s₁) := by
    subst hs₁
    refine insertPrivileges_of_new rfl hstored hrows
      (ps.ascending.imp fun hlt => Index.ne_of_compare_lt hlt) fun p _ => ?_
    refine Index.hasKey_eq_false_iff.2 fun r hr hkey => ?_
    have hnumber : r.role.number = .int id := congrArg Prod.fst hkey
    have hequals : r.role.equals id = true := by simp [IntCell.equals, hnumber]
    rw [hfree r hr] at hequals
    cases hequals
  have hs₂ := eq_of_insertPrivileges hprivileges
  rw [createRole_eq, hnew]
  change (s.insertRole name scope).mapError Refusal.asFailure >>= _ = _
  rw [hrow]
  change (ps.rows.foldlM (insertPrivilege · id) s₁).mapError Refusal.asFailure >>= _ = _
  rw [hprivileges, hs₂, ← hs₁]
  simp [Except.mapError, bind, Except.bind, withRole, withPrivileges, hrows]

/-- A new role leaves rows of privileges attributed. -/
theorem Attributed.createRole {role : Role} (h : s.Attributed)
    (hok : s.createRole name scope ps = .ok (role, s')) : s'.Attributed := by
  obtain ⟨t, ht, id, -, -, rfl⟩ := createRole_eq_ok hok
  obtain ⟨t', ht', rows, hrows, hfilled⟩ := h
  obtain rfl := Option.some.inj (ht.symm.trans ht')
  refine ⟨_, rfl, withPrivileges rows id ps, by simp [hrows], fun r hr => ?_⟩
  rw [Numbered.push, Index.insert]
  rcases mem_of_mem_withPrivileges hr with hr | ⟨p, -, rfl⟩
  · obtain ⟨n, hkey, p, rfl⟩ := hfilled r hr
    exact ⟨n, by rw [Index.hasKey_union, hkey, Bool.or_true], p, rfl⟩
  · exact ⟨id, Index.hasKey_iff.2 ⟨_, Index.mem_insert.2 (.inl rfl), rfl⟩, p, rfl⟩

/-- A role's row reads as the role, once its privileges are read. -/
theorem loadRole_of_privileges {r : RoleRow} (hname : r.name = .text name)
    (hscope : r.team = scope.team?.map .int) (hps : s.loadPrivileges r.id = .ok ps) :
    s.loadRole r = .ok ⟨r.id, name, scope, ps⟩ := by
  have hteam : IntCell.load? r.team = .ok scope.team? := IntCell.load?_eq_ok_iff.2 hscope
  have hof : RoleScope.ofTeam? scope.team? = scope := by cases scope <;> rfl
  simp only [loadRole, RoleRow.loadScope, hname, TextCell.load_text, hteam, hps, hof, bind,
    Except.bind, pure, Except.pure]

/-- **A new role is stored as it was made.** -/
theorem HasRole.of_createRole {role : Role} (h : s.Attributed)
    (hok : s.createRole name scope ps = .ok (role, s')) : s'.HasRole role := by
  obtain ⟨t, ht, id, hid, rfl, rfl⟩ := createRole_eq_ok hok
  have ⟨_, _, rows, hrows, _⟩ := h
  refine ⟨_, rfl, ⟨id, .text name, scope.team?.map .int⟩, Index.mem_insert.2 (.inl rfl), ?_⟩
  refine loadRole_of_privileges rfl rfl ?_
  refine loadPrivileges_of_new ?_ (h.free ht hid hrows)
  simp [hrows]

/-- Roles that are stored stay as they are. -/
theorem HasRole.createRole {role old : Role} (hok : s.createRole name scope ps = .ok (role, s'))
    (hold : s.HasRole old) : s'.HasRole old := by
  have hretains : Retains s s' 0 := retains_createRole hok
  have hfound := hretains.roles _ _ (role?_eq_some_iff.2 ⟨hold, rfl⟩)
  exact (role?_eq_some_iff.1 hfound).1

/-- Roles that lie in the same tables are the same. -/
theorem HasRole.of_eq {r : Role} (hroles : s'.roles = s.roles)
    (hprivileges : s'.privileges = s.privileges) (h : s.HasRole r) : s'.HasRole r := by
  have hload : s'.loadRole = s.loadRole := by
    funext row
    simp only [loadRole, loadPrivileges, hprivileges]
  rwa [HasRole, hroles, hload]

/-! ## Built-in roles -/

/-- A built-in role is added under a name that is new among the roles for every team. -/
theorem seed_of_new {r : BuiltinRole} {role : Role} {t : Numbered RoleRow.id}
    (ht : s.roles = some t)
    (hname : ∀ r' ∈ t.rows.rows, r'.isIn .global = true → r'.name ≠ .text r.name)
    (hok : s.createRole r.name .global r.privileges = .ok (role, s')) : s.seed r = .ok s' := by
  have hnone :
      t.rows.rows.find? (fun r' => r'.isIn .global ∧ r'.name = .text r.name) = none := by
    simpa [List.find?_eq_none] using hname
  have hnamed : s.roleNamed? .global r.name = .ok none := by
    simp only [roleNamed?, need, ht, Option.elim_some, bind, Except.bind, hnone, pure, Except.pure]
  refine bind_eq_ok_iff.2 ⟨none, hnamed, ?_⟩
  exact bind_eq_ok_iff.2 ⟨_, hok, rfl⟩

/-- The role that a built-in role is stored as. -/
def stored (r : BuiltinRole) (id : RoleId) : Role := ⟨id, r.name, .global, r.privileges⟩

/-- The store is another with these roles and their privileges. -/
structure Seeded (s₀ s : Store) (t : Numbered RoleRow.id) : Prop where
  attributed : s.Attributed
  roles : s.roles = some t
  rest : s = { s₀ with roles := s.roles, privileges := s.privileges }

/-- One more built-in role is stored as it is, and so are those before it. -/
theorem Seeded.seed {s₀ : Store} {t : Numbered RoleRow.id} {teams : Numbered TeamRow.id}
    (h : Seeded s₀ s t) (hteams : s₀.teams = some teams) (r : BuiltinRole) (id : RoleId)
    (hid : t.next? = some id)
    (hname : ∀ r' ∈ t.rows.rows, r'.isIn .global = true → r'.name ≠ .text r.name) :
    ∃ s', s.seed r = .ok s' ∧ Seeded s₀ s' (t.push ⟨id, .text r.name, none⟩) ∧
      s'.HasRole (stored r id) ∧ ∀ role, s.HasRole role → s'.HasRole role := by
  have ⟨_, _, rows, hrows, _⟩ := h.attributed
  have hteams' : s.teams = some teams := (congrArg Store.teams h.rest).trans hteams
  have hok : s.createRole r.name .global r.privileges =
      .ok (stored r id, s.withRole t rows (stored r id)) :=
    createRole_of_new h.attributed h.roles hteams' hrows hid hname rfl
  have hrest : s.withRole t rows (stored r id) =
      { s₀ with
        roles := (s.withRole t rows (stored r id)).roles
        privileges := (s.withRole t rows (stored r id)).privileges } := by
    rw [withRole, h.rest]
  refine ⟨_, seed_of_new h.roles hname hok, ⟨h.attributed.createRole hok, rfl, hrest⟩, ?_, ?_⟩
  · exact .of_createRole h.attributed hok
  · intro role hrole
    exact hrole.createRole hok

/-- The roles of a new store. -/
def builtinRoles : Numbered RoleRow.id :=
  ((Numbered.empty.push ⟨1, "Environment Owner", none⟩).push ⟨2, "Tenant Admin", none⟩).push
    ⟨3, "Read Only", none⟩

/-- **A new store** has empty tables but for the built-in roles, which it has as they are. -/
theorem fresh_spec (now : Timestamp) :
    Seeded (blank now).withTables (fresh now) builtinRoles ∧
      (fresh now).HasRole (stored .environmentOwner 1) ∧
      (fresh now).HasRole (stored .tenantAdmin 2) ∧ (fresh now).HasRole (stored .readOnly 3) := by
  have hempty : Seeded (blank now).withTables (blank now).withTables Numbered.empty :=
    ⟨⟨_, rfl, _, rfl, fun r hr => absurd hr Index.not_mem_empty⟩, rfl, rfl⟩
  obtain ⟨s₁, hs₁, h₁, hrole₁, -⟩ :=
    hempty.seed rfl .environmentOwner 1 (by decide) (by decide)
  obtain ⟨s₂, hs₂, h₂, hrole₂, hkeep₂⟩ := h₁.seed rfl .tenantAdmin 2 (by decide) (by decide)
  obtain ⟨s₃, hs₃, h₃, hrole₃, hkeep₃⟩ := h₂.seed rfl .readOnly 3 (by decide) (by decide)
  have hfresh : fresh now = s₃ := by
    rw [fresh, afterSetUp, setUp, BuiltinRole.all, seedAll, hs₁]
    dsimp only
    rw [seedAll, hs₂]
    dsimp only
    rw [seedAll, hs₃]
    rfl
  rw [hfresh]
  exact ⟨h₃, hkeep₃ _ (hkeep₂ _ hrole₁), hkeep₃ _ hrole₂, hrole₃⟩

/-- **A built-in role lends every team what it includes.** -/
theorem lends_stored_iff {r : BuiltinRole} {id : RoleId} {team : TeamId} {p : Privilege}
    (h : s.HasRole (stored r id)) : s.Lends team id p ↔ r.includes p = true := by
  have hmem : p ∈ r.privileges ↔ r.includes p = true := by
    have hall : p ∈ Privilege.all := List.mem_of_getElem? (Privilege.all_getElem?_rank p)
    rw [BuiltinRole.privileges, KeySet.mem_ofList, List.mem_filter]
    exact and_iff_right hall
  have hlends : s.Lends team id p ↔ _ := h.lends_iff
  rw [hlends, ← hmem]
  exact and_iff_right rfl

/-- Every table is empty, but those of the roles. -/
structure Unfilled (s : Store) : Prop where
  environments : s.environments = some Index.empty
  tenants : s.tenants = some Index.empty
  odss : s.odss = some Index.empty
  edOrgs : s.edOrgs = some Index.empty
  teams : s.teams = some Numbered.empty
  ownerships : s.ownerships = some Numbered.empty

/-- A new store has no rows but those of the roles. -/
theorem unfilled_fresh (now : Timestamp) : (fresh now).Unfilled := by
  obtain ⟨⟨-, -, hrest⟩, -⟩ := fresh_spec now
  rw [hrest]
  exact ⟨rfl, rfl, rfl, rfl, rfl, rfl⟩

end TeamAccess.Store
