import TeamAccess.Proofs.Needs

/-!
# Totality — a sound store can be read

On a sound store no read fails: every table is there and every row can be read. So nothing is
missing that a build needs, and every team's cache can be built.
-/

namespace TeamAccess

/-! ## Rows -/

/-- A kind is known by its name. -/
theorem ResourceRef.ofParts_kind (r : ResourceRef) : ofParts r.kind.name r.id? = .ok r := by
  cases r <;> rfl

/-- The row of an ownership is read back, with the time that its text names. -/
theorem NewOwnership.load_row (o : NewOwnership) (id : OwnershipId) (stamp now : Timestamp) :
    ∃ created, (o.row id stamp).load now = .ok ⟨id, o.team, o.role, o.resource, created⟩ := by
  refine ⟨(Timestamp.ofRow? stamp.rowText).getD now, ?_⟩
  have hid : IntCell.load? (o.resource.id?.map .int) = .ok o.resource.id? :=
    IntCell.load?_eq_ok_iff.2 rfl
  simp only [row, OwnershipRow.load, OwnershipRow.time, IntCell.load_int, TextCell.load_text, hid,
    bind, Except.bind, pure, Except.pure, ResourceRef.ofParts_kind]

namespace Store

variable {s : Store}

section Tables

variable {ρ α : Type} {load : ρ → Except Fault α}

/-- A look-up succeeds in a filled table whose rows can be read. -/
theorem Filled.succeeds_lookUp {key : ρ → Int64} {t : Option (Index key)}
    (h : Filled t fun r => Succeeds (load r)) (id : Int64) :
    Succeeds (need t >>= fun t => lookUp t load id) := by
  obtain ⟨u, hu, hload⟩ := h
  refine succeeds_need_bind hu ?_
  unfold lookUp
  cases hf : u.find? id with
  | none => exact .pure none
  | some r =>
    obtain ⟨a, ha⟩ := hload r (Index.find?_eq_some_iff.1 hf).1
    exact ⟨some a, by simp [ha]⟩

/-- A list of rows of a filled table is read if the rows can be. -/
theorem Filled.succeeds_mapM {κ : Type} [Ord κ] {key : ρ → κ} {t : Option (Index key)}
    (h : Filled t fun r => Succeeds (load r)) {choose : Index key → List ρ}
    (hchoose : ∀ u, ∀ r ∈ choose u, r ∈ u) :
    Succeeds (need t >>= fun t => (choose t).mapM load) := by
  obtain ⟨u, hu, hload⟩ := h
  exact succeeds_need_bind hu (.mapM fun r hr => hload r (hchoose u r hr))

end Tables

/-! ## Reads of the hierarchy -/

/-- **The tables of the hierarchy are there, and each of their rows can be read.** -/
structure Readable (s : Store) : Prop where
  environments : Filled s.environments fun r => Succeeds r.load
  tenants : Filled s.tenants fun r => Succeeds r.load
  odss : Filled s.odss fun r => Succeeds r.load
  edOrgs : Filled s.edOrgs fun r => Succeeds r.load

/-- On a sound store the hierarchy can be read. -/
theorem Sound.readable (h : s.Sound) : s.Readable where
  environments := h.environments.imp fun _ ⟨e, hr⟩ => ⟨e, EnvironmentRow.load_eq_ok_iff.2 hr⟩
  tenants := h.tenants.imp fun _ ⟨t, hr, _⟩ => ⟨t, TenantRow.load_eq_ok_iff.2 hr⟩
  odss := h.odss.imp fun _ ⟨o, hr, _⟩ => ⟨o, OdsRow.load_eq_ok_iff.2 hr⟩
  edOrgs := h.edOrgs.imp fun _ ⟨x, hr, _⟩ => ⟨x, EdOrgRow.load_eq_ok_iff.2 hr⟩

namespace Readable

theorem succeeds_listEnvironments (h : s.Readable) (f : RowFilter) :
    Succeeds (s.listEnvironments f) :=
  h.environments.succeeds_mapM fun _ _ hr => (List.mem_filter.1 hr).1

theorem succeeds_listTenants (h : s.Readable) (id : ResourceId) (f : RowFilter) :
    Succeeds (s.listTenants id f) :=
  h.tenants.succeeds_mapM fun _ _ hr => (List.mem_filter.1 hr).1

theorem succeeds_listOdss (h : s.Readable) (id : ResourceId) (f : RowFilter) :
    Succeeds (s.listOdss id f) :=
  h.odss.succeeds_mapM fun _ _ hr => (List.mem_filter.1 hr).1

theorem succeeds_listEdOrgs (h : s.Readable) (id : ResourceId) (f : RowFilter) :
    Succeeds (s.listEdOrgs id f) := by
  obtain ⟨t, ht, hrows⟩ := h.edOrgs
  obtain ⟨os, hos, -⟩ := h.odss
  refine succeeds_need_bind ht (succeeds_need_bind hos ?_)
  exact .mapM fun r hr => hrows r (List.mem_filter.1 hr).1

end Readable

namespace Sound

theorem succeeds_environment? (h : s.Sound) (id : ResourceId) : Succeeds (s.environment? id) :=
  h.readable.environments.succeeds_lookUp id

theorem succeeds_tenant? (h : s.Sound) (id : ResourceId) : Succeeds (s.tenant? id) :=
  h.readable.tenants.succeeds_lookUp id

theorem succeeds_ods? (h : s.Sound) (id : ResourceId) : Succeeds (s.ods? id) :=
  h.readable.odss.succeeds_lookUp id

theorem succeeds_edOrg? (h : s.Sound) (id : ResourceId) : Succeeds (s.edOrg? id) :=
  h.readable.edOrgs.succeeds_lookUp id

theorem succeeds_listOdsEdOrgs (h : s.Sound) (id : ResourceId) :
    Succeeds (s.listOdsEdOrgs id) :=
  h.readable.edOrgs.succeeds_mapM fun _ _ hr => (List.mem_filter.1 hr).1

theorem succeeds_listDescendants (h : s.Sound) (id : ResourceId) :
    Succeeds (s.listDescendants id) := by
  obtain ⟨c, hc, -⟩ := h.closure
  refine succeeds_need_bind hc ?_
  refine h.readable.edOrgs.succeeds_mapM fun u r hr => ?_
  obtain ⟨_, -, hfind⟩ := List.mem_filterMap.1 hr
  obtain ⟨_, -, hfind⟩ := Option.bind_eq_some_iff.1 hfind
  exact (Index.find?_eq_some_iff.1 hfind).1

/-! ## Reads of roles and ownerships -/

/-- Every role that is stored can be read: no row of privileges has a code outside the catalog. -/
theorem readsRole (h : s.Sound) {id : RoleId} (hid : s.KnowsRole id) : s.ReadsRole id := by
  obtain ⟨t, ht, hkey⟩ := hid
  obtain ⟨t', ht', hrows⟩ := h.roles
  obtain rfl := Option.some.inj (ht.symm.trans ht')
  obtain ⟨r, hr, hrid⟩ := Index.hasKey_iff.1 hkey
  obtain ⟨hname, hscope⟩ := hrows r hr
  exact ⟨t, ht, r, hr, hrid, hname, hscope,
    h.privileges.imp fun _ ⟨_, p, hrow⟩ _ => ⟨p, by rw [hrow]⟩⟩

/-- Every ownership that is stored can be read, and its role is stored. -/
theorem ownershipRows (h : s.Sound) : ∃ t, s.ownerships = some t ∧
    ∀ r ∈ t.rows, ∃ o : Ownership, r.load s.now = .ok o ∧ s.KnowsRole o.role := by
  obtain ⟨t, ht, hrows⟩ := h.ownerships
  refine ⟨t, ht, fun r hr => ?_⟩
  obtain ⟨o, id, stamp, rfl, hrole⟩ := hrows r hr
  obtain ⟨created, hload⟩ := o.load_row id stamp s.now
  exact ⟨_, hload, hrole⟩

/-- A team is looked up, stored or not. -/
theorem succeeds_team? (h : s.Sound) (id : TeamId) : Succeeds (s.team? id) := by
  obtain ⟨t, ht, hrows⟩ := h.teams
  have hfilled : Filled (some t.rows) fun r => Succeeds r.load :=
    ⟨t.rows, rfl, fun r hr => (hrows r hr).imp fun _ hu => TeamRow.load_eq_ok_iff.2 hu⟩
  exact succeeds_need_bind ht (hfilled.succeeds_lookUp id)

/-- A role is looked up, stored or not. -/
theorem succeeds_role? (h : s.Sound) (id : RoleId) : Succeeds (s.role? id) := by
  obtain ⟨t, ht, -⟩ := h.roles
  cases hkey : t.rows.hasKey id with
  | true =>
    obtain ⟨role, hrole⟩ := exists_hasRole_iff.2 (h.readsRole ⟨t, ht, hkey⟩)
    exact ⟨some role, role?_eq_some_iff.2 hrole⟩
  | false =>
    have hnone : t.rows.find? id = none :=
      Index.find?_eq_none_iff.2 fun r hr => Index.hasKey_eq_false_iff.1 hkey r hr
    refine ⟨none, bind_eq_ok_iff.2 ⟨t, need_eq_ok_iff.2 ht, ?_⟩⟩
    rw [lookUp, hnone]
    rfl

/-- An ownership is looked up, stored or not. -/
theorem succeeds_ownership? (h : s.Sound) (id : OwnershipId) :
    Succeeds (s.ownership? id) := by
  obtain ⟨t, ht, hrows⟩ := h.ownershipRows
  have hfilled : Filled (some t.rows) fun r => Succeeds (r.load s.now) :=
    ⟨t.rows, rfl, fun r hr => (hrows r hr).imp fun _ ho => ho.1⟩
  exact succeeds_need_bind ht (hfilled.succeeds_lookUp id)

/-! ## Builds -/

/-- Every read of the hierarchy succeeds. -/
theorem answers (h : s.Sound) (q : Query) : s.Answers q := by
  cases q with
  | environment id => exact h.succeeds_environment? id
  | tenant id => exact h.succeeds_tenant? id
  | ods id => exact h.succeeds_ods? id
  | edOrg id => exact h.succeeds_edOrg? id
  | tenantsOf id => exact h.readable.succeeds_listTenants id .unrestricted
  | edOrgsOf id => exact h.succeeds_listOdsEdOrgs id
  | below id => exact h.succeeds_listDescendants id

/-- Every resource can be expanded, stored or not. -/
theorem succeeds_expansion (h : s.Sound) (r : ResourceRef) : Succeeds (s.expansion r) :=
  succeeds_expansion_iff.2 fun q _ => h.answers q

/-- Nothing is missing that a build needs. -/
theorem buildable (h : s.Sound) (team : TeamId) : s.Buildable team where
  listed := by
    obtain ⟨t, ht, hrows⟩ := h.ownershipRows
    exact ⟨t, ht, fun r hr _ => (hrows r hr).imp fun _ ho => ho.1⟩
  roles := by
    rintro o ⟨t, ht, r, hr, hload⟩ -
    obtain ⟨t', ht', hrows⟩ := h.ownershipRows
    obtain rfl := Option.some.inj (ht.symm.trans ht')
    obtain ⟨o', hload', hrole⟩ := hrows r hr
    obtain rfl := Except.ok.inj (hload.symm.trans hload')
    exact h.readsRole hrole
  resources _ _ _ _ _ _ _ q _ := h.answers q

/-- **On a sound store every team's cache can be built.** -/
theorem succeeds_buildCache (h : s.Sound) (team : TeamId) : Succeeds (s.buildCache team) :=
  succeeds_buildCache_iff.2 (h.buildable team)

end Sound

end Store

end TeamAccess
