import Mathlib.Tactic.Tauto
import TeamAccess.Proofs.Contents
import TeamAccess.Proofs.Demand
import TeamAccess.Proofs.Memory

/-!
# Contributions — what each ownership adds to a cache

`Store.Contributes` says, resource by resource and subject by subject, what an ownership of a
resource gives for a privilege at a place, from what is stored and nothing else. The expansion of a
resource is put in the same terms (`Store.Expands`), and what an expansion grants is just what the
resource contributes (`Store.exists_grant_iff`).
-/

namespace TeamAccess

namespace Store

variable {s : Store}

/-! ## Places in the hierarchy -/

/-- The tenant is stored, and so is the environment that holds it. -/
structure TenantIn (s : Store) (t : Tenant) (e : Environment) : Prop where
  hasTenant : s.HasTenant t
  hasEnvironment : s.HasEnvironment e
  eq : t.environment = e.id

/-- The ODS is stored, and so are the tenant and the environment above it. -/
structure OdsIn (s : Store) (o : Ods) (t : Tenant) (e : Environment) : Prop where
  hasOds : s.HasOds o
  eq : o.tenant = t.id
  tenantIn : s.TenantIn t e

/-- The resource is the ODS, or a stored organization of it. -/
def LiesIn (s : Store) (o : Ods) : ResourceRef → Prop
  | .ods n => n = o.id
  | .edOrg n => ∃ x, s.HasEdOrg x ∧ x.id = n ∧ x.ods = o.id
  | _ => False

/-- The organization is stored and reached from the resource: an ODS reaches its organizations, an
organization itself and what the closure has below it. -/
def Reaches (s : Store) (x : EdOrg) : ResourceRef → Prop
  | .ods n => s.HasEdOrg x ∧ x.ods = n
  | .edOrg n => s.HasEdOrg x ∧ (x.id = n ∨ s.LiesBelow n x.id)
  | _ => False

/-- The organization's key under a version: its own id, or the instance of its ODS and its id. -/
def HasKey (s : Store) (version : ApiVersion) (x : EdOrg) (k : EdOrgKey) : Prop :=
  match version with
  | .v1 => k = .v1 x.organization
  | .v2 => ∃ o i, s.HasOds o ∧ o.id = x.ods ∧ o.instanceId = some i ∧ k = .v2 i x.organization

/-- **What an ownership of a resource contributes** to a privilege at a place. What lies above the
resource it contributes for reading only, as the single id on the way. -/
inductive Contributes (s : Store) (p : Privilege) : Place → ResourceRef → Demand → Prop
  /-- Everything contributes everything, everywhere. -/
  | everything (pl : Place) (d : Demand) : Contributes s p pl .global d
  | environment {e : Environment} : s.HasEnvironment e → p.subject = .environment →
      Contributes s p .whole (.environment e.id) (.entry (.id e.id))
  /-- An environment contributes all its tenants, also those of the future. -/
  | tenants {e : Environment} (d : Demand) : s.HasEnvironment e → p.subject = .tenant →
      Contributes s p (.environment e.id) (.environment e.id) d
  /-- An environment contributes all that lies in the tenants it has. -/
  | inTenants {t : Tenant} {e : Environment} (d : Demand) : s.TenantIn t e →
      p.shape = .byTenant → Contributes s p (.tenant t.id) (.environment e.id) d
  /-- A tenant contributes all that lies in it. -/
  | inTenant {t : Tenant} {e : Environment} (d : Demand) : s.TenantIn t e →
      p.shape = .byTenant → Contributes s p (.tenant t.id) (.tenant t.id) d
  | tenant {t : Tenant} {e : Environment} : s.TenantIn t e → p.subject = .tenant →
      Contributes s p (.environment e.id) (.tenant t.id) (.entry (.id t.id))
  | aboveTenant {t : Tenant} {e : Environment} : s.TenantIn t e → p.subject = .environment →
      p.action = .read → Contributes s p .whole (.tenant t.id) (.entry (.id e.id))
  | ods {o : Ods} {t : Tenant} {e : Environment} : s.OdsIn o t e → p.subject = .ods →
      Contributes s p (.tenant t.id) (.ods o.id) (.entry (.id o.id))
  /-- The organizations that are reached, in the tenant of the owned resource. -/
  | edOrgs {o : Ods} {t : Tenant} {e : Environment} {r : ResourceRef} {x : EdOrg} :
      s.OdsIn o t e → s.LiesIn o r → s.Reaches x r → p.subject = .edOrg →
      Contributes s p (.tenant t.id) r (.entry (.id x.id))
  /-- Applications of the organizations that are reached, by the keys of these. -/
  | applications {o : Ods} {t : Tenant} {e : Environment} {r : ResourceRef} {x : EdOrg}
      {k : EdOrgKey} : s.OdsIn o t e → s.LiesIn o r → s.Reaches x r → s.HasKey e.version x k →
      p.subject = .application → Contributes s p (.tenant t.id) r (.entry (.edOrg k))
  | odsAbove {o : Ods} {t : Tenant} {e : Environment} {r : ResourceRef} : s.OdsIn o t e →
      s.LiesIn o r → p.subject = .ods → p.action = .read →
      Contributes s p (.tenant t.id) r (.entry (.id o.id))
  | tenantAbove {o : Ods} {t : Tenant} {e : Environment} {r : ResourceRef} : s.OdsIn o t e →
      s.LiesIn o r → p.subject = .tenant → p.action = .read →
      Contributes s p (.environment e.id) r (.entry (.id t.id))
  | environmentAbove {o : Ods} {t : Tenant} {e : Environment} {r : ResourceRef} : s.OdsIn o t e →
      s.LiesIn o r → p.subject = .environment → p.action = .read →
      Contributes s p .whole r (.entry (.id e.id))

/-! ## What is stored under an id is one thing -/

/-- One id, one environment. -/
theorem HasEnvironment.unique {e e' : Environment} (h : s.HasEnvironment e)
    (h' : s.HasEnvironment e') (hid : e.id = e'.id) : e = e' :=
  Option.some.inj (Except.ok.inj
    ((environment?_eq_some_iff.2 ⟨h, rfl⟩).symm.trans (environment?_eq_some_iff.2 ⟨h', hid.symm⟩)))

/-- One id, one tenant. -/
theorem HasTenant.unique {t t' : Tenant} (h : s.HasTenant t) (h' : s.HasTenant t')
    (hid : t.id = t'.id) : t = t' :=
  Option.some.inj (Except.ok.inj
    ((tenant?_eq_some_iff.2 ⟨h, rfl⟩).symm.trans (tenant?_eq_some_iff.2 ⟨h', hid.symm⟩)))

/-- One id, one ODS. -/
theorem HasOds.unique {o o' : Ods} (h : s.HasOds o) (h' : s.HasOds o') (hid : o.id = o'.id) :
    o = o' :=
  Option.some.inj (Except.ok.inj
    ((ods?_eq_some_iff.2 ⟨h, rfl⟩).symm.trans (ods?_eq_some_iff.2 ⟨h', hid.symm⟩)))

/-- One id, one organization. -/
theorem HasEdOrg.unique {x x' : EdOrg} (h : s.HasEdOrg x) (h' : s.HasEdOrg x')
    (hid : x.id = x'.id) : x = x' :=
  Option.some.inj (Except.ok.inj
    ((edOrg?_eq_some_iff.2 ⟨h, rfl⟩).symm.trans (edOrg?_eq_some_iff.2 ⟨h', hid.symm⟩)))

/-- A tenant lies in one environment. -/
theorem TenantIn.unique {t t' : Tenant} {e e' : Environment} (h : s.TenantIn t e)
    (h' : s.TenantIn t' e') (hid : t.id = t'.id) : t = t' ∧ e = e' := by
  obtain rfl := h.hasTenant.unique h'.hasTenant hid
  exact ⟨rfl, h.hasEnvironment.unique h'.hasEnvironment (h.eq.symm.trans h'.eq)⟩

/-- An ODS lies in one tenant. -/
theorem OdsIn.unique {o o' : Ods} {t t' : Tenant} {e e' : Environment} (h : s.OdsIn o t e)
    (h' : s.OdsIn o' t' e') (hid : o.id = o'.id) : o = o' ∧ t = t' ∧ e = e' := by
  obtain rfl := h.hasOds.unique h'.hasOds hid
  exact ⟨rfl, h.tenantIn.unique h'.tenantIn (h.eq.symm.trans h'.eq)⟩

/-- A resource lies in one ODS. -/
theorem LiesIn.unique {o o' : Ods} {r : ResourceRef} (h : s.LiesIn o r) (h' : s.LiesIn o' r) :
    o.id = o'.id := by
  cases r with
  | ods n => exact h.symm.trans h'
  | edOrg n =>
    obtain ⟨x, hx, hid, ho⟩ := h
    obtain ⟨x', hx', hid', ho'⟩ := h'
    obtain rfl := hx.unique hx' (hid.trans hid'.symm)
    exact ho.symm.trans ho'
  | _ => exact h.elim

/-! ## Expansions -/

/-- The resource is stored, with all that lies above it. -/
def Stands (s : Store) : ResourceRef → Prop
  | .global => True
  | .environment n => ∃ e, s.HasEnvironment e ∧ e.id = n
  | .tenant n => ∃ t e, s.TenantIn t e ∧ t.id = n
  | .ods n => ∃ o t e, s.OdsIn o t e ∧ s.LiesIn o (.ods n)
  | .edOrg n => ∃ o t e, s.OdsIn o t e ∧ s.LiesIn o (.edOrg n)

/-- What lies in an ODS that stands, stands. -/
theorem OdsIn.stands {o : Ods} {t : Tenant} {e : Environment} {r : ResourceRef}
    (h : s.OdsIn o t e) (hr : s.LiesIn o r) : s.Stands r := by
  cases r with
  | ods n => exact ⟨o, t, e, h, hr⟩
  | edOrg n => exact ⟨o, t, e, h, hr⟩
  | _ => exact hr.elim

/-- Only what stands contributes. -/
theorem Contributes.stands {p : Privilege} {pl : Place} {r : ResourceRef} {d : Demand}
    (h : s.Contributes p pl r d) : s.Stands r := by
  cases h with
  | everything => trivial
  | environment he _ | tenants _ he _ => exact ⟨_, he, rfl⟩
  | inTenants _ ht _ => exact ⟨_, ht.hasEnvironment, rfl⟩
  | inTenant _ ht _ | tenant ht _ | aboveTenant ht _ _ => exact ⟨_, _, ht, rfl⟩
  | ods ho _ => exact ho.stands rfl
  | edOrgs ho hr _ _ | applications ho hr _ _ _ => exact ho.stands hr
  | odsAbove ho hr _ _ | tenantAbove ho hr _ _ | environmentAbove ho hr _ _ => exact ho.stands hr

/-- What the expansion of a resource has to be. -/
inductive Expands (s : Store) : ResourceRef → Expansion → Prop
  | global : Expands s .global .everything
  | environment {n : ResourceId} {e : Environment} {ts : List ResourceId} : s.HasEnvironment e →
      e.id = n → (∀ m, m ∈ ts ↔ ∃ t, s.TenantIn t e ∧ t.id = m) →
      Expands s (.environment n) (.environment n ts)
  | tenant {n : ResourceId} {t : Tenant} {e : Environment} : s.TenantIn t e → t.id = n →
      Expands s (.tenant n) (.tenant e.id n)
  | part {r : ResourceRef} {o : Ods} {t : Tenant} {e : Environment} {xs : KeySet ResourceId}
      {ks : KeySet EdOrgKey} {ownsOds : Bool} : s.OdsIn o t e → s.LiesIn o r →
      (ownsOds = true ↔ r = .ods o.id) → (∀ n, n ∈ xs ↔ ∃ x, s.Reaches x r ∧ x.id = n) →
      (∀ k, k ∈ ks ↔ ∃ x, s.Reaches x r ∧ s.HasKey e.version x k) →
      Expands s r (.part ⟨e.id, t.id, o.id, ownsOds, xs, ks⟩)
  | dangling {r : ResourceRef} : ¬ s.Stands r → Expands s r .dangling

/-- The key that is read for an organization is the one it has. -/
theorem keyOf?_eq_ok_iff {version : ApiVersion} {x : EdOrg} {key : Option EdOrgKey}
    (h : s.keyOf? version x = .ok key) {k : EdOrgKey} : key = some k ↔ s.HasKey version x k := by
  cases version with
  | v1 =>
    cases h
    simp [HasKey, eq_comm]
  | v2 =>
    obtain ⟨found, hfound, h⟩ := bind_eq_ok_iff.1 h
    cases h
    cases found with
    | none =>
      simp only [Option.bind_none, reduceCtorEq, HasKey, false_iff]
      rintro ⟨o, i, ho, hid, -⟩
      rw [ods?_eq_some_iff.2 ⟨ho, hid⟩] at hfound
      cases hfound
    | some o =>
      obtain ⟨ho, hid⟩ := ods?_eq_some_iff.1 hfound
      simp only [Option.bind_some, EdOrgKey.under?, Option.map_eq_some_iff, HasKey]
      constructor
      · rintro ⟨i, hi, rfl⟩
        exact ⟨o, i, ho, hid, hi, rfl⟩
      · rintro ⟨o', i, ho', hid', hi, rfl⟩
        obtain rfl := ho.unique ho' (hid.trans hid'.symm)
        exact ⟨i, hi, rfl⟩

/-- The keys that are read for organizations are those that one of them has. -/
theorem mem_of_keysOf {version : ApiVersion} {xs : List EdOrg} {ks : List EdOrgKey}
    (h : s.keysOf version xs = .ok ks) {k : EdOrgKey} :
    k ∈ ks ↔ ∃ x ∈ xs, s.HasKey version x k := by
  induction xs generalizing ks with
  | nil =>
    cases h
    simp
  | cons x xs ih =>
    obtain ⟨key, hkey, h⟩ := bind_eq_ok_iff.1 h
    obtain ⟨rest, hrest, h⟩ := bind_eq_ok_iff.1 h
    cases h
    rw [List.mem_append, Option.mem_toList, keyOf?_eq_ok_iff hkey, ih hrest]
    simp

/-- A part is expanded exactly if its ODS stands. -/
theorem partOf_eq_ok {ods : ResourceId} {ownsOds : Bool} {xs : List EdOrg} {x : Expansion}
    (h : s.partOf ods ownsOds xs = .ok x) :
    (x = .dangling ∧ ∀ o t e, s.OdsIn o t e → o.id ≠ ods) ∨
      ∃ o t e ks, s.OdsIn o t e ∧ o.id = ods ∧ s.keysOf e.version xs = .ok ks ∧
        x = .part ⟨e.id, t.id, ods, ownsOds, Index.ofList (xs.map EdOrg.id), Index.ofList ks⟩ := by
  -- Three look-ups one after the other; the first that finds nothing leaves no place for the part.
  obtain ⟨o?, ho, h⟩ := bind_eq_ok_iff.1 h
  cases o? with
  | none =>
    cases h
    refine .inl ⟨rfl, fun o t e hin hid => ?_⟩
    rw [ods?_eq_some_iff.2 ⟨hin.hasOds, hid⟩] at ho
    cases ho
  | some o =>
    obtain ⟨hods, hid⟩ := ods?_eq_some_iff.1 ho
    obtain ⟨t?, ht, h⟩ := bind_eq_ok_iff.1 h
    cases t? with
    | none =>
      cases h
      refine .inl ⟨rfl, fun o' t e hin hid' => ?_⟩
      obtain rfl := hods.unique hin.hasOds (hid.trans hid'.symm)
      rw [tenant?_eq_some_iff.2 ⟨hin.tenantIn.hasTenant, hin.eq.symm⟩] at ht
      cases ht
    | some t =>
      obtain ⟨htenant, htid⟩ := tenant?_eq_some_iff.1 ht
      obtain ⟨e?, he, h⟩ := bind_eq_ok_iff.1 h
      cases e? with
      | none =>
        cases h
        refine .inl ⟨rfl, fun o' t' e hin hid' => ?_⟩
        obtain rfl := hods.unique hin.hasOds (hid.trans hid'.symm)
        obtain rfl := htenant.unique hin.tenantIn.hasTenant (htid.trans hin.eq)
        rw [environment?_eq_some_iff.2 ⟨hin.tenantIn.hasEnvironment, hin.tenantIn.eq.symm⟩] at he
        cases he
      | some e =>
        obtain ⟨henv, heid⟩ := environment?_eq_some_iff.1 he
        obtain ⟨ks, hks, h⟩ := bind_eq_ok_iff.1 h
        cases h
        exact .inr ⟨o, t, e, ks, ⟨hods, htid.symm, htenant, henv, heid.symm⟩, hid, hks, rfl⟩

/-- The organizations below a stored one, with itself, are those it reaches. -/
theorem mem_withRoot_iff {root x : EdOrg} {below : List EdOrg} (hroot : s.HasEdOrg root)
    (hbelow : ∀ y, y ∈ below ↔ s.HasEdOrg y ∧ s.LiesBelow root.id y.id) :
    x ∈ withRoot root below ↔ s.Reaches x (.edOrg root.id) := by
  have hreach : s.Reaches x (.edOrg root.id) ↔ x = root ∨ x ∈ below := by
    rw [hbelow]
    constructor
    · rintro ⟨hx, hid | hb⟩
      · exact .inl (hx.unique hroot hid)
      · exact .inr ⟨hx, hb⟩
    · rintro (rfl | ⟨hx, hb⟩)
      · exact ⟨hroot, .inl rfl⟩
      · exact ⟨hx, .inr hb⟩
  rw [hreach, withRoot]
  split
  · -- The closure has the root below itself already, so it is not added once more.
    rename_i hany
    obtain ⟨y, hy, hid⟩ := List.any_eq_true.1 hany
    have hyroot : y = root := ((hbelow y).1 hy).1.unique hroot (by simpa using hid)
    constructor
    · exact .inr
    · rintro (rfl | hx)
      · exact hyroot ▸ hy
      · exact hx
  · rw [List.mem_append, List.mem_singleton, or_comm]

/-- **What the expansion of a part is**, if the part lies in that ODS and its organizations are
those that the resource reaches. -/
theorem expands_of_partOf {r : ResourceRef} {ods : ResourceId} {ownsOds : Bool} {xs : List EdOrg}
    {x : Expansion} (h : s.partOf ods ownsOds xs = .ok x)
    (hr : ∀ o, s.LiesIn o r ↔ o.id = ods) (howns : ownsOds = true ↔ r = .ods ods)
    (hstands : s.Stands r ↔ ∃ o t e, s.OdsIn o t e ∧ s.LiesIn o r)
    (hxs : ∀ y, y ∈ xs ↔ s.Reaches y r) : s.Expands r x := by
  rcases partOf_eq_ok h with ⟨rfl, hno⟩ | ⟨o, t, e, ks, ho, rfl, hks, rfl⟩
  · refine .dangling fun hst => ?_
    obtain ⟨o, t, e, ho, hlies⟩ := hstands.1 hst
    exact hno o t e ho ((hr o).1 hlies)
  · refine .part ho ((hr o).2 rfl) howns (fun n => ?_) fun k => ?_
    · simp [hxs]
    · simp [mem_of_keysOf hks, hxs]

/-- An environment is expanded to itself and the tenants that it has. -/
theorem expands_environment {n : ResourceId} {x : Expansion}
    (h : s.expansion (.environment n) = .ok x) : s.Expands (.environment n) x := by
  obtain ⟨e?, he, h⟩ := bind_eq_ok_iff.1 h
  cases e? with
  | none =>
    cases h
    refine .dangling fun ⟨e, hhas, hid⟩ => ?_
    rw [environment?_eq_some_iff.2 ⟨hhas, hid⟩] at he
    cases he
  | some e =>
    obtain ⟨hhas, hid⟩ := environment?_eq_some_iff.1 he
    obtain ⟨ts, hts, h⟩ := bind_eq_ok_iff.1 h
    cases h
    refine .environment hhas hid fun m => ?_
    simp only [List.mem_map, mem_of_listTenants hts, RowFilter.admits, and_true]
    constructor
    · rintro ⟨t, ⟨ht, hte⟩, rfl⟩
      exact ⟨t, ⟨ht, hhas, hte.trans hid.symm⟩, rfl⟩
    · rintro ⟨t, ht, rfl⟩
      exact ⟨t, ⟨ht.hasTenant, ht.eq.trans hid⟩, rfl⟩

/-- A tenant is expanded to itself in its environment. -/
theorem expands_tenant {n : ResourceId} {x : Expansion} (h : s.expansion (.tenant n) = .ok x) :
    s.Expands (.tenant n) x := by
  obtain ⟨t?, ht, h⟩ := bind_eq_ok_iff.1 h
  cases t? with
  | none =>
    cases h
    refine .dangling fun ⟨t, e, hin, hid⟩ => ?_
    rw [tenant?_eq_some_iff.2 ⟨hin.hasTenant, hid⟩] at ht
    cases ht
  | some t =>
    obtain ⟨hhas, hid⟩ := tenant?_eq_some_iff.1 ht
    obtain ⟨e?, he, h⟩ := bind_eq_ok_iff.1 h
    cases e? with
    | none =>
      -- The tenant is stored but not its environment, so it does not stand.
      cases h
      refine .dangling fun ⟨t', e, hin, hid'⟩ => ?_
      obtain rfl := hhas.unique hin.hasTenant (hid.trans hid'.symm)
      rw [environment?_eq_some_iff.2 ⟨hin.hasEnvironment, hin.eq.symm⟩] at he
      cases he
    | some e =>
      obtain ⟨henv, heid⟩ := environment?_eq_some_iff.1 he
      cases h
      exact heid ▸ .tenant ⟨hhas, henv, heid.symm⟩ hid

/-- An organization is expanded to a part of its ODS, with itself and what lies below it. -/
theorem expands_edOrg {n : ResourceId} {x : Expansion} (h : s.expansion (.edOrg n) = .ok x) :
    s.Expands (.edOrg n) x := by
  obtain ⟨root?, hroot, h⟩ := bind_eq_ok_iff.1 h
  cases root? with
  | none =>
    cases h
    refine .dangling fun ⟨o, t, e, _, y, hy, hid, _⟩ => ?_
    rw [edOrg?_eq_some_iff.2 ⟨hy, hid⟩] at hroot
    cases hroot
  | some root =>
    obtain ⟨hhas, rfl⟩ := edOrg?_eq_some_iff.1 hroot
    obtain ⟨below, hbelow, h⟩ := bind_eq_ok_iff.1 h
    have hlies (o : Ods) : s.LiesIn o (.edOrg root.id) ↔ o.id = root.ods := by
      constructor
      · rintro ⟨y, hy, hid, hyo⟩
        obtain rfl := hy.unique hhas hid
        exact hyo.symm
      · intro hid
        exact ⟨root, hhas, rfl, hid.symm⟩
    exact expands_of_partOf h hlies (by simp) .rfl fun y =>
      mem_withRoot_iff hhas fun z => mem_of_listDescendants hbelow

/-- **A resource is expanded to what it has to be**, whenever it can be expanded. -/
theorem expands_of_expansion {r : ResourceRef} {x : Expansion} (h : s.expansion r = .ok x) :
    s.Expands r x := by
  cases r with
  | global =>
    cases h
    exact .global
  | environment n => exact expands_environment h
  | tenant n => exact expands_tenant h
  | ods n =>
    obtain ⟨xs, hxs, h⟩ := bind_eq_ok_iff.1 h
    exact expands_of_partOf h (fun o => eq_comm) (by simp) .rfl fun y => mem_of_listOdsEdOrgs hxs
  | edOrg n => exact expands_edOrg h

/-! ## What expansions grant -/

/-- What lies in an ODS that stands is expanded to a part of it. -/
theorem Expands.inOds {r : ResourceRef} {x : Expansion} {o : Ods} {t : Tenant} {e : Environment}
    (hx : s.Expands r x) (ho : s.OdsIn o t e) (hr : s.LiesIn o r) :
    ∃ ownsOds xs ks, x = .part ⟨e.id, t.id, o.id, ownsOds, xs, ks⟩ ∧
      (ownsOds = true ↔ r = .ods o.id) ∧ (∀ n, n ∈ xs ↔ ∃ y, s.Reaches y r ∧ y.id = n) ∧
      ∀ k, k ∈ ks ↔ ∃ y, s.Reaches y r ∧ s.HasKey e.version y k := by
  cases hx with
  | part ho' hr' howns hxs hks =>
    obtain ⟨rfl, rfl, rfl⟩ := ho.unique ho' (hr.unique hr')
    exact ⟨_, _, _, rfl, howns, hxs, hks⟩
  | dangling hno => exact absurd (ho.stands hr) hno
  | global | environment _ _ _ | tenant _ _ => exact hr.elim

section Grants

variable {p : Privilege} {pl : Place} {d : Demand} {g : Grant} {e : Environment}

/-- What is granted for an environment, the environment contributes. -/
theorem contributes_of_environment {ts : List ResourceId} (he : s.HasEnvironment e)
    (hts : ∀ n, n ∈ ts ↔ ∃ t, s.TenantIn t e ∧ t.id = n) (hpl : pl.shape = p.shape)
    (hg : g ∈ (Expansion.environment e.id ts).grants p) (hd : g.Gives pl d) :
    s.Contributes p pl (.environment e.id) d := by
  simp only [Expansion.grants] at hg
  -- By what the privilege acts on: environments, tenants, or what lies in tenants.
  split at hg
  · rename_i hs
    obtain rfl := List.mem_singleton.1 hg
    obtain ⟨rfl, hm⟩ := Grant.gives_ids_iff.1 hd
    exact IdSet.gives_one.1 hm ▸ .environment he hs
  · rename_i hs
    obtain rfl := List.mem_singleton.1 hg
    have hshape : pl.shape = .byEnvironment := hpl.trans (congrArg Subject.shape hs)
    obtain ⟨rfl, -⟩ := (Grant.gives_within_environment_iff hshape).1 hd
    exact .tenants d he hs
  · rename_i hne hnt
    have hshape := Privilege.shape_eq_byTenant_iff.2 ⟨hne, hnt⟩
    obtain ⟨n, hn, rfl⟩ := List.mem_map.1 hg
    obtain ⟨rfl, -⟩ := (Grant.gives_within_tenant_iff (hpl.trans hshape)).1 hd
    obtain ⟨t, ht, rfl⟩ := (hts n).1 hn
    exact .inTenants d ht hshape

/-- What is granted for a tenant, the tenant contributes. -/
theorem contributes_of_tenant {t : Tenant} (ht : s.TenantIn t e) (hpl : pl.shape = p.shape)
    (hg : g ∈ (Expansion.tenant e.id t.id).grants p) (hd : g.Gives pl d) :
    s.Contributes p pl (.tenant t.id) d := by
  simp only [Expansion.grants] at hg
  -- By what the privilege acts on, as above; its environment a tenant contributes for reading only.
  split at hg
  · rename_i hs
    obtain ⟨hread, rfl⟩ := Grant.mem_ifSafe.1 hg
    obtain ⟨rfl, hm⟩ := Grant.gives_ids_iff.1 hd
    exact IdSet.gives_one.1 hm ▸ .aboveTenant ht hs hread
  · rename_i hs
    obtain rfl := List.mem_singleton.1 hg
    have hshape : pl.shape = .byEnvironment := hpl.trans (congrArg Subject.shape hs)
    obtain ⟨rfl, hm⟩ := (Grant.gives_within_environment_iff hshape).1 hd
    exact IdSet.gives_one.1 hm ▸ .tenant ht hs
  · rename_i hne hnt
    have hshape := Privilege.shape_eq_byTenant_iff.2 ⟨hne, hnt⟩
    obtain rfl := List.mem_singleton.1 hg
    obtain ⟨rfl, -⟩ := (Grant.gives_within_tenant_iff (hpl.trans hshape)).1 hd
    exact .inTenant d ht hshape

/-- What is granted for a part of an ODS, the resource that is expanded to it contributes. -/
theorem contributes_of_part {r : ResourceRef} {o : Ods} {t : Tenant} {xs : KeySet ResourceId}
    {ks : KeySet EdOrgKey} {ownsOds : Bool} (ho : s.OdsIn o t e) (hr : s.LiesIn o r)
    (howns : ownsOds = true ↔ r = .ods o.id) (hxs : ∀ n, n ∈ xs ↔ ∃ x, s.Reaches x r ∧ x.id = n)
    (hks : ∀ k, k ∈ ks ↔ ∃ x, s.Reaches x r ∧ s.HasKey e.version x k) (hpl : pl.shape = p.shape)
    (hg : g ∈ (Expansion.part ⟨e.id, t.id, o.id, ownsOds, xs, ks⟩).grants p)
    (hd : g.Gives pl d) : s.Contributes p pl r d := by
  have hshape {c : Subject} (hs : p.subject = c) : pl.shape = c.shape :=
    hpl.trans (congrArg Subject.shape hs)
  simp only [Expansion.grants, Part.grants] at hg
  -- From above to below: the environment, the tenant, the ODS, organizations and applications.
  split at hg
  · rename_i hs
    obtain ⟨hread, rfl⟩ := Grant.mem_ifSafe.1 hg
    obtain ⟨rfl, hm⟩ := Grant.gives_ids_iff.1 hd
    exact IdSet.gives_one.1 hm ▸ .environmentAbove ho hr hs hread
  · rename_i hs
    obtain ⟨hread, rfl⟩ := Grant.mem_ifSafe.1 hg
    obtain ⟨rfl, hm⟩ := (Grant.gives_within_environment_iff (hshape hs)).1 hd
    exact IdSet.gives_one.1 hm ▸ .tenantAbove ho hr hs hread
  · rename_i hs
    split at hg
    · rename_i howned
      obtain rfl := howns.1 howned
      obtain rfl := List.mem_singleton.1 hg
      obtain ⟨rfl, hm⟩ := (Grant.gives_within_tenant_iff (hshape hs)).1 hd
      exact IdSet.gives_one.1 hm ▸ .ods ho hs
    · obtain ⟨hread, rfl⟩ := Grant.mem_ifSafe.1 hg
      obtain ⟨rfl, hm⟩ := (Grant.gives_within_tenant_iff (hshape hs)).1 hd
      exact IdSet.gives_one.1 hm ▸ .odsAbove ho hr hs hread
  · rename_i hs
    obtain rfl := List.mem_singleton.1 hg
    obtain ⟨rfl, hm⟩ := (Grant.gives_within_tenant_iff (hshape hs)).1 hd
    obtain ⟨n, hn, rfl⟩ := IdSet.gives_ofIds.1 hm
    obtain ⟨y, hy, rfl⟩ := (hxs n).1 hn
    exact .edOrgs ho hr hy hs
  · rename_i hs
    obtain rfl := List.mem_singleton.1 hg
    obtain ⟨rfl, hm⟩ := (Grant.gives_within_tenant_iff (hshape hs)).1 hd
    obtain ⟨_, hmem, rfl⟩ := IdSet.gives_ofKeys.1 hm
    obtain ⟨k, hk, rfl⟩ := List.mem_map.1 hmem
    obtain ⟨y, hy, hkey⟩ := (hks k).1 hk
    exact .applications ho hr hy hkey hs
  -- Nothing is granted for vendors and claim sets.
  all_goals cases hg

/-- What an expansion grants, the resource contributes. -/
theorem contributes_of_gives {r : ResourceRef} {x : Expansion} (hx : s.Expands r x)
    (hpl : pl.shape = p.shape) (hg : g ∈ x.grants p) (hd : g.Gives pl d) :
    s.Contributes p pl r d := by
  cases hx with
  | global => exact .everything pl d
  | environment he hid hts =>
    subst hid
    exact contributes_of_environment he hts hpl hg hd
  | tenant ht hid =>
    subst hid
    exact contributes_of_tenant ht hpl hg hd
  | part ho hr howns hxs hks => exact contributes_of_part ho hr howns hxs hks hpl hg hd
  | dangling _ => cases hg

end Grants

/-- A stored environment is expanded to itself and its tenants. -/
theorem Expands.ofEnvironment {x : Expansion} {e : Environment}
    (hx : s.Expands (.environment e.id) x) (he : s.HasEnvironment e) :
    ∃ ts, x = .environment e.id ts ∧ ∀ n, n ∈ ts ↔ ∃ t, s.TenantIn t e ∧ t.id = n := by
  cases hx with
  | environment he' hid hts =>
    obtain rfl := he'.unique he hid
    exact ⟨_, rfl, hts⟩
  | part _ hr _ _ _ => exact hr.elim
  | dangling hno => exact absurd ⟨e, he, rfl⟩ hno

/-- A tenant that stands is expanded to itself in its environment. -/
theorem Expands.ofTenant {x : Expansion} {t : Tenant} {e : Environment}
    (hx : s.Expands (.tenant t.id) x) (ht : s.TenantIn t e) : x = .tenant e.id t.id := by
  cases hx with
  | tenant ht' hid =>
    obtain ⟨rfl, rfl⟩ := ht'.unique ht hid
    rfl
  | part _ hr _ _ _ => exact hr.elim
  | dangling hno => exact absurd ⟨t, e, ht, rfl⟩ hno

/-- What a resource contributes, its expansion grants. -/
theorem Contributes.exists_grant {p : Privilege} {pl : Place} {r : ResourceRef} {x : Expansion}
    {d : Demand} (h : s.Contributes p pl r d) (hx : s.Expands r x) :
    ∃ g ∈ x.grants p, g.Gives pl d := by
  cases h with
  | everything =>
    cases hx with
    | global => exact ⟨.everything, by simp [Expansion.grants], trivial⟩
    | part _ hr _ _ _ => exact hr.elim
    | dangling hno => exact absurd trivial hno
  | environment he hs =>
    obtain ⟨ts, rfl, -⟩ := hx.ofEnvironment he
    simp [Expansion.grants, hs, Grant.Gives]
  | tenants d he hs =>
    obtain ⟨ts, rfl, -⟩ := hx.ofEnvironment he
    simp [Expansion.grants, hs, Grant.Gives]
  | inTenants d ht hshape =>
    obtain ⟨ts, rfl, hts⟩ := hx.ofEnvironment ht.hasEnvironment
    obtain ⟨hne, hnt⟩ := Privilege.shape_eq_byTenant_iff.1 hshape
    simp only [Expansion.grants]
    exact ⟨_, List.mem_map.2 ⟨_, (hts _).2 ⟨_, ht, rfl⟩, rfl⟩, rfl, trivial⟩
  | inTenant d ht hshape =>
    obtain rfl := hx.ofTenant ht
    obtain ⟨hne, hnt⟩ := Privilege.shape_eq_byTenant_iff.1 hshape
    simp only [Expansion.grants]
    exact ⟨_, List.mem_singleton.2 rfl, rfl, trivial⟩
  | tenant ht hs =>
    obtain rfl := hx.ofTenant ht
    simp [Expansion.grants, hs, Grant.Gives]
  | aboveTenant ht hs hread =>
    obtain rfl := hx.ofTenant ht
    simp [Expansion.grants, hs, hread, Grant.Gives]
  | ods ho hs =>
    obtain ⟨ownsOds, xs, ks, rfl, howns, -⟩ := hx.inOds ho rfl
    simp [Expansion.grants, Part.grants, hs, howns.2 rfl, Grant.Gives]
  | edOrgs ho hr hy hs =>
    obtain ⟨ownsOds, xs, ks, rfl, -, hxs, -⟩ := hx.inOds ho hr
    have hmem := (hxs _).2 ⟨_, hy, rfl⟩
    simpa [Expansion.grants, Part.grants, hs, Grant.Gives, Index.mem_def] using hmem
  | applications ho hr hy hkey hs =>
    obtain ⟨ownsOds, xs, ks, rfl, -, -, hks⟩ := hx.inOds ho hr
    have hmem := (hks _).2 ⟨_, hy, hkey⟩
    simpa [Expansion.grants, Part.grants, hs, Grant.Gives, Index.mem_def] using hmem
  | odsAbove ho hr hs hread =>
    obtain ⟨ownsOds, xs, ks, rfl, -⟩ := hx.inOds ho hr
    cases ownsOds <;> simp [Expansion.grants, Part.grants, hs, hread, Grant.Gives]
  | tenantAbove ho hr hs hread =>
    obtain ⟨ownsOds, xs, ks, rfl, -⟩ := hx.inOds ho hr
    simp [Expansion.grants, Part.grants, hs, hread, Grant.Gives]
  | environmentAbove ho hr hs hread =>
    obtain ⟨ownsOds, xs, ks, rfl, -⟩ := hx.inOds ho hr
    simp [Expansion.grants, Part.grants, hs, hread, Grant.Gives]

/-- **An expansion grants for a privilege just what the resource contributes to it.** -/
theorem exists_grant_iff {p : Privilege} {pl : Place} {r : ResourceRef} {x : Expansion}
    {d : Demand} (hx : s.Expands r x) (hpl : pl.shape = p.shape) :
    (∃ g ∈ x.grants p, g.Gives pl d) ↔ s.Contributes p pl r d := by
  constructor
  · rintro ⟨g, hg, hd⟩
    exact contributes_of_gives hx hpl hg hd
  · intro h
    exact h.exists_grant hx

end Store

end TeamAccess
