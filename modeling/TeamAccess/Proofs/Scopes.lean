import TeamAccess.Proofs.Cover
import TeamAccess.Proofs.Growth

/-!
# Scopes — what is filed in a scope lies there

A cache files sets of ids by place, and an entry of everything has none beside that
(`Cache.Tidy`). What is listed in a set belongs to its place: the row, or the organization of the
key, lies there (`Store.Belongs`). An ownership of an organization files what the closure has below
it under the tenant of the organization's own ODS, so this rests on the closure joining
organizations of one ODS only (`Store.Sound.belongs_or_everything`). And a resource contributes to
the places it lies in and to no other, so a new ownership is seen nowhere else
(`Store.extract_createOwnership`).
-/

namespace TeamAccess

/-! ## Sets as grants leave them

Filed sets keep the flag of everything beside the scopes. The type allows scopes under the flag; a
grant of everything drops those that there are, and a grant in a scope adds none any more. So a
scope that is named is one whose set counts. -/

/-- A set is empty if it gives nothing. -/
theorem IdSet.isEmpty_eq_false_iff {ids : IdSet} : ids.isEmpty = false ↔ ∃ d, ids.Gives d := by
  constructor
  · intro h
    cases ids with
    | all => exact ⟨.everything, gives_all⟩
    | only ks =>
      by_contra hno
      have hempty : ks.isEmpty = true := Index.isEmpty_iff.2 fun k hk => hno ⟨.entry k, hk⟩
      rw [isEmpty, hempty] at h
      cases h
  · rintro ⟨d, hd⟩
    rw [Bool.eq_false_iff]
    intro hempty
    exact not_gives_of_isEmpty hempty hd

namespace ScopedIds

variable {s : ScopedIds}

/-- **Filed sets as grants leave them.** -/
structure Tidy (s : ScopedIds) : Prop where
  /-- Where everything is granted, no scope is named. -/
  closed : s.isEverywhere = true → s.scopeKeys = []
  /-- No scope has an empty set. -/
  filled : ∀ n ids, s.scopes.get? n = some ids → ids.isEmpty = false

/-- Without scopes there is nothing to be untidy. -/
theorem tidy_of_no_scopes (flag : Bool) : Tidy ⟨flag, Index.empty⟩ where
  closed _ := rfl
  filled n ids hget := by cases hget

/-- A grant in a scope does not make it one in every scope. -/
@[simp] theorem isEverywhere_grant (s : ScopedIds) (scope : ResourceId) (more : IdSet) :
    (s.grant scope more).isEverywhere = s.isEverywhere := by
  unfold grant
  split <;> rfl

/-- **A grant in a scope leaves filed sets tidy.** Under the flag it returns before it looks at
scopes, and so it does if it has nothing to add. -/
theorem Tidy.grant (h : s.Tidy) (scope : ResourceId) (more : IdSet) :
    (s.grant scope more).Tidy where
  closed hflag := by
    rw [isEverywhere_grant] at hflag
    rw [ScopedIds.grant, if_pos (by rw [hflag, Bool.true_or])]
    exact h.closed hflag
  filled n ids hget := by
    rw [ScopedIds.grant] at hget
    split at hget
    · exact h.filled n ids hget
    · rename_i hmore
      rw [Bool.or_eq_true, not_or] at hmore
      rw [KeyMap.get?_put] at hget
      split at hget
      · obtain rfl := Option.some.inj hget
        obtain ⟨d, hd⟩ := IdSet.isEmpty_eq_false_iff.1 (Bool.eq_false_iff.2 hmore.2)
        exact IdSet.isEmpty_eq_false_iff.2 ⟨d, IdSet.gives_union.2 (.inr hd)⟩
      · exact h.filled n ids hget

/-- The scope 1 had a set, and none any more once everything is granted. -/
example : (empty.grant 1 (.one 2)).scopeKeys = [1] ∧
    ((empty.grant 1 (.one 2)).grantAll.grant 1 (.one 2)).scopeKeys = [] := by
  decide

/-- The set that a scope has is the scope's. -/
theorem Tidy.get_eq (h : s.Tidy) {scope : ResourceId} {ids : IdSet}
    (hget : s.scopes.get? scope = some ids) : s.get scope = ids := by
  have hflag : s.isEverywhere ≠ true := by
    intro hall
    have hnamed : scope ∈ s.scopeKeys := KeyMap.mem_keys_iff.2 ⟨ids, hget⟩
    rw [h.closed hall] at hnamed
    cases hnamed
  rw [get, if_neg hflag, hget, Option.getD_some]

/-- What a scope gives apart from everything is in a set that it has. -/
theorem exists_get? {n : ResourceId} {k : AccessKey} (h : (s.get n).Gives (.entry k))
    (hno : ¬ (s.get n).Gives .everything) :
    ∃ ks, s.scopes.get? n = some (.only ks) ∧ k ∈ ks := by
  rw [get] at h hno
  split at h
  · rename_i hflag
    exact (hno (by simp [hflag])).elim
  · rename_i hflag
    rw [if_neg hflag] at hno
    cases hget : s.scopes.get? n with
    | none => simp [hget] at h
    | some ids =>
      rw [hget, Option.getD_some] at h hno
      cases ids with
      | all => exact absurd IdSet.gives_all hno
      | only ks => exact ⟨ks, rfl, h⟩

end ScopedIds

namespace CacheEntry

variable {e e' : CacheEntry} {g : Grant} {pl : Place}

/-- The ids of an entry that files them by scope. -/
def scoped? : CacheEntry → Option ScopedIds
  | unscoped _ => none
  | byEnvironment ids | byTenant ids => some ids

/-- What the entry files by scope is tidy. -/
def Tidy (e : CacheEntry) : Prop := ∀ s, e.scoped? = some s → s.Tidy

/-- A blank entry has no scopes at all. -/
theorem tidy_blank {shape : Shape} : (blank shape).Tidy := by
  intro s hs
  cases shape <;> cases hs <;> exact ScopedIds.tidy_of_no_scopes false

/-- **A grant leaves an entry tidy.** It is of everything, which leaves no scopes, or it is in one
scope. -/
theorem Tidy.add? (h : e.Tidy) (he : e.add? g = some e') : e'.Tidy := by
  intro s hs
  cases e <;> cases g <;> simp only [CacheEntry.add?, Option.some.injEq, reduceCtorEq] at he <;>
    subst he <;> cases hs
  case byEnvironment.everything | byTenant.everything => exact ScopedIds.tidy_of_no_scopes true
  case byEnvironment.within old scope more | byTenant.within old scope more =>
    exact (h old rfl).grant scope more

/-- The entry has the set for the place: the one set that it has, or that of one of its scopes. -/
inductive Files : CacheEntry → Place → IdSet → Prop
  | whole (ids : IdSet) : Files (.unscoped ids) .whole ids
  | environment {s : ScopedIds} {n : ResourceId} {ids : IdSet} : s.scopes.get? n = some ids →
      Files (.byEnvironment s) (.environment n) ids
  | tenant {s : ScopedIds} {n : ResourceId} {ids : IdSet} : s.scopes.get? n = some ids →
      Files (.byTenant s) (.tenant n) ids

/-- What an entry gives at a place that it has a set for is what the set gives. -/
theorem Files.gives_iff {ids : IdSet} {d : Demand} (h : e.Files pl ids) (htidy : e.Tidy) :
    e.Gives pl d ↔ ids.Gives d := by
  cases h with
  | whole => rfl
  | environment hget | tenant hget => rw [Gives, (htidy _ rfl).get_eq hget]

/-- What is given apart from everything is listed in a set. -/
theorem exists_files {k : AccessKey} (h : e.Gives pl (.entry k)) (hno : ¬ e.Gives pl .everything) :
    ∃ ks, e.Files pl (.only ks) ∧ k ∈ ks := by
  -- The place is one for the entry's shape.
  cases e with
  | unscoped ids =>
    cases pl with
    | whole =>
      cases ids with
      | all =>
        have hall : IdSet.all.Gives .everything := IdSet.gives_all
        exact absurd hall hno
      | only ks => exact ⟨ks, .whole _, h⟩
    | _ => exact h.elim
  | byEnvironment ids =>
    cases pl with
    | environment n =>
      obtain ⟨ks, hget, hk⟩ := ScopedIds.exists_get? h hno
      exact ⟨ks, .environment hget, hk⟩
    | _ => exact h.elim
  | byTenant ids =>
    cases pl with
    | tenant n =>
      obtain ⟨ks, hget, hk⟩ := ScopedIds.exists_get? h hno
      exact ⟨ks, .tenant hget, hk⟩
    | _ => exact h.elim

end CacheEntry

namespace Cache

variable {c c' : Cache} {p : Privilege} {pl : Place} {ids : IdSet} {team : TeamId}

/-- **A cache as grants leave it**: no entry is empty, and what is filed by scope is tidy. -/
def Tidy (c : Cache) : Prop := ∀ p e, c.entry? p = some e → e.isEmpty = false ∧ e.Tidy

theorem tidy_empty : (empty team).Tidy := by
  intro p e he
  cases he

/-- **A grant leaves a cache tidy**: an entry that it leaves empty is dropped. -/
theorem Tidy.grant {g : Grant} (h : c.Tidy) (hg : c.grant p g = .ok c') : c'.Tidy := by
  have hbefore : ((c.entry? p).getD (.blank p.shape)).Tidy := by
    cases he : c.entry? p with
    | none => exact CacheEntry.tidy_blank
    | some e => exact (h p e he).2
  intro q e he
  rcases entry?_eq_some_of_grant hg he with hold | ⟨-, hkept, hadd⟩
  · exact h q e hold
  · exact ⟨hkept, hbefore.add? hadd⟩

/-- The cache has the set for the privilege at the place. -/
def Files (c : Cache) (p : Privilege) (pl : Place) (ids : IdSet) : Prop :=
  ∃ e, c.entry? p = some e ∧ e.Files pl ids

/-- What a cache gives at a place that it has a set for is what the set gives. -/
theorem Files.gives_iff (h : c.Files p pl ids) (htidy : c.Tidy) {d : Demand} :
    c.Gives p pl d ↔ ids.Gives d := by
  obtain ⟨e, he, hfiles⟩ := h
  rw [← hfiles.gives_iff (htidy p e he).2]
  constructor
  · rintro ⟨e', he', hd⟩
    obtain rfl := Option.some.inj (he.symm.trans he')
    exact hd
  · intro hd
    exact ⟨e, he, hd⟩

/-- **No set that a tidy cache has is empty.** -/
theorem Files.isEmpty_eq_false (h : c.Files p pl ids) (htidy : c.Tidy) : ids.isEmpty = false := by
  obtain ⟨e, he, hfiles⟩ := h
  obtain ⟨hkept, hscoped⟩ := htidy p e he
  cases hfiles with
  | whole => exact hkept
  | environment hget | tenant hget => exact (hscoped _ rfl).filled _ ids hget

end Cache

namespace Store

variable {s s' : Store} {team : TeamId} {p : Privilege} {pl : Place} {r : ResourceRef} {d : Demand}

/-- What every grant keeps, every chain of grants keeps. -/
theorem grants_induction {P : Cache → Prop}
    (hgrant : ∀ c c' p g, P c → Cache.grant c p g = .ok c' → P c') {c c' : Cache}
    {x : Expansion} {ps : List Privilege} (h : P c) (hx : c.addExpansion x ps = .ok c') : P c' := by
  have hall : ∀ p gs c c', P c → Cache.grantAll c p gs = .ok c' → P c' := by
    intro p gs
    induction gs with
    | nil => exact fun c c' h hg => pure_eq_ok_iff.1 hg ▸ h
    | cons g gs ih =>
      intro c c' h hg
      obtain ⟨c₁, h₁, h₂⟩ := bind_eq_ok_iff.1 hg
      exact ih c₁ c' (hgrant c c₁ p g h h₁) h₂
  induction ps generalizing c with
  | nil => exact pure_eq_ok_iff.1 hx ▸ h
  | cons p ps ih =>
    obtain ⟨c₁, h₁, h₂⟩ := bind_eq_ok_iff.1 hx
    exact ih (hall p _ c c₁ h h₁) h₂

/-- **What the empty cache has and every grant keeps, every built cache has.** -/
theorem buildCache_induction {P : Cache → Prop} (hempty : P (.empty team))
    (hgrant : ∀ c c' p g, P c → Cache.grant c p g = .ok c' → P c') {c : Cache}
    (h : s.buildCache team = .ok c) : P c := by
  rw [buildCache_eq] at h
  obtain ⟨os, -, h⟩ := bind_eq_ok_iff.1 h
  generalize Cache.empty team = c₀ at hempty h
  induction os generalizing c₀ with
  | nil => exact pure_eq_ok_iff.1 h ▸ hempty
  | cons o os ih =>
    obtain ⟨c₁, h₁, h₂⟩ := bind_eq_ok_iff.1 h
    refine ih c₁ ?_ h₂
    obtain ⟨role?, -, h₁⟩ := bind_eq_ok_iff.1 h₁
    cases role? with
    | none => cases h₁
    | some role =>
      dsimp only at h₁
      split at h₁
      · obtain ⟨x, -, h₁⟩ := bind_eq_ok_iff.1 h₁
        exact grants_induction hgrant hempty h₁
      · exact pure_eq_ok_iff.1 h₁ ▸ hempty

/-- What is built is tidy. -/
theorem tidy_buildCache {c : Cache} (hc : s.buildCache team = .ok c) : c.Tidy :=
  buildCache_induction Cache.tidy_empty (fun _ _ _ _ h => h.grant) hc

/-! ## What belongs to a place -/

/-- **What may be listed at a place**, for privileges on a subject: the rows that are filed there,
and the keys of the organizations that lie in the tenant, as its environment knows them. -/
inductive Belongs (s : Store) : Subject → Place → AccessKey → Prop
  | row {c : Subject} {pl : Place} {r : ResourceRef} {n : ResourceId} : s.Filed c pl r n →
      Belongs s c pl (.id n)
  | key {x : EdOrg} {o : Ods} {t : Tenant} {e : Environment} {k : EdOrgKey} : s.OdsIn o t e →
      s.HasEdOrg x → x.ods = o.id → s.HasKey e.version x k →
      Belongs s .application (.tenant t.id) (.edOrg k)

/-- What is reached is stored. -/
theorem Reaches.hasEdOrg {x : EdOrg} (h : s.Reaches x r) : s.HasEdOrg x := by
  cases r with
  | ods n | edOrg n => exact h.1
  | _ => exact h.elim

/-- **What a resource contributes to a place belongs there**, or the resource contributes
everything there is. -/
theorem Sound.belongs_or_everything (h : s.Sound) {k : AccessKey}
    (hd : s.Contributes p pl r (.entry k)) :
    s.Belongs p.subject pl k ∨ s.Contributes p pl r .everything := by
  cases hd with
  | everything => exact .inr (.everything pl _)
  | tenants _ he hs => exact .inr (.tenants _ he hs)
  | inTenants _ ht hshape => exact .inr (.inTenants _ ht hshape)
  | inTenant _ ht hshape => exact .inr (.inTenant _ ht hshape)
  | environment he hs => exact .inl (hs ▸ .row (.environment he rfl))
  | tenant ht hs => exact .inl (hs ▸ .row (.tenant ht rfl rfl))
  | aboveTenant ht hs _ => exact .inl (hs ▸ .row (.environment ht.hasEnvironment rfl))
  | ods ho hs => exact .inl (hs ▸ .row (.ods ho rfl rfl))
  | edOrgs ho hr hx hs =>
    -- Whatever is reached from the resource is of the resource's own ODS.
    have hods := (h.liesIn_iff hx).1 hr
    exact .inl (hs ▸ .row (.edOrg ho hx.hasEdOrg hods rfl rfl))
  | applications ho hr hx hk hs =>
    have hods := (h.liesIn_iff hx).1 hr
    exact .inl (hs ▸ .key ho hx.hasEdOrg hods hk)
  | odsAbove ho _ hs _ => exact .inl (hs ▸ .row (.ods ho rfl rfl))
  | tenantAbove ho _ hs _ => exact .inl (hs ▸ .row (.tenant ho.tenantIn rfl rfl))
  | environmentAbove ho _ hs _ =>
    exact .inl (hs ▸ .row (.environment ho.tenantIn.hasEnvironment rfl))

/-- **What a built cache lists belongs to the place where it is listed.** A set that lists something
is not the set of everything, so no resource contributed everything to it. -/
theorem Sound.belongs_of_files (h : s.Sound) {c : Cache} (hc : s.buildCache team = .ok c)
    {ks : KeySet AccessKey} (hfiles : c.Files p pl (.only ks)) {k : AccessKey} (hk : k ∈ ks) :
    s.Belongs p.subject pl k := by
  obtain ⟨-, hfits, hgives⟩ := buildCache_spec hc
  have hset (d : Demand) : c.Gives p pl d ↔ (IdSet.only ks).Gives d :=
    hfiles.gives_iff (tidy_buildCache hc)
  have hgiven : c.Gives p pl (.entry k) := (hset _).2 hk
  have hpl := hfits.shape_eq hgiven
  obtain ⟨r, hholds, hd⟩ := (hgives p pl _ hpl).1 hgiven
  rcases h.belongs_or_everything hd with hbelongs | heverything
  · exact hbelongs
  · have hall : c.Gives p pl .everything := (hgives p pl _ hpl).2 ⟨r, hholds, heverything⟩
    exact absurd ((hset _).1 hall) id

/-- **For vendors and claim sets a built cache has everything or no set at all**, as nothing belongs
to them. -/
theorem Sound.eq_all_of_files (h : s.Sound) {c : Cache} (hc : s.buildCache team = .ok c)
    (hp : p.subject = .vendor ∨ p.subject = .claimSet) {ids : IdSet} (hfiles : c.Files p pl ids) :
    ids = .all := by
  cases ids with
  | all => rfl
  | only ks =>
    have hfilled := hfiles.isEmpty_eq_false (tidy_buildCache hc)
    obtain ⟨d, hd⟩ := IdSet.isEmpty_eq_false_iff.1 hfilled
    cases d with
    | everything => exact hd.elim
    | entry k =>
      have hbelongs := h.belongs_of_files hc hfiles hd
      rcases hp with hp | hp
      all_goals
        rw [hp] at hbelongs
        obtain ⟨⟩ | ⟨⟩ := hbelongs
        rename_i hfiled
        cases hfiled

/-! ## Where a resource is seen -/

/-- The resource is the tenant, or lies in it. -/
def InTenant (s : Store) (t : Tenant) (r : ResourceRef) : Prop :=
  r = .tenant t.id ∨ ∃ o, s.HasOds o ∧ o.tenant = t.id ∧ s.LiesIn o r

section InTenant

variable {t t' : Tenant} {e e' : Environment} {o : Ods}

/-- A resource lies in one tenant. -/
theorem InTenant.unique (h : s.InTenant t r) (ht : s.TenantIn t e) (ho : s.OdsIn o t' e')
    (hr : s.LiesIn o r) : t' = t ∧ e' = e := by
  rcases h with rfl | ⟨o', ho', hid, hr'⟩
  · exact hr.elim
  · obtain rfl := ho.hasOds.unique ho' (hr.unique hr')
    exact ho.tenantIn.unique ht (ho.eq.symm.trans hid)

/-- **A resource of a tenant contributes to that tenant and its environment only.** -/
theorem Contributes.place_of_inTenant (hd : s.Contributes p pl r d) (ht : s.TenantIn t e)
    (hr : s.InTenant t r) : pl = .whole ∨ pl = .environment e.id ∨ pl = .tenant t.id := by
  cases hd with
  | everything | environment _ _ | tenants _ _ _ | inTenants _ _ _ =>
    obtain hr | ⟨_, -, -, hr⟩ := hr
    · cases hr
    · exact hr.elim
  | inTenant _ _ _ =>
    obtain hr | ⟨_, -, -, hr⟩ := hr
    · exact .inr (.inr (by rw [ResourceRef.tenant.inj hr]))
    · exact hr.elim
  | tenant ht' _ =>
    obtain hr | ⟨_, -, -, hr⟩ := hr
    · obtain ⟨-, rfl⟩ := ht'.unique ht (ResourceRef.tenant.inj hr)
      exact .inr (.inl rfl)
    · exact hr.elim
  | aboveTenant _ _ _ | environmentAbove _ _ _ _ => exact .inl rfl
  | ods ho _ =>
    obtain ⟨rfl, -⟩ := hr.unique ht ho rfl
    exact .inr (.inr rfl)
  | edOrgs ho hlies _ _ | applications ho hlies _ _ _ | odsAbove ho hlies _ _ =>
    obtain ⟨rfl, -⟩ := hr.unique ht ho hlies
    exact .inr (.inr rfl)
  | tenantAbove ho hlies _ _ =>
    obtain ⟨-, rfl⟩ := hr.unique ht ho hlies
    exact .inr (.inl rfl)

end InTenant

/-- **An environment contributes to itself and its tenants only.** -/
theorem Contributes.place_of_environment {n : ResourceId}
    (hd : s.Contributes p pl (.environment n) d) :
    pl = .whole ∨ pl = .environment n ∨ ∃ t e, s.TenantIn t e ∧ e.id = n ∧ pl = .tenant t.id := by
  generalize hr : ResourceRef.environment n = r at hd
  cases hd with
  | environment _ _ | aboveTenant _ _ _ | environmentAbove _ _ _ _ => exact .inl rfl
  | tenants _ _ _ => exact .inr (.inl (by rw [ResourceRef.environment.inj hr]))
  | inTenants _ ht _ =>
    exact .inr (.inr ⟨_, _, ht, (ResourceRef.environment.inj hr).symm, rfl⟩)
  | everything | inTenant _ _ _ | tenant _ _ | ods _ _ => cases hr
  | edOrgs _ hlies _ _ | applications _ hlies _ _ _ | odsAbove _ hlies _ _
  | tenantAbove _ hlies _ _ =>
    subst hr
    exact hlies.elim

/-- An ODS contributes no everything, only what it lists. -/
theorem not_contributes_everything_of_ods {n : ResourceId} :
    ¬ s.Contributes p pl (.ods n) .everything := by
  intro hd
  generalize hr : ResourceRef.ods n = r at hd
  generalize hdemand : Demand.everything = d at hd
  cases hd <;> cases hr <;> cases hdemand

/-! ## New ownerships -/

/-- The ownerships after an addition are the new one and those from before. -/
theorem HasOwnership.of_createOwnership {o : NewOwnership} {created o' : Ownership}
    (hok : s.createOwnership o = .ok (created, s')) (h : s'.HasOwnership o') :
    s.HasOwnership o' ∨ o'.team = o.team ∧ o'.role = o.role ∧ o'.resource = o.resource := by
  obtain ⟨t, ht, -, -, -, -, id, -, -, -, -, rfl⟩ := createOwnership_eq_ok_iff.1 hok
  obtain ⟨u, hu, row, hrow, hload⟩ := h
  obtain rfl := Option.some.inj hu
  rcases Index.mem_insert.1 hrow with rfl | ⟨hrow, -⟩
  · obtain ⟨stamp, hload'⟩ := o.load_row id s.now s.now
    obtain rfl := Except.ok.inj (hload.symm.trans hload')
    exact .inr ⟨rfl, rfl, rfl⟩
  · exact .inl ⟨t, ht, row, hrow, hload⟩

/-- **A new ownership changes nothing of what a team gets where its resource contributes nothing.**
Where it does not, the union is over the same resources as before. -/
theorem extract_createOwnership {o : NewOwnership} {created : Ownership}
    (hok : s.createOwnership o = .ok (created, s')) {c c' : Cache}
    (hc : s.buildCache team = .ok c) (hc' : s'.buildCache team = .ok c') {q : ScopeParams}
    (hnone : ∀ pl d, q.place? p.shape = some pl → ¬ s.Contributes p pl o.resource d) :
    c'.extract p q = c.extract p q := by
  refine IdSet.ext_gives fun d => ⟨fun hd => ?_, (widens_createOwnership hok).within_extract hc hc'
    p q d⟩
  obtain ⟨pl, hpl⟩ := exists_place_of_gives_extract hc' hd
  obtain ⟨r, ⟨o', ho', hteam, hlends, rfl⟩, hcontributes⟩ := (gives_extract_of_place hc' hpl).1 hd
  have hsame := (sameHierarchy_createOwnership hok).symm.grows
  have hbefore : s.Contributes p pl o'.resource d := hsame.contributes hcontributes
  rcases ho'.of_createOwnership hok with hold | ⟨-, -, hresource⟩
  · have hlent : s.Lends team o'.role p := by
      obtain ⟨t, -, -, -, -, -, id, -, -, -, -, rfl⟩ := createOwnership_eq_ok_iff.1 hok
      exact hlends
    exact (gives_extract_of_place hc hpl).2 ⟨_, ⟨o', hold, hteam, hlent, rfl⟩, hbefore⟩
  · exact absurd (hresource ▸ hbefore) (hnone pl d hpl)

end Store

namespace Service

variable {v : Service} {mode : CacheMode}

/-- A new ownership changes nothing where its resource contributes nothing, nor does one that is
refused. -/
theorem extract_addOwnership {o : NewOwnership} {team : TeamId} {c c' : Cache}
    (hc : v.store.buildCache team = .ok c)
    (hc' : (v.addOwnership o).2.store.buildCache team = .ok c')
    {p : Privilege} {q : ScopeParams}
    (hnone : ∀ pl d, q.place? p.shape = some pl → ¬ v.store.Contributes p pl o.resource d) :
    c'.extract p q = c.extract p q := by
  rcases addOwnership_leaves v o with heq | ⟨created, s, hs, heq⟩
  · rw [heq] at hc'
    obtain rfl := Except.ok.inj (hc.symm.trans hc')
    rfl
  · rw [heq] at hc'
    exact Store.extract_createOwnership hs hc hc' hnone

/-- What a resource of a tenant contributes is not asked for in another tenant or environment. -/
theorem not_contributes_elsewhere {s : Store} {p : Privilege} {q : ScopeParams} {t : Tenant}
    {e : Environment} {r : ResourceRef} (ht : s.TenantIn t e) (hr : s.InTenant t r)
    (helsewhere : p.shape = .byTenant ∧ q.tenant ≠ some t.id ∨
      p.shape = .byEnvironment ∧ q.environment ≠ some e.id) (pl : Place) (d : Demand)
    (hpl : q.place? p.shape = some pl) : ¬ s.Contributes p pl r d := by
  intro hd
  have hplace := hd.place_of_inTenant ht hr
  rcases helsewhere with ⟨hshape, hne⟩ | ⟨hshape, hne⟩
  all_goals
    rw [hshape, ScopeParams.place?, Option.map_eq_some_iff] at hpl
    obtain ⟨n, hn, rfl⟩ := hpl
    rcases hplace with hplace | hplace | hplace
    all_goals
      cases hplace
    exact hne hn

/-- What an environment contributes is not asked for in another one, nor in a tenant elsewhere. -/
theorem not_contributes_outside {s : Store} {p : Privilege} {q : ScopeParams} {n : ResourceId}
    (helsewhere : p.shape = .byEnvironment ∧ q.environment ≠ some n ∨
      p.shape = .byTenant ∧ ∀ t e, s.TenantIn t e → e.id = n → q.tenant ≠ some t.id)
    (pl : Place) (d : Demand) (hpl : q.place? p.shape = some pl) :
    ¬ s.Contributes p pl (.environment n) d := by
  intro hd
  have hplace := hd.place_of_environment
  rcases helsewhere with ⟨hshape, hne⟩ | ⟨hshape, hne⟩
  all_goals
    rw [hshape, ScopeParams.place?, Option.map_eq_some_iff] at hpl
    obtain ⟨m, hm, rfl⟩ := hpl
    rcases hplace with hplace | hplace | ⟨t, e, ht, he, hplace⟩
    all_goals
      cases hplace
  · exact hne hm
  · exact hne t e ht he hm

/-- **What a team may do stays in its scope.** Whatever a service was asked before, what a team's
cache lists in a scope belongs there, and for vendors and claim sets it lists nothing. A new
ownership of something in a tenant changes nothing in other tenants or environments, and one of an
environment nothing in other environments or in tenants that are not of it. -/
theorem access_stays_in_scope (hv : Served mode v) (team : TeamId) :
    ∃ before, (v.cache team).1 = .ok before ∧
      (∀ p pl ks, before.cache.Files p pl (.only ks) →
        ∀ k ∈ ks, v.store.Belongs p.subject pl k) ∧
      (∀ p pl ids, p.subject = .vendor ∨ p.subject = .claimSet → before.cache.Files p pl ids →
        ids = .all) ∧
      ∀ o : NewOwnership, ∃ after, ((v.addOwnership o).2.cache team).1 = .ok after ∧
        (∀ t e p q, v.store.TenantIn t e → v.store.InTenant t o.resource →
          p.shape = .byTenant ∧ q.tenant ≠ some t.id ∨
            p.shape = .byEnvironment ∧ q.environment ≠ some e.id →
          after.cache.extract p q = before.cache.extract p q) ∧
        ∀ n p q, o.resource = .environment n →
          p.shape = .byEnvironment ∧ q.environment ≠ some n ∨
            p.shape = .byTenant ∧
              (∀ t e, v.store.TenantIn t e → e.id = n → q.tenant ≠ some t.id) →
          after.cache.extract p q = before.cache.extract p q := by
  obtain ⟨before, hbefore, hbuild⟩ := hv.coherent.exists_handle hv.sound team
  refine ⟨before, hbefore, fun p pl ks hfiles k hk => ?_, fun p pl ids hp hfiles => ?_, fun o => ?_⟩
  · exact hv.sound.belongs_of_files hbuild hfiles hk
  · exact hv.sound.eq_all_of_files hbuild hp hfiles
  · obtain ⟨after, hafter, hbuild'⟩ := hv.exists_handle_write (.addOwnership o) team
    refine ⟨after, hafter, fun t e p q ht hr helsewhere => ?_, fun n p q hresource helsewhere => ?_⟩
    · exact extract_addOwnership hbuild hbuild' (not_contributes_elsewhere ht hr helsewhere)
    · refine extract_addOwnership hbuild hbuild' ?_
      rw [hresource]
      exact not_contributes_outside helsewhere

/-- A team that was given an ODS has the organization of that ODS listed in its tenant, and another
organization that it is given there changes nothing in the tenant 9. -/
theorem twins_stay_in_scope : Served .shared twinned ∧
    ∃ before, (twinned.cache 1).1 = .ok before ∧
      (∃ ks, before.cache.Files .edOrgRead (.tenant 2) (.only ks) ∧ .id 5 ∈ ks ∧
        twinned.store.Belongs .edOrg (.tenant 2) (.id 5)) ∧
      ∃ after, ((twinned.addOwnership ⟨1, 3, .edOrg 6⟩).2.cache 1).1 = .ok after ∧
        after.cache.extract .edOrgRead ⟨none, some 9⟩ =
          before.cache.extract .edOrgRead ⟨none, some 9⟩ := by
  obtain ⟨hserved, htwins⟩ := twinned_spec
  obtain ⟨before, hbefore, hbelongs, -, hafter⟩ := access_stays_in_scope hserved 1
  obtain ⟨after, hget, hsame, -⟩ := hafter ⟨1, 3, .edOrg 6⟩
  have hlisted : ∃ ks, before.cache.Files .edOrgRead (.tenant 2) (.only ks) ∧ .id 5 ∈ ks := by
    obtain ⟨before', hbefore', hbuild⟩ := hserved.coherent.exists_handle hserved.sound 1
    obtain rfl := Except.ok.inj (hbefore.symm.trans hbefore')
    obtain ⟨-, -, hgives⟩ := Store.buildCache_spec hbuild
    have hiff (d : Demand) : before.cache.Gives .edOrgRead (.tenant 2) d ↔
        twinned.store.Contributes .edOrgRead (.tenant 2) (.ods 3) d := by
      rw [hgives .edOrgRead (.tenant 2) d rfl]
      simp [(htwins.owned .edOrgRead).holds_iff]
    obtain ⟨hschool, o, ho, hods, hot⟩ := htwins.main
    have hin : twinned.store.OdsIn o ⟨2, 1, "North"⟩ ⟨1, "East", .v1⟩ := ⟨ho, hot, htwins.tenantIn⟩
    obtain ⟨e, he, hd⟩ := (hiff _).2 (.edOrgs hin hods ⟨hschool, rfl⟩ rfl)
    have hno : ¬ e.Gives (.tenant 2) .everything :=
      fun hall => Store.not_contributes_everything_of_ods ((hiff _).1 ⟨e, he, hall⟩)
    obtain ⟨ks, hfiles, hk⟩ := CacheEntry.exists_files hd hno
    exact ⟨ks, ⟨e, he, hfiles⟩, hk⟩
  obtain ⟨ks, hfiles, hk⟩ := hlisted
  refine ⟨hserved, before, hbefore, ⟨ks, hfiles, hk, hbelongs _ _ ks hfiles _ hk⟩, after, hget, ?_⟩
  obtain ⟨hannex, o, ho, hods, hot⟩ := htwins.annex
  have hin : twinned.store.InTenant ⟨2, 1, "North"⟩ (.edOrg 6) :=
    .inr ⟨o, ho, hot, school 6 4, hannex, rfl, hods⟩
  exact hsame _ _ .edOrgRead ⟨none, some 9⟩ htwins.tenantIn hin (.inl ⟨rfl, by decide⟩)

end Service

end TeamAccess
