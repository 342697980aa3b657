import TeamAccess.Proofs.Applications
import TeamAccess.Proofs.Descent

/-!
# Growth — writes move access one way

What a resource contributes is told by rows that are there, never by rows that are missing. So a
store with more rows of the hierarchy, more ownerships and more roles (`Store.Widens`) gives every
team at least what it had (`Store.Widens.within_extract`). Every addition widens the store; that of
an organization too, though it rewrites rows of the closure: on a settled store these say what the
parent links say, and no link goes. To remove an ownership does the reverse, as the store before it
widens the one after it.
-/

namespace TeamAccess

/-- Whatever the set gives, the other gives. The set of everything is the largest. -/
def IdSet.Within (a b : IdSet) : Prop := ∀ d, a.Gives d → b.Gives d

namespace Store

variable {s s₁ s' : Store} {team : TeamId}

/-! ## Hierarchies that grow -/

/-- **The hierarchy has what it had**, and maybe more. -/
structure Grows (s s' : Store) : Prop where
  environments : ∀ e, s.HasEnvironment e → s'.HasEnvironment e
  tenants : ∀ t, s.HasTenant t → s'.HasTenant t
  odss : ∀ o, s.HasOds o → s'.HasOds o
  edOrgs : ∀ x, s.HasEdOrg x → s'.HasEdOrg x
  below : ∀ a d, s.LiesBelow a d → s'.LiesBelow a d

/-- A hierarchy that is the same has what it had. -/
theorem SameHierarchy.grows (h : SameHierarchy s s') : Grows s s' where
  environments e he := by rwa [HasEnvironment, h.environments]
  tenants t ht := by rwa [HasTenant, h.tenants]
  odss o ho := by rwa [HasOds, h.odss]
  edOrgs x hx := by rwa [HasEdOrg, h.edOrgs]
  below a d had := by rwa [LiesBelow, h.closure]

/-- To be the same goes both ways. -/
theorem SameHierarchy.symm (h : SameHierarchy s s') : SameHierarchy s' s where
  environments := h.environments.symm
  tenants := h.tenants.symm
  odss := h.odss.symm
  edOrgs := h.edOrgs.symm
  closure := h.closure.symm

namespace Grows

variable {o : Ods} {t : Tenant} {e : Environment} {x : EdOrg} {r : ResourceRef}

theorem refl (s : Store) : Grows s s :=
  ⟨fun _ h => h, fun _ h => h, fun _ h => h, fun _ h => h, fun _ _ h => h⟩

theorem tenantIn (h : Grows s s') (ht : s.TenantIn t e) : s'.TenantIn t e :=
  ⟨h.tenants t ht.hasTenant, h.environments e ht.hasEnvironment, ht.eq⟩

theorem odsIn (h : Grows s s') (ho : s.OdsIn o t e) : s'.OdsIn o t e :=
  ⟨h.odss o ho.hasOds, ho.eq, h.tenantIn ho.tenantIn⟩

/-- What lies in an ODS lies there still. -/
theorem liesIn (h : Grows s s') (hr : s.LiesIn o r) : s'.LiesIn o r := by
  cases r with
  | ods n => exact hr
  | edOrg n =>
    obtain ⟨x, hx, hid, hods⟩ := hr
    exact ⟨x, h.edOrgs x hx, hid, hods⟩
  | _ => exact hr.elim

/-- What is reached is reached still. -/
theorem reaches (h : Grows s s') (hx : s.Reaches x r) : s'.Reaches x r := by
  cases r with
  | ods n => exact ⟨h.edOrgs x hx.1, hx.2⟩
  | edOrg n => exact ⟨h.edOrgs x hx.1, hx.2.imp_right (h.below n x.id)⟩
  | _ => exact hx.elim

/-- Keys stay as they are. -/
theorem hasKey (h : Grows s s') {version : ApiVersion} {k : EdOrgKey}
    (hk : s.HasKey version x k) : s'.HasKey version x k := by
  cases version with
  | v1 => exact hk
  | v2 =>
    obtain ⟨o, i, ho, hid, hi, rfl⟩ := hk
    exact ⟨o, i, h.odss o ho, hid, hi, rfl⟩

/-- What stands stands still. -/
theorem stands (h : Grows s s') (hr : s.Stands r) : s'.Stands r := by
  cases r with
  | global => trivial
  | environment n =>
    obtain ⟨e, he, hid⟩ := hr
    exact ⟨e, h.environments e he, hid⟩
  | tenant n =>
    obtain ⟨t, e, ht, hid⟩ := hr
    exact ⟨t, e, h.tenantIn ht, hid⟩
  | ods n =>
    obtain ⟨o, t, e, ho, hlies⟩ := hr
    exact ⟨o, t, e, h.odsIn ho, h.liesIn hlies⟩
  | edOrg n =>
    obtain ⟨o, t, e, ho, hlies⟩ := hr
    exact ⟨o, t, e, h.odsIn ho, h.liesIn hlies⟩

/-- **What a resource contributes it contributes still**, since no rule of contributing asks for
something to be missing. -/
theorem contributes (h : Grows s s') {p : Privilege} {pl : Place} {d : Demand}
    (hd : s.Contributes p pl r d) : s'.Contributes p pl r d := by
  cases hd with
  | everything => exact .everything pl d
  | environment he hs => exact .environment (h.environments _ he) hs
  | tenants _ he hs => exact .tenants d (h.environments _ he) hs
  | inTenants _ ht hshape => exact .inTenants d (h.tenantIn ht) hshape
  | inTenant _ ht hshape => exact .inTenant d (h.tenantIn ht) hshape
  | tenant ht hs => exact .tenant (h.tenantIn ht) hs
  | aboveTenant ht hs hread => exact .aboveTenant (h.tenantIn ht) hs hread
  | ods ho hs => exact .ods (h.odsIn ho) hs
  | edOrgs ho hr hx hs => exact .edOrgs (h.odsIn ho) (h.liesIn hr) (h.reaches hx) hs
  | applications ho hr hx hk hs =>
    exact .applications (h.odsIn ho) (h.liesIn hr) (h.reaches hx) (h.hasKey hk) hs
  | odsAbove ho hr hs hread => exact .odsAbove (h.odsIn ho) (h.liesIn hr) hs hread
  | tenantAbove ho hr hs hread => exact .tenantAbove (h.odsIn ho) (h.liesIn hr) hs hread
  | environmentAbove ho hr hs hread => exact .environmentAbove (h.odsIn ho) (h.liesIn hr) hs hread

end Grows

/-! ## Writes to the hierarchy -/

/-- **What a hierarchy write does to a store**: rows come to the hierarchy, and nothing else
changes. -/
structure Extends (s s' : Store) : Prop where
  grows : Grows s s'
  now : s'.now = s.now
  teams : s'.teams = s.teams
  roles : s'.roles = s.roles
  privileges : s'.privileges = s.privileges
  ownerships : s'.ownerships = s.ownerships

theorem Extends.refl (s : Store) : Extends s s := ⟨.refl s, rfl, rfl, rfl, rfl, rfl⟩

/-- A new environment. -/
theorem extends_createEnvironment {e : Environment} (hok : s.createEnvironment e = .ok s') :
    Extends s s' := by
  obtain ⟨t, ht, hfree, rfl⟩ := createEnvironment_eq_ok_iff.1 hok
  exact ⟨{ Grows.refl s with environments := fun _ he => has_of_insert ht hfree he },
    rfl, rfl, rfl, rfl, rfl⟩

/-- A new tenant. -/
theorem extends_createTenant {u : Tenant} (hok : s.createTenant u = .ok s') : Extends s s' := by
  obtain ⟨t, ht, es, -, hfree, -, -, rfl⟩ := createTenant_eq_ok_iff.1 hok
  exact ⟨{ Grows.refl s with tenants := fun _ hu => has_of_insert ht hfree hu },
    rfl, rfl, rfl, rfl, rfl⟩

/-- A new ODS. -/
theorem extends_createOds {o : Ods} (hok : s.createOds o = .ok s') : Extends s s' := by
  obtain ⟨t, ht, us, -, hfree, -, rfl⟩ := createOds_eq_ok_iff.1 hok
  exact ⟨{ Grows.refl s with odss := fun _ ho => has_of_insert ht hfree ho },
    rfl, rfl, rfl, rfl, rfl⟩

/-- **A new organization**, with the closure of its ODS rebuilt. What lay below another lies there
still: parent links led up from it, and the links stay. -/
theorem Settled.extends_addEdOrg (h : s.Settled) {x : EdOrg} (hparent : s.ParentIn x)
    (hadd : s.createEdOrg x = .ok s₁) (hok : s₁.rebuildClosure x.ods = .ok s') : Extends s s' := by
  have hsettled : s'.Settled := h.addEdOrg hparent hadd hok
  have hgrows : ∀ y, s.HasEdOrg y → s'.HasEdOrg y := fun y hy =>
    (hasEdOrg_rebuildClosure_iff hok).2 ((hasEdOrg_createEdOrg_iff hadd).2 (.inr hy))
  have hbelow : ∀ a d, s.LiesBelow a d → s'.LiesBelow a d := by
    intro a d had
    obtain ⟨_, y, -, hy, -, -, rfl⟩ := h.sound.ends_of_liesBelow had
    obtain ⟨n, hn, hlead⟩ := (h.liesBelow_iff hy).1 had
    exact (hsettled.liesBelow_iff (hgrows y hy)).2 ⟨n, hn, hlead.mono hgrows⟩
  obtain ⟨t, -, os, -, -, -, -, -, rfl⟩ := createEdOrg_eq_ok_iff.1 hadd
  obtain ⟨u, -, c, -, -, rfl⟩ := rebuildClosure_eq_ok_iff.1 hok
  exact ⟨⟨fun _ he => he, fun _ ht => ht, fun _ ho => ho, hgrows, hbelow⟩, rfl, rfl, rfl, rfl, rfl⟩

/-- A rebuilt closure is the closure it was. -/
theorem Settled.extends_rebuildClosure (h : s.Settled) {ods : ResourceId}
    (hok : s.rebuildClosure ods = .ok s') : Extends s s' := by
  rw [h.rebuildClosure_eq ods] at hok
  cases hok
  exact .refl s

/-! ## Stores that widen -/

/-- **No team loses anything from the one store to the other**: the hierarchy has what it had, and
ownerships and roles are there still. -/
structure Widens (s s' : Store) : Prop where
  grows : Grows s s'
  ownerships : ∀ o, s.HasOwnership o → s'.HasOwnership o
  roles : ∀ r, s.HasRole r → s'.HasRole r

theorem Widens.refl (s : Store) : Widens s s := ⟨.refl s, fun _ h => h, fun _ h => h⟩

/-- A hierarchy write widens the store. -/
theorem Extends.widens (h : Extends s s') : Widens s s' where
  grows := h.grows
  ownerships o ho := by rwa [HasOwnership, h.ownerships, h.now]
  roles _ hr := hr.of_eq h.roles h.privileges

/-- The hierarchy is the same after an ownership was added. -/
theorem sameHierarchy_createOwnership {o : NewOwnership} {created : Ownership}
    (hok : s.createOwnership o = .ok (created, s')) : SameHierarchy s s' := by
  obtain ⟨t, -, -, -, -, -, id, -, -, -, -, hs'⟩ := createOwnership_eq_ok_iff.1 hok
  exact .of_ownerships hs'.symm

/-- A new ownership widens the store. -/
theorem widens_createOwnership {o : NewOwnership} {created : Ownership}
    (hok : s.createOwnership o = .ok (created, s')) : Widens s s' := by
  refine ⟨(sameHierarchy_createOwnership hok).grows, fun _ ho => ho.createOwnership hok, ?_⟩
  obtain ⟨t, -, -, -, -, -, id, -, -, -, -, rfl⟩ := createOwnership_eq_ok_iff.1 hok
  exact fun _ hr => hr

/-- The store before an ownership was removed widens the one after it. -/
theorem widens_deleteOwnership {id : OwnershipId} {found : Bool}
    (hok : s.deleteOwnership id = .ok (found, s')) : Widens s' s := by
  obtain ⟨t, ht, -, -, -, rfl⟩ := deleteOwnership_eq_ok_iff.1 hok
  have hsame : SameHierarchy s { s with ownerships := some (t.withRows (t.rows.erase id)) } :=
    .of_ownerships rfl
  refine ⟨hsame.symm.grows, fun o ⟨u, hu, r, hr, hload⟩ => ?_, fun _ hr => hr⟩
  obtain rfl := Option.some.inj hu
  exact ⟨t, ht, r, (Index.mem_erase.1 hr).1, hload⟩

namespace Widens

/-- What a role lends it lends still. -/
theorem lends (h : Widens s s') {role : RoleId} {p : Privilege} (hl : s.Lends team role p) :
    s'.Lends team role p := by
  obtain ⟨r, hr, hid, hadmits, hp⟩ := hl
  exact ⟨r, h.roles r hr, hid, hadmits, hp⟩

/-- What a team holds it holds still. -/
theorem holds (h : Widens s s') {p : Privilege} {r : ResourceRef} (hh : s.Holds team p r) :
    s'.Holds team p r := by
  obtain ⟨o, ho, hteam, hlends, hr⟩ := hh
  exact ⟨o, h.ownerships o ho, hteam, h.lends hlends, hr⟩

/-- **What a team gets grows with the store**, for every privilege and every request. -/
theorem within_extract (h : Widens s s') {c c' : Cache} (hc : s.buildCache team = .ok c)
    (hc' : s'.buildCache team = .ok c') (p : Privilege) (q : ScopeParams) :
    (c.extract p q).Within (c'.extract p q) := by
  intro d hd
  obtain ⟨pl, hpl⟩ := exists_place_of_gives_extract hc hd
  obtain ⟨r, hholds, hcontributes⟩ := (gives_extract_of_place hc hpl).1 hd
  exact (gives_extract_of_place hc' hpl).2 ⟨r, h.holds hholds, h.grows.contributes hcontributes⟩

end Widens

end Store

namespace Service

open Store (Extends Widens)

variable {v : Service} {mode : CacheMode}

/-! ## What writes do to access -/

/-- The write is one to the hierarchy. -/
def Write.IsRow : Write → Prop
  | .addOwnership _ | .removeOwnership _ | .replaceOwnership _ _ => False
  | _ => True

/-- A hierarchy write that fails changes nothing. -/
theorem extends_commit {written : Except Fault Store}
    (hwritten : ∀ s, written = .ok s → Extends v.store s) :
    Extends v.store (v.commit written).2.store := by
  cases written with
  | error _ => exact .refl v.store
  | ok s => exact hwritten s rfl

/-- **A hierarchy write extends the store**, if it is settled. -/
theorem extends_write (h : v.store.Settled) {w : Write} (hw : w.IsRow) :
    Extends v.store (v.write w).2.store := by
  cases w with
  | addEnvironment e => exact extends_commit fun _ hs => Store.extends_createEnvironment hs
  | addTenant t =>
    refine extends_commit fun _ hs => ?_
    obtain ⟨_, -, hs⟩ := bind_eq_ok_iff.1 hs
    exact Store.extends_createTenant hs
  | addOds o =>
    refine extends_commit fun _ hs => ?_
    obtain ⟨_, -, hs⟩ := bind_eq_ok_iff.1 hs
    exact Store.extends_createOds hs
  | addEdOrg x =>
    rw [write, addEdOrg_eq_commit h.sound]
    refine extends_commit fun _ hs => ?_
    obtain ⟨hparent, _, hcreate, hrebuild⟩ := withEdOrg_eq_ok hs
    exact h.extends_addEdOrg hparent hcreate hrebuild
  | rebuildClosure ods =>
    refine extends_commit fun _ hs => ?_
    obtain ⟨found, -, hs⟩ := bind_eq_ok_iff.1 hs
    cases found with
    | none => cases hs
    | some _ => exact h.extends_rebuildClosure hs
  | addOwnership _ | removeOwnership _ | replaceOwnership _ _ => exact hw.elim

/-- To add an ownership widens the store, or leaves it. -/
theorem widens_addOwnership (v : Service) (o : NewOwnership) :
    Widens v.store (v.addOwnership o).2.store := by
  rcases addOwnership_leaves v o with heq | ⟨_, s, hs, heq⟩
  · rw [heq]
    exact .refl v.store
  · rw [heq]
    exact Store.widens_createOwnership hs

/-- What was before an ownership is removed widens what is after it. -/
theorem widens_removeOwnership (v : Service) (id : OwnershipId) :
    Widens (v.removeOwnership id).2.store v.store := by
  rcases removeOwnership_leaves v id with heq | ⟨_, s, -, -, hs, heq⟩
  · rw [heq]
    exact .refl v.store
  · rw [heq]
    exact Store.widens_deleteOwnership hs

/-- The write adds something: to the hierarchy, or an ownership. -/
def Write.Adds (w : Write) : Prop := w.IsRow ∨ ∃ o, w = .addOwnership o

/-- After a write a team is handed the cache that a build gives then. -/
theorem Served.exists_handle_write (h : Served mode v) (w : Write) (team : TeamId) :
    ∃ handle, ((v.write w).2.cache team).1 = .ok handle ∧
      (v.write w).2.store.buildCache team = .ok handle.cache :=
  (h.coherent.write h.sound w).exists_handle (sound_write h.sound w) team

/-- **Writes move access one way.** Whatever a service was asked before, a write to the hierarchy
and a new ownership leave every team all that it gets, for every privilege and every request, and
maybe give it more; to remove an ownership gives no team anything. Writes that fail do neither. -/
theorem access_moves_with_writes (hv : Served mode v) (team : TeamId) (p : Privilege)
    (q : ScopeParams) : ∃ before, (v.cache team).1 = .ok before ∧
      (∀ w : Write, w.Adds → ∃ after, ((v.write w).2.cache team).1 = .ok after ∧
        (before.cache.extract p q).Within (after.cache.extract p q)) ∧
      ∀ id, ∃ after, ((v.write (.removeOwnership id)).2.cache team).1 = .ok after ∧
        (after.cache.extract p q).Within (before.cache.extract p q) := by
  obtain ⟨before, hbefore, hbuild⟩ := hv.coherent.exists_handle hv.sound team
  refine ⟨before, hbefore, fun w hw => ?_, fun id => ?_⟩
  · obtain ⟨after, hafter, hbuild'⟩ := hv.exists_handle_write w team
    have hwidens : Widens v.store (v.write w).2.store := by
      rcases hw with hw | ⟨o, rfl⟩
      · exact (extends_write hv.settled hw).widens
      · exact widens_addOwnership v o
    exact ⟨after, hafter, hwidens.within_extract hbuild hbuild' p q⟩
  · obtain ⟨after, hafter, hbuild'⟩ := hv.exists_handle_write (.removeOwnership id) team
    exact ⟨after, hafter, (widens_removeOwnership v id).within_extract hbuild' hbuild p q⟩

/-- An organization more leaves a team what it gets, and an ownership less gives it nothing. -/
theorem twins_move_access : Served .shared twinned ∧
    ∃ before, (twinned.cache 1).1 = .ok before ∧
      (∃ after, ((twinned.write (.addEdOrg ⟨7, 3, 7, "College", some 5⟩)).2.cache 1).1 = .ok after ∧
        (before.cache.extract .edOrgRead ⟨none, some 2⟩).Within
          (after.cache.extract .edOrgRead ⟨none, some 2⟩)) ∧
      ∃ after, ((twinned.write (.removeOwnership 1)).2.cache 1).1 = .ok after ∧
        (after.cache.extract .edOrgRead ⟨none, some 2⟩).Within
          (before.cache.extract .edOrgRead ⟨none, some 2⟩) := by
  have hserved := twinned_spec.1
  obtain ⟨before, hbefore, hadds, hremoves⟩ :=
    access_moves_with_writes hserved 1 .edOrgRead ⟨none, some 2⟩
  exact ⟨hserved, before, hbefore, hadds _ (.inl trivial), hremoves 1⟩

end Service

end TeamAccess
