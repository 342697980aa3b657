import TeamAccess.Proofs.Cover
import TeamAccess.Proofs.Growth

/-!
# Dominance — what is owned higher gives no less

A role over a resource gives at least what the same role gives over anything inside it. Each kind of
resource is expanded in its own way, all of a tenant at once, an ODS with its organizations one by
one, and lets its owner read the way up, so this is proved one parent at a time, by what the lower
resource contributes (`Sound.contributes_of_contains`). For an organization and its ODS it rests on
the closure, which on a sound store does not lead out of the ODS.
-/

namespace TeamAccess

namespace Store

variable {s₀ s s' : Store} {p : Privilege} {pl : Place} {a b : ResourceRef} {d : Demand}

/-! ## Contributions from further up -/

/-- What an organization reaches, its ODS reaches. -/
theorem Sound.reaches_ods (h : s.Sound) {x y : EdOrg} (hx : s.HasEdOrg x)
    (hy : s.Reaches y (.edOrg x.id)) : s.Reaches y (.ods x.ods) := by
  obtain ⟨hhas, hid | hbelow⟩ := hy
  · obtain rfl := hhas.unique hx hid
    exact ⟨hhas, rfl⟩
  · obtain ⟨x', y', hx', hy', hods, hxid, hyid⟩ := h.ends_of_liesBelow hbelow
    obtain rfl := hx'.unique hx hxid
    obtain rfl := hy'.unique hhas hyid
    exact ⟨hhas, hods.symm⟩

/-- **A parent contributes what its child does.** -/
theorem Sound.contributes_of_contains (h : s.Sound) (hab : s.Contains a b)
    (hd : s.Contributes p pl b d) : s.Contributes p pl a d := by
  cases hab with
  | @tenant t ht =>
    generalize hb : ResourceRef.tenant t.id = b at hd
    cases hd with
    | inTenant _ hin hshape =>
      obtain rfl := ht.unique hin.hasTenant (ResourceRef.tenant.inj hb)
      exact hin.eq ▸ .inTenants d hin hshape
    | tenant hin hs =>
      obtain rfl := ht.unique hin.hasTenant (ResourceRef.tenant.inj hb)
      exact hin.eq ▸ .tenants _ hin.hasEnvironment hs
    | aboveTenant hin hs _ =>
      obtain rfl := ht.unique hin.hasTenant (ResourceRef.tenant.inj hb)
      exact hin.eq ▸ .environment hin.hasEnvironment hs
    | edOrgs _ hr _ _ | applications _ hr _ _ _ | odsAbove _ hr _ _ | tenantAbove _ hr _ _
      | environmentAbove _ hr _ _ =>
      subst hb
      exact hr.elim
    | _ => cases hb
  | @ods o ho =>
    generalize hb : ResourceRef.ods o.id = b at hd
    -- All that lies in the tenant it contributes at once, and the way up from itself.
    have hall {o' : Ods} {t : Tenant} {e : Environment} (hin : s.OdsIn o' t e)
        (hr : s.LiesIn o' b) (hshape : p.shape = .byTenant) :
        s.Contributes p (.tenant t.id) (.tenant o.tenant) d := by
      subst hb
      obtain rfl := ho.unique hin.hasOds hr
      exact hin.eq ▸ .inTenant d hin.tenantIn hshape
    cases hd with
    | ods hin hs => exact hall hin rfl (Privilege.shape_eq_byTenant_iff.2 (by simp [hs]))
    | edOrgs hin hr _ hs => exact hall hin hr (Privilege.shape_eq_byTenant_iff.2 (by simp [hs]))
    | applications hin hr _ _ hs =>
      exact hall hin hr (Privilege.shape_eq_byTenant_iff.2 (by simp [hs]))
    | odsAbove hin hr hs _ => exact hall hin hr (Privilege.shape_eq_byTenant_iff.2 (by simp [hs]))
    | tenantAbove hin hr hs _ =>
      subst hb
      obtain rfl := ho.unique hin.hasOds hr
      exact hin.eq ▸ .tenant hin.tenantIn hs
    | environmentAbove hin hr hs hread =>
      subst hb
      obtain rfl := ho.unique hin.hasOds hr
      exact hin.eq ▸ .aboveTenant hin.tenantIn hs hread
    | _ => cases hb
  | @edOrg x hx =>
    generalize hb : ResourceRef.edOrg x.id = b at hd
    have hlies {o : Ods} (hr : s.LiesIn o b) : s.LiesIn o (.ods x.ods) := by
      subst hb
      obtain ⟨y, hy, hid, hods⟩ := hr
      obtain rfl := hy.unique hx hid
      exact hods
    have hreaches {y : EdOrg} (hy : s.Reaches y b) : s.Reaches y (.ods x.ods) := by
      subst hb
      exact h.reaches_ods hx hy
    cases hd with
    | edOrgs hin hr hy hs => exact .edOrgs hin (hlies hr) (hreaches hy) hs
    | applications hin hr hy hk hs => exact .applications hin (hlies hr) (hreaches hy) hk hs
    | odsAbove hin hr hs hread => exact .odsAbove hin (hlies hr) hs hread
    | tenantAbove hin hr hs hread => exact .tenantAbove hin (hlies hr) hs hread
    | environmentAbove hin hr hs hread => exact .environmentAbove hin (hlies hr) hs hread
    | _ => cases hb

/-- **Whatever lies above contributes what lies below does.** -/
theorem Sound.contributes_of_above (h : s.Sound) (hab : s.Above a b)
    (hd : s.Contributes p pl b d) : s.Contributes p pl a d := by
  induction hab with
  | single hstep => exact h.contributes_of_contains hstep hd
  | tail _ hstep ih => exact ih (h.contributes_of_contains hstep hd)

/-! ## Builds -/

/-- The cache of a team with one ownership can be built, on the hierarchy of a sound store. -/
theorem OwnsOnly.succeeds_buildCache (hsound : s₀.Sound) (hsame : SameHierarchy s₀ s)
    {team : TeamId} {role : Role} (h : s.OwnsOnly team role a) :
    Succeeds (s.buildCache team) := by
  obtain ⟨o, hlist, hrole, -⟩ := h.listed
  rw [buildCache_eq]
  refine .bind ⟨_, hlist⟩ fun os hos => ?_
  obtain rfl := Except.ok.inj (hlist.symm.trans hos)
  refine (succeeds_foldlM_addTo_iff Cache.fits_empty rfl).2 fun o' ho' => ?_
  obtain rfl := List.mem_singleton.1 ho'
  refine ⟨role, role?_eq_some_iff.2 ⟨h.hasRole, hrole.symm⟩, fun _ => ?_⟩
  rw [hsame.expansion_eq]
  exact hsound.succeeds_expansion _

end Store

namespace Service

open Store (SameHierarchy OwnsOnly)

/-- **What is owned higher gives no less.** Take the hierarchy as any run has left it, a resource
and one that lies in it, and two teams, or one in two states, that own nothing but these, by the
same role, which the first may use if the second may. Both caches can be built, and for every
privilege and every request the first gives what the second gives. -/
theorem owned_higher_gives_no_less (mode : CacheMode) (now : Timestamp) (es : List Event)
    {s s' : Store} (hs : SameHierarchy ((initial mode now).run es).store s)
    (hs' : SameHierarchy ((initial mode now).run es).store s') {a b : ResourceRef}
    (hab : a = .global ∨ ((initial mode now).run es).store.Above a b) {team team' : TeamId}
    {role : Role} (hown : s.OwnsOnly team role a) (hown' : s'.OwnsOnly team' role b)
    (hmay : role.scope.admits team' = true → role.scope.admits team = true) :
    ∃ c c', s.buildCache team = .ok c ∧ s'.buildCache team' = .ok c' ∧
      ∀ p q, (c'.extract p q).Within (c.extract p q) := by
  have hsound := sound_run mode now es
  obtain ⟨c, hc⟩ := hown.succeeds_buildCache hsound hs
  obtain ⟨c', hc'⟩ := hown'.succeeds_buildCache hsound hs'
  refine ⟨c, c', hc, hc', fun p q d hd => ?_⟩
  obtain ⟨pl, hpl, r, hholds, hcontributes⟩ :=
    (Store.gives_extract_buildCache_iff hc' p q d).1 hd
  obtain ⟨⟨hadmits, hp⟩, rfl⟩ := hown'.holds_iff.1 hholds
  have hholds : s.Holds team p a := hown.holds_iff.2 ⟨⟨hmay hadmits, hp⟩, rfl⟩
  refine (Store.gives_extract_buildCache_iff hc p q d).2 ⟨pl, hpl, a, hholds, ?_⟩
  rcases hab with rfl | habove
  · exact .everything pl d
  · -- Up the hierarchy that the two states share.
    exact hs.grows.contributes
      (hsound.contributes_of_above habove (hs'.symm.grows.contributes hcontributes))

/-- A team that reads by its one tenant reads the ODS, as it does by the ODS. -/
theorem grounds_tenant_gives_ods : ∃ s s' : Store,
    SameHierarchy ((initial .shared .epoch).run grounds).store s ∧
    SameHierarchy ((initial .shared .epoch).run grounds).store s' ∧
    s.OwnsOnly 1 (Store.stored .readOnly 3) (.tenant 2) ∧
    s'.OwnsOnly 1 (Store.stored .readOnly 3) (.ods 3) ∧
    ∃ c c', s.buildCache 1 = .ok c ∧ s'.buildCache 1 = .ok c' ∧
      (c'.extract .odsRead ⟨none, some 2⟩).Gives (.entry (.id 3)) ∧
      (c.extract .odsRead ⟨none, some 2⟩).Gives (.entry (.id 3)) := by
  have hgrounds := grounds_run .shared .epoch
  have hods : ((initial .shared .epoch).run grounds).store.HasOds ⟨3, 2, "Main", none⟩ :=
    ⟨_, hgrounds.odss, Index.mem_insert.2 (.inl rfl)⟩
  have hin : ((initial .shared .epoch).run grounds).store.OdsIn ⟨3, 2, "Main", none⟩
      ⟨2, 1, "North"⟩ ⟨1, "East", .v1⟩ :=
    ⟨hods, rfl, hgrounds.tenant, hgrounds.environment, rfl⟩
  obtain ⟨_, -, hs, hown⟩ := step_addOwnership_first hgrounds.ownerships hgrounds.team rfl
    hgrounds.reader (resourceExists_tenant hgrounds.tenant rfl)
  obtain ⟨_, -, hs', hown'⟩ := step_addOwnership_first hgrounds.ownerships hgrounds.team rfl
    hgrounds.reader (resourceExists_ods hods rfl)
  have hsame : SameHierarchy ((initial .shared .epoch).run grounds).store _ := .of_ownerships hs
  have hsame' : SameHierarchy ((initial .shared .epoch).run grounds).store _ := .of_ownerships hs'
  obtain ⟨c, c', hc, hc', hwithin⟩ := owned_higher_gives_no_less .shared .epoch grounds hsame hsame'
    (.inr (.single (.ods hods))) hown hown' fun hadmits => hadmits
  have hlower : (c'.extract .odsRead ⟨none, some 2⟩).Gives (.entry (.id 3)) := by
    refine (Store.gives_extract_buildCache_iff hc' _ _ _).2 ⟨.tenant 2, rfl, .ods 3, ?_, ?_⟩
    · exact (hown'.holdsOnly ((Store.lends_stored_iff hown'.hasRole).2 rfl)).holds_iff.2 rfl
    · exact hsame'.grows.contributes (.ods hin rfl)
  exact ⟨_, _, hsame, hsame', hown, hown', c, c', hc, hc', hlower, hwithin _ _ _ hlower⟩

end Service

end TeamAccess
