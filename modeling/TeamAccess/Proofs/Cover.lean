import Mathlib.Logic.Relation
import TeamAccess.Proofs.Holding
import TeamAccess.Proofs.Integrity
import TeamAccess.Ids.Filter

/-!
# Cover — what lets a team read a row

An ownership covers a row of the hierarchy if it is of everything, of the row itself, of something
above it, or, unless the row is an organization, of something below it; and an organization covers
those that the closure has below it. This is said from the parents of stored rows alone
(`Store.Covers`), without places, demands or shapes; on a sound store it is what ownerships
contribute to reading (`contributes_iff_covers`), and so what a request's filter lets pass.
-/

namespace TeamAccess.Store

variable {s : Store}

/-! ## The hierarchy -/

/-- The first resource is the parent of the second, which is stored. -/
inductive Contains (s : Store) : ResourceRef → ResourceRef → Prop
  | tenant {t : Tenant} : s.HasTenant t → Contains s (.environment t.environment) (.tenant t.id)
  | ods {o : Ods} : s.HasOds o → Contains s (.tenant o.tenant) (.ods o.id)
  | edOrg {x : EdOrg} : s.HasEdOrg x → Contains s (.ods x.ods) (.edOrg x.id)

/-- The first resource is an ancestor of the second: its parent, its parent's parent and so on. -/
def Above (s : Store) : ResourceRef → ResourceRef → Prop := Relation.TransGen s.Contains

/-- **An ownership of the first resource covers the second.** -/
inductive Covers (s : Store) : ResourceRef → ResourceRef → Prop
  | everything (r : ResourceRef) : Covers s .global r
  | self (r : ResourceRef) : Covers s r r
  | above {a r : ResourceRef} : s.Above a r → Covers s a r
  /-- What lies below an organization is what the closure says. -/
  | closure {a d : ResourceId} : s.LiesBelow a d → Covers s (.edOrg a) (.edOrg d)
  /-- Whoever owns something may see what it lies in. -/
  | below {r d : ResourceRef} : r.kind ≠ .edOrg → s.Above r d → Covers s d r

/-- The team may read the resource with the privilege: it holds the privilege over a resource that
covers this one. -/
def MayRead (s : Store) (team : TeamId) (p : Privilege) (r : ResourceRef) : Prop :=
  ∃ owned, s.Holds team p owned ∧ s.Covers owned r

/-- An environment is above its tenants. -/
theorem TenantIn.above {t : Tenant} {e : Environment} (h : s.TenantIn t e) :
    s.Above (.environment e.id) (.tenant t.id) :=
  .single (h.eq ▸ .tenant h.hasTenant)

section OdsIn

variable {o : Ods} {t : Tenant} {e : Environment} {r : ResourceRef} (ho : s.OdsIn o t e)

/-- An ODS is above its organizations. -/
theorem LiesIn.above (hr : s.LiesIn o r) (hne : r ≠ .ods o.id) : s.Above (.ods o.id) r := by
  cases r with
  | ods n => exact absurd (congrArg ResourceRef.ods hr) hne
  | edOrg n =>
    obtain ⟨x, hx, rfl, hxo⟩ := hr
    exact .single (hxo ▸ .edOrg hx)
  | _ => exact hr.elim

include ho

/-- A tenant is above its ODSs and what lies in them. -/
theorem OdsIn.tenant_above (hr : s.LiesIn o r) : s.Above (.tenant t.id) r := by
  have hods : s.Above (.tenant t.id) (.ods o.id) := .single (ho.eq ▸ .ods ho.hasOds)
  by_cases hne : r = .ods o.id
  · rwa [hne]
  · exact hods.trans (hr.above hne)

/-- An environment is above the ODSs of its tenants and what lies in them. -/
theorem OdsIn.environment_above (hr : s.LiesIn o r) : s.Above (.environment e.id) r :=
  ho.tenantIn.above.trans (ho.tenant_above hr)

end OdsIn

/-- **What lies above a resource** is nothing else: a tenant has its environment above it, and an
ODS or an organization has its environment, its tenant and, if it is an organization, its ODS. -/
theorem Sound.cases_above (h : s.Sound) {a r : ResourceRef} (habove : s.Above a r) :
    (∃ t e, s.TenantIn t e ∧ a = .environment e.id ∧ r = .tenant t.id) ∨
      ∃ o t e, s.OdsIn o t e ∧ s.LiesIn o r ∧
        (a = .environment e.id ∨ a = .tenant t.id ∨ a = .ods o.id ∧ r ≠ .ods o.id) := by
  induction habove with
  | single hstep =>
    cases hstep with
    | tenant ht =>
      obtain ⟨e, hin⟩ := h.tenantIn ht
      exact .inl ⟨_, e, hin, by rw [hin.eq], rfl⟩
    | ods ho =>
      obtain ⟨t, e, hin⟩ := h.odsIn ho
      exact .inr ⟨_, t, e, hin, rfl, .inr (.inl (by rw [hin.eq]))⟩
    | edOrg hx =>
      obtain ⟨o, t, e, hin, hxo⟩ := h.edOrgIn hx
      exact .inr ⟨o, t, e, hin, ⟨_, hx, rfl, hxo⟩, .inr (.inr ⟨by rw [hxo], by simp⟩)⟩
  | tail _ hstep ih =>
    -- One step further down: what was above the parent, which by its kind can only have been a
    -- tenant or an ODS, is above the child too.
    cases hstep with
    | tenant _ =>
      rcases ih with ⟨_, _, -, -, hr⟩ | ⟨_, _, _, -, hr, -⟩
      · cases hr
      · exact hr.elim
    | @ods o ho =>
      obtain ⟨t, e, hin⟩ := h.odsIn ho
      rcases ih with ⟨t', e', hin', rfl, hr⟩ | ⟨_, _, _, -, hr, -⟩
      · have htid : t.id = t'.id := hin.eq.symm.trans (ResourceRef.tenant.inj hr)
        obtain ⟨rfl, rfl⟩ := hin.tenantIn.unique hin' htid
        exact .inr ⟨o, t, e, hin, rfl, .inl rfl⟩
      · exact hr.elim
    | @edOrg x hx =>
      rcases ih with ⟨_, _, -, -, hr⟩ | ⟨o, t, e, hin, hr, ha⟩
      · cases hr
      · refine .inr ⟨o, t, e, hin, ⟨x, hx, rfl, hr⟩, ?_⟩
        rcases ha with rfl | rfl | ⟨-, hne⟩
        · exact .inl rfl
        · exact .inr (.inl rfl)
        · exact absurd (congrArg ResourceRef.ods hr) hne

/-- **An ODS covers** what it lies in, itself and its organizations. -/
theorem Sound.covers_ods_iff (h : s.Sound) {o : Ods} {t : Tenant} {e : Environment}
    (ho : s.OdsIn o t e) {r : ResourceRef} : s.Covers (.ods o.id) r ↔
      r = .environment e.id ∨ r = .tenant t.id ∨ r = .ods o.id ∨
        ∃ x, s.HasEdOrg x ∧ x.ods = o.id ∧ r = .edOrg x.id := by
  constructor
  · intro hcovers
    generalize hd : ResourceRef.ods o.id = d at hcovers
    cases hcovers with
    | everything | closure => cases hd
    | self => exact .inr (.inr (.inl rfl))
    | above habove =>
      subst hd
      rcases h.cases_above habove with ⟨_, _, -, ha, -⟩ | ⟨o', _, _, -, hr, ha⟩
      · cases ha
      · obtain ha | ha | ⟨ha, hne⟩ := ha
        · cases ha
        · cases ha
        · cases r with
          | ods n => exact absurd (congrArg ResourceRef.ods hr) hne
          | edOrg n =>
            obtain ⟨x, hx, rfl, hxo⟩ := hr
            exact .inr (.inr (.inr ⟨x, hx, hxo.trans (ResourceRef.ods.inj ha).symm, rfl⟩))
          | _ => exact hr.elim
    | below _ habove =>
      subst hd
      rcases h.cases_above habove with ⟨_, _, -, -, hr⟩ | ⟨_, _, _, hin, hr, ha⟩
      · cases hr
      · obtain ⟨rfl, rfl, rfl⟩ := ho.unique hin hr
        exact ha.imp_right (.imp_right fun hods => .inl hods.1)
  · rintro (rfl | rfl | rfl | ⟨x, hx, hxo, rfl⟩)
    · exact .below (by simp [ResourceRef.kind]) (ho.environment_above rfl)
    · exact .below (by simp [ResourceRef.kind]) (ho.tenant_above rfl)
    · exact .self _
    · exact .above (.single (hxo ▸ .edOrg hx))

/-! ## Reading -/

/-- Where the id of a row is filed, for the privileges on rows of its kind. -/
inductive Filed (s : Store) : Subject → Place → ResourceRef → ResourceId → Prop
  | environment {n : ResourceId} {e : Environment} : s.HasEnvironment e → e.id = n →
      Filed s .environment .whole (.environment n) n
  | tenant {m n : ResourceId} {t : Tenant} {e : Environment} : s.TenantIn t e → e.id = m →
      t.id = n → Filed s .tenant (.environment m) (.tenant n) n
  | ods {m n : ResourceId} {o : Ods} {t : Tenant} {e : Environment} : s.OdsIn o t e → t.id = m →
      o.id = n → Filed s .ods (.tenant m) (.ods n) n
  | edOrg {m n : ResourceId} {x : EdOrg} {o : Ods} {t : Tenant} {e : Environment} :
      s.OdsIn o t e → s.HasEdOrg x → x.ods = o.id → t.id = m → x.id = n →
      Filed s .edOrg (.tenant m) (.edOrg n) n

variable {p : Privilege} {pl : Place} {owned listed : ResourceRef} {n : ResourceId}

/-- What contributes the id of a filed row covers the row. -/
theorem covers_of_contributes (hfiled : s.Filed p.subject pl listed n)
    (hd : s.Contributes p pl owned (.entry (.id n))) : s.Covers owned listed := by
  -- By what is contributed: the privilege's subject says which kind of row can be filed there.
  generalize hc : p.subject = c at hfiled
  cases hd with
  | everything => exact .everything listed
  | environment _ hs =>
    obtain rfl := hc.symm.trans hs
    cases hfiled
    exact .self _
  | tenants _ _ hs =>
    obtain rfl := hc.symm.trans hs
    cases hfiled with
    | tenant ht he htid =>
      subst htid
      exact he ▸ .above ht.above
  | inTenants _ ht _ =>
    cases hfiled with
    | ods ho htid hid =>
      obtain ⟨rfl, rfl⟩ := ho.tenantIn.unique ht htid
      exact .above (ho.environment_above hid.symm)
    | edOrg ho hx hxo htid hid =>
      obtain ⟨rfl, rfl⟩ := ho.tenantIn.unique ht htid
      exact .above (ho.environment_above ⟨_, hx, hid, hxo⟩)
  | inTenant _ ht _ =>
    cases hfiled with
    | ods ho htid hid =>
      exact htid ▸ .above (ho.tenant_above hid.symm)
    | edOrg ho hx hxo htid hid =>
      exact htid ▸ .above (ho.tenant_above ⟨_, hx, hid, hxo⟩)
  | tenant _ hs =>
    obtain rfl := hc.symm.trans hs
    cases hfiled
    exact .self _
  | aboveTenant ht hs _ =>
    obtain rfl := hc.symm.trans hs
    cases hfiled
    exact .below (by simp [ResourceRef.kind]) ht.above
  | ods _ hs =>
    obtain rfl := hc.symm.trans hs
    cases hfiled
    exact .self _
  | @edOrgs o t e _ x _ _ hreach hs =>
    obtain rfl := hc.symm.trans hs
    cases hfiled
    cases owned with
    | ods m => exact .above (.single (hreach.2 ▸ .edOrg hreach.1))
    | edOrg m =>
      rcases hreach.2 with hself | hbelow
      · exact hself ▸ .self _
      · exact .closure hbelow
    | _ => exact hreach.elim
  | odsAbove ho hr hs _ =>
    obtain rfl := hc.symm.trans hs
    cases hfiled
    cases owned with
    | ods m => exact hr ▸ .self _
    | edOrg m =>
      exact .below (by simp [ResourceRef.kind]) (hr.above (by simp))
    | _ => exact hr.elim
  | tenantAbove ho hr hs _ =>
    obtain rfl := hc.symm.trans hs
    cases hfiled
    exact .below (by simp [ResourceRef.kind]) (ho.tenant_above hr)
  | environmentAbove ho hr hs _ =>
    obtain rfl := hc.symm.trans hs
    cases hfiled
    exact .below (by simp [ResourceRef.kind]) (ho.environment_above hr)

/-- Reading, what covers a filed row contributes its id. -/
theorem contributes_of_covers (h : s.Sound) (hread : p.action = .read)
    (hfiled : s.Filed p.subject pl listed n) (hcover : s.Covers owned listed) :
    s.Contributes p pl owned (.entry (.id n)) := by
  generalize hc : p.subject = c at hfiled
  -- By why the row is covered: its kind and the privilege's subject then say what is contributed.
  cases hcover with
  | everything => exact .everything _ _
  | self =>
    cases hfiled with
    | environment he hid => exact hid ▸ .environment he hc
    | tenant ht heid htid => exact heid ▸ htid ▸ .tenant ht hc
    | ods ho htid hid => exact htid ▸ hid ▸ .ods ho hc
    | edOrg ho hx hxo htid hid =>
      subst htid hid
      exact .edOrgs ho ⟨_, hx, rfl, hxo⟩ ⟨hx, .inl rfl⟩ hc
  | above habove =>
    rcases h.cases_above habove with ⟨t, e, hin, rfl, rfl⟩ | ⟨o, t, e, hin, hr, ha⟩
    · cases hfiled with
      | tenant ht heid htid =>
        obtain ⟨rfl, rfl⟩ := ht.unique hin htid
        exact heid ▸ .tenants _ ht.hasEnvironment hc
    · cases hfiled with
      | environment | tenant => exact hr.elim
      | ods ho htid hid =>
        obtain ⟨rfl, rfl, rfl⟩ := ho.unique hin (hid.trans hr)
        have hshape : p.shape = .byTenant := Privilege.shape_eq_byTenant_iff.2 (by simp [hc])
        subst htid hid
        rcases ha with rfl | rfl | ⟨-, hne⟩
        · exact .inTenants _ ho.tenantIn hshape
        · exact .inTenant _ ho.tenantIn hshape
        · exact absurd rfl hne
      | edOrg ho hx hxo htid hid =>
        obtain ⟨rfl, rfl, rfl⟩ :=
          ho.unique hin ((show s.LiesIn _ (.edOrg n) from ⟨_, hx, hid, hxo⟩).unique hr)
        have hshape : p.shape = .byTenant := Privilege.shape_eq_byTenant_iff.2 (by simp [hc])
        subst htid hid
        rcases ha with rfl | rfl | ⟨rfl, -⟩
        · exact .inTenants _ ho.tenantIn hshape
        · exact .inTenant _ ho.tenantIn hshape
        · exact .edOrgs ho rfl ⟨hx, hxo⟩ hc
  | @closure a d hbelow =>
    obtain ⟨x, y, hx, hy, hods, rfl, rfl⟩ := h.ends_of_liesBelow hbelow
    cases hfiled with
    | edOrg ho hy' hyo htid hid =>
      obtain rfl := hy.unique hy' hid.symm
      subst htid
      exact .edOrgs ho ⟨x, hx, rfl, hods.trans hyo⟩ ⟨hy, .inr hbelow⟩ hc
  | below hkind habove =>
    -- The row is above what is owned, so it is an environment, a tenant or an ODS on the way up.
    rcases h.cases_above habove with ⟨t, e, hin, rfl, rfl⟩ | ⟨o, t, e, hin, hr, ha⟩
    · cases hfiled with
      | environment he hid => exact .aboveTenant hin hc hread
    · rcases ha with rfl | rfl | ⟨rfl, -⟩
      · cases hfiled with
        | environment he hid => exact .environmentAbove hin hr hc hread
      · cases hfiled with
        | tenant ht heid htid =>
          obtain ⟨rfl, rfl⟩ := ht.unique hin.tenantIn htid
          exact heid ▸ .tenantAbove hin hr hc hread
      · cases hfiled with
        | ods ho htid hid =>
          obtain ⟨rfl, rfl, rfl⟩ := ho.unique hin hid
          exact htid ▸ .odsAbove ho hr hc hread

/-- **For reading, an ownership contributes the ids of the rows that it covers.** -/
theorem contributes_iff_covers (h : s.Sound) (hread : p.action = .read)
    (hfiled : s.Filed p.subject pl listed n) :
    s.Contributes p pl owned (.entry (.id n)) ↔ s.Covers owned listed :=
  ⟨covers_of_contributes hfiled, contributes_of_covers h hread hfiled⟩

/-! ## Filters -/

/-- Only what contributes everything contributes keys, but to applications. -/
theorem Contributes.everything_of_key {k : EdOrgKey}
    (hd : s.Contributes p pl owned (.entry (.edOrg k))) (hs : p.subject ≠ .application) :
    s.Contributes p pl owned .everything := by
  cases hd with
  | everything => exact .everything _ _
  | tenants _ he hs => exact .tenants _ he hs
  | inTenants _ ht hshape => exact .inTenants _ ht hshape
  | inTenant _ ht hshape => exact .inTenant _ ht hshape
  | applications _ _ _ _ hs' => exact absurd hs' hs

/-- A set without keys passes the rows whose ids it has. With keys it might pass others too, as the
text of a key can be that of an id. -/
theorem admits_toFilter_iff {ids : IdSet}
    (hkeys : ∀ k, ids.Gives (.entry (.edOrg k)) → ids.Gives .everything) :
    ids.toFilter.admits n = true ↔ ids.Gives (.entry (.id n)) := by
  cases ids with
  | all => simp [IdSet.toFilter, RowFilter.admits]
  | only ks =>
    simp only [IdSet.toFilter, RowFilter.admits, List.any_eq_true, IdSet.Gives, ← Index.mem_def]
    constructor
    · rintro ⟨k, hk, hequals⟩
      cases k with
      | id m =>
        obtain rfl : m = n := by simpa [AccessKey.bound, BoundValue.equals] using hequals
        exact hk
      | edOrg k => exact (hkeys k hk).elim
    · intro hn
      exact ⟨.id n, hn, by simp [AccessKey.bound, BoundValue.equals]⟩

/-- **A filter for reading lets pass the rows that the team may read**, where the request names the
place at which they are filed. -/
theorem admits_toFilter_extract_iff (h : s.Sound) {team : TeamId} {c : Cache}
    (hc : s.buildCache team = .ok c) (hread : p.action = .read) {q : ScopeParams}
    (hpl : q.place? p.shape = some pl) (hfiled : s.Filed p.subject pl listed n) :
    (c.extract p q).toFilter.admits n = true ↔ s.MayRead team p listed := by
  have hextract {d : Demand} :
      (c.extract p q).Gives d ↔ ∃ owned, s.Holds team p owned ∧ s.Contributes p pl owned d :=
    gives_extract_of_place hc hpl
  -- Keys are for applications, of which there are no rows to list.
  have hsubject : p.subject ≠ .application := by
    intro hs
    rw [hs] at hfiled
    cases hfiled
  rw [admits_toFilter_iff, hextract]
  · exact exists_congr fun owned => and_congr_right fun _ => contributes_iff_covers h hread hfiled
  · simp only [hextract]
    rintro k ⟨owned, hholds, hd⟩
    exact ⟨owned, hholds, hd.everything_of_key hsubject⟩

end TeamAccess.Store
