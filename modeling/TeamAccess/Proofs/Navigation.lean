import TeamAccess.Proofs.Isolation

/-!
# Navigation — the way up from what is listed

Who owns something may see what it lies in, so whatever a team may read, it may read what is above
it too: a row that covers another covers its parent (`Sound.covers_of_contains`). A team whose roles
all have the privileges to read thus finds a way up in its lists. Whatever is listed there, its
parent is listed where its own list has it, and so up to the environment.
-/

namespace TeamAccess

namespace Store

variable {s : Store} {owned parent a r : ResourceRef} {team : TeamId} {p p' : Privilege}

/-! ## Covered with what lies in it -/

/-- Whatever has something in it is no organization. -/
theorem Contains.kind_ne (h : s.Contains parent r) : parent.kind ≠ .edOrg := by
  cases h <;> simp [ResourceRef.kind]

/-- A resource has one parent. -/
theorem Contains.unique (h : s.Contains parent r) (h' : s.Contains a r) : a = parent := by
  cases h with
  | tenant ht =>
    generalize hr : ResourceRef.tenant _ = r at h'
    cases h' with
    | tenant ht' => rw [ht.unique ht' (ResourceRef.tenant.inj hr)]
    | _ => cases hr
  | ods ho =>
    generalize hr : ResourceRef.ods _ = r at h'
    cases h' with
    | ods ho' => rw [ho.unique ho' (ResourceRef.ods.inj hr)]
    | _ => cases hr
  | edOrg hx =>
    generalize hr : ResourceRef.edOrg _ = r at h'
    cases h' with
    | edOrg hx' => rw [hx.unique hx' (ResourceRef.edOrg.inj hr)]
    | _ => cases hr

/-- **What covers a resource covers its parent.** -/
theorem Sound.covers_of_contains (h : s.Sound) (hparent : s.Contains parent r)
    (hcover : s.Covers owned r) : s.Covers owned parent := by
  cases hcover with
  | everything => exact .everything parent
  | self => exact .below hparent.kind_ne (.single hparent)
  | above habove =>
    -- The last step of the way down is from the parent, as there is only one.
    cases habove with
    | single hstep => exact hparent.unique hstep ▸ .self _
    | tail hrest hstep => exact hparent.unique hstep ▸ .above hrest
  | closure hbelow =>
    obtain ⟨x, y, hx, hy, hods, rfl, rfl⟩ := h.ends_of_liesBelow hbelow
    obtain rfl := (Contains.edOrg hy).unique hparent
    exact .below (by simp [ResourceRef.kind]) (.single (hods ▸ .edOrg hx))
  | below _ habove => exact .below hparent.kind_ne (.head hparent habove)

/-- The privileges to read the hierarchy. -/
def readPrivileges : List Privilege := [.environmentRead, .tenantRead, .odsRead, .edOrgRead]

/-- The roles of the team's ownerships have all the privileges to read the hierarchy. -/
def ReadsAll (s : Store) (team : TeamId) : Prop :=
  ∀ o, s.HasOwnership o → o.team = team → ∃ role, s.HasRole role ∧ role.id = o.role ∧
    ∀ p ∈ readPrivileges, p ∈ role.privileges

/-- Such a team may read the parent of what it may read. -/
theorem Sound.mayRead_of_contains (h : s.Sound) (hreads : s.ReadsAll team)
    (hp : p ∈ readPrivileges) (hparent : s.Contains parent r) (hread : s.MayRead team p' r) :
    s.MayRead team p parent := by
  obtain ⟨_, ⟨o, ho, rfl, ⟨role, hrole, hid, hadmits, -⟩, rfl⟩, hcover⟩ := hread
  -- The role that lends the one privilege has the other too.
  obtain ⟨role', hrole', hid', hall⟩ := hreads o ho rfl
  obtain rfl := hrole.unique hrole' (hid.trans hid'.symm)
  have hlends : s.Lends o.team o.role p := ⟨role, hrole, hid, hadmits, hall p hp⟩
  exact ⟨o.resource, ⟨o, ho, rfl, hlends, rfl⟩, h.covers_of_contains hparent hcover⟩

/-- A team that holds every privilege by one ownership has all those to read. -/
theorem readsAll_of_holdsOnly (h : ∀ p, s.HoldsOnly team p r) : s.ReadsAll team := by
  obtain ⟨o, hlist, ⟨role, hrole, hid, -, -⟩, -⟩ := h .environmentRead
  intro o' ho' hteam
  obtain rfl : o' = o := by simpa using (mem_of_listOwnerships hlist).2 ⟨ho', hteam⟩
  refine ⟨role, hrole, hid, fun p _ => ?_⟩
  obtain ⟨o, hlist', hlends, -⟩ := h p
  obtain rfl : o' = o := by simpa using hlist.symm.trans hlist'
  exact (hrole.lends_iff.1 (hid ▸ hlends)).2

end Store

/-! ## Rows and their texts -/

@[simp] theorem Json.int64_inj {n m : Int64} : Json.int64 n = Json.int64 m ↔ n = m := by
  rw [Json.int64, Json.int64, Json.int.injEq, Int64.toInt_inj]

@[simp] theorem Json.member?_int64_inj {name : String} {n m : Option Int64} :
    Json.member? name .int64 n = Json.member? name .int64 m ↔ n = m := by
  cases n <;> cases m <;> simp [member?]

theorem Tenant.toJson_injective : Function.Injective Tenant.toJson := by
  rintro ⟨id, environment, name⟩ ⟨id', environment', name'⟩ h
  simpa [toJson] using h

theorem Ods.toJson_injective : Function.Injective Ods.toJson := by
  rintro ⟨id, tenant, name, inst⟩ ⟨id', tenant', name', inst'⟩ h
  simpa [toJson] using h

theorem EdOrg.toJson_injective : Function.Injective EdOrg.toJson := by
  rintro ⟨id, ods, organization, name, parent⟩ ⟨id', ods', organization', name', parent'⟩ h
  simpa [toJson] using h

open Http

/-! ## Requests for lists -/

namespace Http.Request

/-- The request is for the environments that the team is shown. -/
def GetsEnvironments (r : Request) (team : TeamId) : Prop :=
  r.method = .get ∧ ∃ a, IsId a team ∧ pathSegments r.target = some (environmentsPath a)

/-- The request is for the tenants of an environment. -/
def GetsTenants (r : Request) (team : TeamId) (environment : ResourceId) : Prop :=
  r.method = .get ∧ ∃ a b, IsId a team ∧ IsId b environment ∧
    pathSegments r.target = some (tenantsPath a b)

/-- The request is for something in a tenant. -/
def GetsInTenant (r : Request) (team : TeamId) (tenant : ResourceId) (what : String) : Prop :=
  r.method = .get ∧ ∃ a b, IsId a team ∧ IsId b tenant ∧
    pathSegments r.target = some (inTenantPath a b what)

end Http.Request

namespace Service

variable {α : Type} {v w : Service} {r : Request} {mode : CacheMode} {team : Team}

/-- The reply to a request lists the row. -/
def Shows (v : Service) (r : Request) (toJson : α → Json) (a : α) : Prop :=
  ∃ rows, (v.answer r).1 = listed toJson rows ∧ a ∈ rows

/-- An exact list has the rows with the property. -/
theorem Lists.shows {toJson : α → Json} {id : α → ResourceId} {P : α → Prop} {a : α}
    (h : v.Lists r toJson id P) (ha : P a) : v.Shows r toJson a := by
  obtain ⟨rows, hreply, hexact⟩ := h
  exact ⟨rows, hreply, (hexact.mem_iff a).2 ha⟩

/-- And no others, if rows can be told apart by their texts. -/
theorem Lists.of_shows {toJson : α → Json} {id : α → ResourceId} {P : α → Prop} {a : α}
    (h : v.Lists r toJson id P) (hinj : Function.Injective toJson) (ha : v.Shows r toJson a) :
    P a := by
  obtain ⟨rows, hreply, hexact⟩ := h
  obtain ⟨rows', hreply', hmem⟩ := ha
  have hlists : rows'.map toJson = rows.map toJson := by
    have hsame : listed toJson rows' = listed toJson rows := hreply'.symm.trans hreply
    simpa [listed, Reply.data] using hsame
  have hrows : rows' = rows := hinj.list_map hlists
  exact (hexact.mem_iff a).1 (hrows ▸ hmem)

/-- The team's lists have the tenant, and the environment that it is of. -/
structure LeadsUp (v : Service) (team : TeamId) (t : Tenant) (e : Environment) : Prop where
  tenant : ∀ r : Request, r.GetsTenants team e.id → v.Shows r Tenant.toJson t
  environment : ∀ r : Request, r.GetsEnvironments team → v.Shows r Environment.toJson e

section Served

variable (hv : Served mode v) (hteam : v.store.HasTeam team) (hreads : v.store.ReadsAll team.id)
include hv hteam

/-- An environment that the team may read is listed. -/
theorem shows_environment {e : Environment} (he : v.store.HasEnvironment e)
    (hread : v.store.MayRead team.id .environmentRead (.environment e.id))
    (hr : r.GetsEnvironments team.id) : v.Shows r Environment.toJson e := by
  obtain ⟨hget, a, ha, hpath⟩ := hr
  exact (lists_environments hv hteam hget ha hpath).shows ⟨he, hread⟩

/-- A tenant that the team may read is listed in its environment. -/
theorem shows_tenant {t : Tenant} (ht : v.store.HasTenant t)
    (hread : v.store.MayRead team.id .tenantRead (.tenant t.id))
    (hr : r.GetsTenants team.id t.environment) : v.Shows r Tenant.toJson t := by
  obtain ⟨hget, a, b, ha, hb, hpath⟩ := hr
  exact (lists_tenants hv hteam hget ha hb hpath).shows ⟨ht, rfl, hread⟩

/-- An ODS that the team may read is listed in its tenant. -/
theorem shows_ods {o : Ods} (ho : v.store.HasOds o)
    (hread : v.store.MayRead team.id .odsRead (.ods o.id))
    (hr : r.GetsInTenant team.id o.tenant "odss") : v.Shows r Ods.toJson o := by
  obtain ⟨hget, a, b, ha, hb, hpath⟩ := hr
  exact (lists_odss hv hteam hget ha hb hpath).shows ⟨ho, rfl, hread⟩

include hreads

/-- **From a tenant that the team may read, its lists lead up.** -/
theorem leadsUp_of_tenant {t : Tenant} {e : Environment} (hin : v.store.TenantIn t e)
    (hread : v.store.MayRead team.id .tenantRead (.tenant t.id)) : v.LeadsUp team.id t e := by
  have hparent : v.store.Contains (.environment e.id) (.tenant t.id) :=
    hin.eq ▸ .tenant hin.hasTenant
  have habove : v.store.MayRead team.id .environmentRead (.environment e.id) :=
    hv.sound.mayRead_of_contains hreads (by simp [Store.readPrivileges]) hparent hread
  exact ⟨fun r hr => shows_tenant hv hteam hin.hasTenant hread (hin.eq ▸ hr),
    fun r hr => shows_environment hv hteam hin.hasEnvironment habove hr⟩

/-- And so they do from an ODS. -/
theorem leadsUp_of_ods {o : Ods} {t : Tenant} {e : Environment} (hin : v.store.OdsIn o t e)
    (hread : v.store.MayRead team.id .odsRead (.ods o.id)) : v.LeadsUp team.id t e := by
  have hparent : v.store.Contains (.tenant t.id) (.ods o.id) := hin.eq ▸ .ods hin.hasOds
  have habove : v.store.MayRead team.id .tenantRead (.tenant t.id) :=
    hv.sound.mayRead_of_contains hreads (by simp [Store.readPrivileges]) hparent hread
  exact leadsUp_of_tenant hv hteam hreads hin.tenantIn habove

end Served

/-- **Whatever is listed, what it lies in is listed.** Whatever a service was asked before, let a
stored team have only ownerships whose roles have all the privileges to read. An organization that
is listed in a tenant has its ODS listed there, the tenant listed in its environment and the
environment listed; an ODS that is listed has the tenant and the environment, and a tenant the
environment. The lists may be of a later service, as long as the store is still the same. -/
theorem listed_upward {v w : Service} {mode : CacheMode} (hv : Served mode v) (hw : Served mode w)
    (hstore : w.store = v.store) {team : Team} (hteam : v.store.HasTeam team)
    (hreads : v.store.ReadsAll team.id) :
    (∀ (r : Request) x n, r.GetsInTenant team.id n "edorgs" → v.Shows r EdOrg.toJson x →
      ∃ o t e, v.store.OdsIn o t e ∧ x.ods = o.id ∧ t.id = n ∧
        (∀ r' : Request, r'.GetsInTenant team.id n "odss" → w.Shows r' Ods.toJson o) ∧
        w.LeadsUp team.id t e) ∧
    (∀ (r : Request) o n, r.GetsInTenant team.id n "odss" → v.Shows r Ods.toJson o →
      ∃ t e, v.store.OdsIn o t e ∧ t.id = n ∧ w.LeadsUp team.id t e) ∧
    ∀ (r : Request) t n, r.GetsTenants team.id n → v.Shows r Tenant.toJson t →
      ∃ e, v.store.TenantIn t e ∧ e.id = n ∧ w.LeadsUp team.id t e := by
  have hsound := hv.sound
  refine ⟨?_, ?_, ?_⟩
  · rintro r x n ⟨hget, a, b, ha, hb, hpath⟩ hshows
    have hlists := lists_edOrgs hv hteam hget ha hb hpath
    obtain ⟨hx, ⟨o, ho, hxo, hon⟩, hread⟩ := hlists.of_shows EdOrg.toJson_injective hshows
    obtain ⟨t, e, hin⟩ := hsound.odsIn ho
    have hparent : v.store.Contains (.ods o.id) (.edOrg x.id) := hxo ▸ .edOrg hx
    have hods : v.store.MayRead team.id .odsRead (.ods o.id) :=
      hsound.mayRead_of_contains hreads (by simp [Store.readPrivileges]) hparent hread
    rw [← hstore] at hteam hreads hods hin
    refine ⟨o, t, e, hstore ▸ hin, hxo.symm, hin.eq.symm.trans hon, fun r' hr' => ?_,
      leadsUp_of_ods hw hteam hreads hin hods⟩
    exact shows_ods hw hteam hin.hasOds hods (hon ▸ hr')
  · rintro r o n ⟨hget, a, b, ha, hb, hpath⟩ hshows
    have hlists := lists_odss hv hteam hget ha hb hpath
    obtain ⟨ho, hon, hread⟩ := hlists.of_shows Ods.toJson_injective hshows
    obtain ⟨t, e, hin⟩ := hsound.odsIn ho
    rw [← hstore] at hteam hreads hread hin
    exact ⟨t, e, hstore ▸ hin, hin.eq.symm.trans hon, leadsUp_of_ods hw hteam hreads hin hread⟩
  · rintro r t n ⟨hget, a, b, ha, hb, hpath⟩ hshows
    have hlists := lists_tenants hv hteam hget ha hb hpath
    obtain ⟨ht, htn, hread⟩ := hlists.of_shows Tenant.toJson_injective hshows
    obtain ⟨e, hin⟩ := hsound.tenantIn ht
    rw [← hstore] at hteam hreads hread hin
    exact ⟨e, hstore ▸ hin, hin.eq.symm.trans htn, leadsUp_of_tenant hw hteam hreads hin hread⟩

/-- The team of the twins is listed the organization of its ODS, and after that the ODS, the tenant
and the environment. -/
theorem twins_listed_upward : ∃ v w, Served .shared v ∧ Served .shared w ∧ w.store = v.store ∧
    v.store.HasTeam ⟨1, "Wardens"⟩ ∧ v.store.ReadsAll 1 ∧
    v.Shows (ask "/api/teams/1/edfi-tenants/2/edorgs") EdOrg.toJson (school 5 3) ∧
    (∃ o : Ods, o.id = 3 ∧ w.Shows (ask "/api/teams/1/edfi-tenants/2/odss") Ods.toJson o) ∧
    w.Shows (ask "/api/teams/1/sb-environments/1/edfi-tenants") Tenant.toJson ⟨2, 1, "North"⟩ ∧
    w.Shows (ask "/api/teams/1/sb-environments") Environment.toJson ⟨1, "East", .v1⟩ := by
  obtain ⟨hserved, htwins⟩ := twinned_spec
  have hone : IsId ['1'] 1 := ⟨"1", by decide, by decide⟩
  have htwo : IsId ['2'] 2 := ⟨"2", by decide, by decide⟩
  have hreads : twinned.store.ReadsAll 1 := Store.readsAll_of_holdsOnly htwins.owned
  have hpath : pathSegments (ask "/api/teams/1/edfi-tenants/2/edorgs").target =
      some (inTenantPath ['1'] ['2'] "edorgs") := by decide
  have hlisted : twinned.Shows (ask "/api/teams/1/edfi-tenants/2/edorgs") EdOrg.toJson
      (school 5 3) := by
    have hlists := lists_edOrgs hserved htwins.team rfl hone htwo hpath
    obtain ⟨hmain, o, ho, hods, htenant⟩ := htwins.main
    refine hlists.shows ⟨hmain, ⟨o, ho, hods.symm, htenant⟩, .ods 3, ?_, .above ?_⟩
    · exact (htwins.owned .edOrgRead).holds_iff.2 rfl
    · exact .single (.edOrg hmain)
  obtain ⟨w, hw, hstore⟩ : ∃ w, Served .shared w ∧ w.store = twinned.store := by
    obtain ⟨route, hroute, hop⟩ := findRoute_edOrgs hpath
    have hasked : (ask "/api/teams/1/edfi-tenants/2/edorgs").IsOf 1 :=
      ⟨route, _, .listEdOrgs, hroute, hop, trivial, (names_tenant hone htwo).team⟩
    exact ⟨_, .answer _ hserved, store_answer_of_isOf hasked⟩
  obtain ⟨o, t, e, hin, hxo, htn, hodss, hup⟩ :=
    (listed_upward hserved hw hstore htwins.team hreads).1 _ _ 2
      ⟨rfl, ['1'], ['2'], hone, htwo, hpath⟩ hlisted
  obtain ⟨rfl, rfl⟩ := hin.tenantIn.unique htwins.tenantIn htn
  refine ⟨twinned, w, hserved, hw, hstore, htwins.team, hreads, hlisted, ⟨o, hxo.symm, ?_⟩, ?_, ?_⟩
  · exact hodss _ ⟨rfl, ['1'], ['2'], hone, htwo, by decide⟩
  · exact hup.tenant _ ⟨rfl, ['1'], ['1'], hone, hone, by decide⟩
  · exact hup.environment _ ⟨rfl, ['1'], hone, by decide⟩

end Service

end TeamAccess
