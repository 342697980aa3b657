import TeamAccess.Proofs.Applications
import TeamAccess.Proofs.Listing

/-!
# Answers — the lists that a team gets

A path is read twice: once to know who asks and in what scope, once by the operation itself. The two
readings agree (`Params.id_eq_ok_iff`), the cache is the one that a build gives, and so the filter
that an operation lists under is the team's own. What is served in answer is then the list of the
store, whatever was asked of the service before.
-/

namespace TeamAccess

open Http Handler

namespace Http

variable {ps : Params} {v : Service} {team : Team} {q : ScopeParams}

/-! ## Reading paths -/

/-- **The two readers of ids agree.** -/
theorem Params.id_eq_ok_iff {name : String} {n : Int64} :
    ps.id name = .ok n ↔ Caller.pathId ps name = .ok (some n) := by
  unfold Params.id Caller.pathId
  rcases ps.lookup name with _ | _ | raw
  · simp
  · simp
  · cases h : Decimal.readInt64? raw.toList <;> simp [h]

/-- The parameters have the team and the scope of a request. -/
structure Params.Names (ps : Params) (team : TeamId) (q : ScopeParams) : Prop where
  texts : ps.find? (fun p => p.2.isNone) = none
  team : Caller.pathId ps "team_id" = .ok (some team)
  environment : Caller.pathId ps "environment_id" = .ok q.environment
  tenant : Caller.pathId ps "tenant_id" = .ok q.tenant

/-! ## What a team is answered -/

/-- A list within a place is answered with what the store lists there under the caller's filter. The
operation reads the place from the path once more, and that is the place of the caller's scope. -/
theorem eval_listWithin {α : Type} {toJson : α → Json} {message name : String} {p : Privilege}
    (list : Store → ResourceId → RowFilter → Except Fault (List α)) {c : Cache} {v' : Service}
    {id : ResourceId} {rows : List α}
    (hcaller : (Caller.identify ps).eval v = (.ok ⟨team, c, q⟩, v'))
    (hid : Caller.pathId ps name = .ok (some id))
    (hrows : list v'.store id (c.extract p q).toFilter = .ok rows) :
    Handler.eval (do
      let c ← Caller.identify ps
      let id ← Handler.check (ps.id name)
      let rows ← Handler.load message fun s => list s id (c.filter p)
      return listed toJson rows) v = (.ok (listed toJson rows), v') := by
  rw [eval_bind_of_ok hcaller, Params.id_eq_ok_iff.2 hid, eval_bind_of_ok (eval_check _),
    eval_bind_of_ok (eval_load_of_ok hrows)]
  rfl

section Asked

variable (hsound : v.store.Sound) (hcoherent : v.Coherent) (hteam : v.store.HasTeam team)
variable (hnames : ps.Names team.id q)
include hsound hcoherent hteam hnames

/-- A team that is stored is identified, with the cache that a build gives it now. -/
theorem eval_identify : ∃ c v', (Caller.identify ps).eval v = (.ok ⟨team, c, q⟩, v') ∧
    v.store.buildCache team.id = .ok c ∧ v'.store = v.store := by
  obtain ⟨handle, hget, hbuild⟩ := hcoherent.exists_handle hsound team.id
  have hfound : v.store.team? team.id = .ok (some team) :=
    Store.team?_eq_some_iff.2 ⟨hteam, rfl⟩
  -- Each step of the handler gives what was found for it; only the cache's can change the service.
  refine ⟨handle.cache, (v.cache team.id).2, ?_, hbuild, rfl⟩
  unfold Caller.identify
  rw [hnames.texts, hnames.team, hnames.environment, hnames.tenant]
  dsimp only
  rw [eval_bind_of_ok (eval_check _)]
  dsimp only
  rw [eval_bind_of_ok (eval_find_of_some hfound),
    eval_bind_of_ok (eval_perform_of_ok (fun v => v.cache team.id) hget),
    eval_bind_of_ok (eval_check _), eval_bind_of_ok (eval_check _)]
  rfl

/-- The list of environments is answered. -/
theorem eval_listEnvironments :
    ∃ rows v', (listEnvironments ps).eval v = (.ok (listed Environment.toJson rows), v') ∧
      Enumerates Environment.id (fun e => v.store.HasEnvironment e ∧
        v.store.MayRead team.id .environmentRead (.environment e.id)) rows := by
  obtain ⟨c, v', hcaller, hbuild, hstore⟩ := eval_identify hsound hcoherent hteam hnames
  obtain ⟨rows, hrows, hexact⟩ := Store.enumerates_listEnvironments (q := q) hsound hbuild
  refine ⟨rows, v', ?_, hexact⟩
  unfold listEnvironments
  rw [eval_bind_of_ok hcaller, eval_bind_of_ok (eval_load_of_ok (hstore ▸ hrows))]
  rfl

/-- The list of an environment's tenants is answered. -/
theorem eval_listTenants {id : ResourceId} (hq : q.environment = some id) :
    ∃ rows v', (listTenants ps).eval v = (.ok (listed Tenant.toJson rows), v') ∧
      Enumerates Tenant.id (fun t => v.store.HasTenant t ∧ t.environment = id ∧
        v.store.MayRead team.id .tenantRead (.tenant t.id)) rows := by
  obtain ⟨c, v', hcaller, hbuild, hstore⟩ := eval_identify hsound hcoherent hteam hnames
  obtain ⟨rows, hrows, hexact⟩ := Store.enumerates_listTenants hsound hbuild hq
  have hid : Caller.pathId ps "environment_id" = .ok (some id) := by rw [hnames.environment, hq]
  exact ⟨rows, v', eval_listWithin Store.listTenants hcaller hid (hstore ▸ hrows), hexact⟩

/-- The list of a tenant's ODSs is answered. -/
theorem eval_listOdss {id : ResourceId} (hq : q.tenant = some id) :
    ∃ rows v', (listOdss ps).eval v = (.ok (listed Ods.toJson rows), v') ∧
      Enumerates Ods.id (fun o => v.store.HasOds o ∧ o.tenant = id ∧
        v.store.MayRead team.id .odsRead (.ods o.id)) rows := by
  obtain ⟨c, v', hcaller, hbuild, hstore⟩ := eval_identify hsound hcoherent hteam hnames
  obtain ⟨rows, hrows, hexact⟩ := Store.enumerates_listOdss hsound hbuild hq
  have hid : Caller.pathId ps "tenant_id" = .ok (some id) := by rw [hnames.tenant, hq]
  exact ⟨rows, v', eval_listWithin Store.listOdss hcaller hid (hstore ▸ hrows), hexact⟩

/-- The list of a tenant's organizations is answered. -/
theorem eval_listEdOrgs {id : ResourceId} (hq : q.tenant = some id) :
    ∃ rows v', (listEdOrgs ps).eval v = (.ok (listed EdOrg.toJson rows), v') ∧
      Enumerates EdOrg.id (fun x => v.store.HasEdOrg x ∧
        (∃ o, v.store.HasOds o ∧ o.id = x.ods ∧ o.tenant = id) ∧
        v.store.MayRead team.id .edOrgRead (.edOrg x.id)) rows := by
  obtain ⟨c, v', hcaller, hbuild, hstore⟩ := eval_identify hsound hcoherent hteam hnames
  obtain ⟨rows, hrows, hexact⟩ := Store.enumerates_listEdOrgs hsound hbuild hq
  have hid : Caller.pathId ps "tenant_id" = .ok (some id) := by rw [hnames.tenant, hq]
  exact ⟨rows, v', eval_listWithin Store.listEdOrgs hcaller hid (hstore ▸ hrows), hexact⟩

end Asked

/-! ## Paths of lists -/

/-- The segment of a path stands for an id. -/
def IsId (segment : List Char) (n : Int64) : Prop :=
  ∃ text, Percent.decode? segment = some text ∧ Decimal.readInt64? text.toList = some n

section Paths

variable {a b : List Char} {n m : Int64}

theorem names_team (ha : IsId a n) :
    Params.Names [("team_id", Percent.decode? a)] n ⟨none, none⟩ := by
  obtain ⟨text, htext, hn⟩ := ha
  rw [htext]
  exact ⟨rfl, by simp [Caller.pathId, hn], rfl, rfl⟩

theorem names_environment (ha : IsId a n) (hb : IsId b m) :
    Params.Names [("team_id", Percent.decode? a), ("environment_id", Percent.decode? b)] n
      ⟨some m, none⟩ := by
  obtain ⟨text, htext, hn⟩ := ha
  obtain ⟨text', htext', hm⟩ := hb
  rw [htext, htext']
  exact ⟨rfl, by simp [Caller.pathId, hn], by simp [Caller.pathId, List.lookup_cons, hm], rfl⟩

theorem names_tenant (ha : IsId a n) (hb : IsId b m) :
    Params.Names [("team_id", Percent.decode? a), ("tenant_id", Percent.decode? b)] n
      ⟨none, some m⟩ := by
  obtain ⟨text, htext, hn⟩ := ha
  obtain ⟨text', htext', hm⟩ := hb
  rw [htext, htext']
  exact ⟨rfl, by simp [Caller.pathId, hn], rfl, by simp [Caller.pathId, List.lookup_cons, hm]⟩

/-- The path of the environments that a team is shown. -/
def environmentsPath (team : List Char) : List (List Char) :=
  ["api".toList, "teams".toList, team, "sb-environments".toList]

/-- The path of the tenants of an environment. -/
def tenantsPath (team environment : List Char) : List (List Char) :=
  environmentsPath team ++ [environment, "edfi-tenants".toList]

/-- The path of something in a tenant. -/
def inTenantPath (team tenant : List Char) (what : String) : List (List Char) :=
  ["api".toList, "teams".toList, team, "edfi-tenants".toList, tenant, what.toList]

variable {target : String}

theorem findRoute_environments (h : pathSegments target = some (environmentsPath a)) :
    ∃ route, findRoute target = some (route, [("team_id", Percent.decode? a)]) ∧
      route.operation? .get = some .listEnvironments := by
  refine ⟨⟨teamPath [.lit "sb-environments"], [(.get, .listEnvironments)]⟩, ?_, rfl⟩
  rw [findRoute, h]
  cases a <;> rfl

theorem findRoute_tenants (h : pathSegments target = some (tenantsPath a b)) :
    ∃ route, findRoute target = some (route,
        [("team_id", Percent.decode? a), ("environment_id", Percent.decode? b)]) ∧
      route.operation? .get = some .listTenants := by
  refine ⟨⟨teamPath [.lit "sb-environments", .param "environment_id", .lit "edfi-tenants"],
    [(.get, .listTenants)]⟩, ?_, rfl⟩
  rw [findRoute, h]
  cases a <;> cases b <;> rfl

theorem findRoute_odss (h : pathSegments target = some (inTenantPath a b "odss")) :
    ∃ route, findRoute target = some (route,
        [("team_id", Percent.decode? a), ("tenant_id", Percent.decode? b)]) ∧
      route.operation? .get = some .listOdss := by
  refine ⟨⟨tenantPath [.lit "odss"], [(.get, .listOdss)]⟩, ?_, rfl⟩
  rw [findRoute, h]
  cases a <;> cases b <;> rfl

theorem findRoute_edOrgs (h : pathSegments target = some (inTenantPath a b "edorgs")) :
    ∃ route, findRoute target = some (route,
        [("team_id", Percent.decode? a), ("tenant_id", Percent.decode? b)]) ∧
      route.operation? .get = some .listEdOrgs := by
  refine ⟨⟨tenantPath [.lit "edorgs"], [(.get, .listEdOrgs)]⟩, ?_, rfl⟩
  rw [findRoute, h]
  cases a <;> cases b <;> rfl

end Paths

end Http

namespace Service

variable {v : Service} {r : Request}

section Route

variable {route : Route} {ps : Params} {op : Operation} {reply : Reply} {v' : Service}
variable (hroute : findRoute r.target = some (route, ps)) (hhead : r.method ≠ .head)
variable (hop : route.operation? r.method = some op)
include hroute hhead hop

/-- The reply of a route's operation is the reply, but to HEAD. -/
theorem answer_of_run (hrun : (op.handler ps r).run v = (reply, v')) :
    v.answer r = (reply, v') := by
  unfold answer
  rw [hroute]
  dsimp only
  rw [hop]
  dsimp only
  rw [hrun, if_neg hhead]

/-- What the operation of a route answers is what is answered. -/
theorem answer_of_eval (h : (op.handler ps r).eval v = (.ok reply, v')) :
    v.answer r = (reply, v') :=
  answer_of_run hroute hhead hop (run_of_ok h)

/-- What the operation of a route ends with is what is answered. -/
theorem answer_of_eval_error (h : (op.handler ps r).eval v = (.error reply, v')) :
    v.answer r = (reply, v') :=
  answer_of_run hroute hhead hop (run_of_error h)

end Route

/-- The reply to a request lists the rows with a property. -/
def Lists {α : Type} (v : Service) (r : Request) (toJson : α → Json) (id : α → ResourceId)
    (P : α → Prop) : Prop :=
  ∃ rows, (v.answer r).1 = listed toJson rows ∧ Enumerates id P rows

/-- Where one row has the property, the reply lists that row. -/
theorem Lists.eq_listed {α : Type} {v : Service} {r : Request} {toJson : α → Json}
    {id : α → ResourceId} {P : α → Prop} (h : v.Lists r toJson id P) {a : α}
    (ha : ∀ b, P b ↔ b = a) : (v.answer r).1 = listed toJson [a] := by
  obtain ⟨rows, hreply, hrows⟩ := h
  rw [hreply, hrows.eq_singleton ha]

section Exact

variable {mode : CacheMode} (hv : Served mode v) {team : Team} (hteam : v.store.HasTeam team)
variable (hget : r.method = .get) {a : List Char} (ha : IsId a team.id)
include hv hteam hget ha

/-- A stored team is listed the environments that it may read. -/
theorem lists_environments (hpath : pathSegments r.target = some (environmentsPath a)) :
    v.Lists r Environment.toJson Environment.id fun e => v.store.HasEnvironment e ∧
      v.store.MayRead team.id .environmentRead (.environment e.id) := by
  have hhead : r.method ≠ .head := by simp [hget]
  obtain ⟨route, hroute, hop⟩ := findRoute_environments hpath
  rw [← hget] at hop
  obtain ⟨rows, v', heval, hexact⟩ :=
    eval_listEnvironments hv.sound hv.coherent hteam (names_team ha)
  exact ⟨rows, by rw [answer_of_eval hroute hhead hop heval], hexact⟩

variable {b : List Char} {n : ResourceId} (hb : IsId b n)
include hb

/-- The tenants of an environment that it may read. -/
theorem lists_tenants (hpath : pathSegments r.target = some (tenantsPath a b)) :
    v.Lists r Tenant.toJson Tenant.id fun t => v.store.HasTenant t ∧ t.environment = n ∧
      v.store.MayRead team.id .tenantRead (.tenant t.id) := by
  have hhead : r.method ≠ .head := by simp [hget]
  obtain ⟨route, hroute, hop⟩ := findRoute_tenants hpath
  rw [← hget] at hop
  obtain ⟨rows, v', heval, hexact⟩ :=
    eval_listTenants hv.sound hv.coherent hteam (names_environment ha hb) rfl
  exact ⟨rows, by rw [answer_of_eval hroute hhead hop heval], hexact⟩

/-- The ODSs of a tenant. -/
theorem lists_odss (hpath : pathSegments r.target = some (inTenantPath a b "odss")) :
    v.Lists r Ods.toJson Ods.id fun o => v.store.HasOds o ∧ o.tenant = n ∧
      v.store.MayRead team.id .odsRead (.ods o.id) := by
  have hhead : r.method ≠ .head := by simp [hget]
  obtain ⟨route, hroute, hop⟩ := findRoute_odss hpath
  rw [← hget] at hop
  obtain ⟨rows, v', heval, hexact⟩ :=
    eval_listOdss hv.sound hv.coherent hteam (names_tenant ha hb) rfl
  exact ⟨rows, by rw [answer_of_eval hroute hhead hop heval], hexact⟩

/-- And the organizations in any ODS of a tenant. -/
theorem lists_edOrgs (hpath : pathSegments r.target = some (inTenantPath a b "edorgs")) :
    v.Lists r EdOrg.toJson EdOrg.id fun x => v.store.HasEdOrg x ∧
      (∃ o, v.store.HasOds o ∧ o.id = x.ods ∧ o.tenant = n) ∧
      v.store.MayRead team.id .edOrgRead (.edOrg x.id) := by
  have hhead : r.method ≠ .head := by simp [hget]
  obtain ⟨route, hroute, hop⟩ := findRoute_edOrgs hpath
  rw [← hget] at hop
  obtain ⟨rows, v', heval, hexact⟩ :=
    eval_listEdOrgs hv.sound hv.coherent hteam (names_tenant ha hb) rfl
  exact ⟨rows, by rw [answer_of_eval hroute hhead hop heval], hexact⟩

end Exact

/-- **Lists are exact.** Whatever a service was asked before, a stored team that asks for one of the
four lists gets it, and it has each row of its place that the team may read, once and in ascending
order of ids, and no other. -/
theorem lists_exactly {mode : CacheMode} (hv : Served mode v) {team : Team}
    (hteam : v.store.HasTeam team) (hget : r.method = .get) {a : List Char}
    (ha : IsId a team.id) :
    (pathSegments r.target = some (environmentsPath a) →
      v.Lists r Environment.toJson Environment.id fun e => v.store.HasEnvironment e ∧
        v.store.MayRead team.id .environmentRead (.environment e.id)) ∧
    ∀ b n, IsId b n →
      (pathSegments r.target = some (tenantsPath a b) →
        v.Lists r Tenant.toJson Tenant.id fun t => v.store.HasTenant t ∧ t.environment = n ∧
          v.store.MayRead team.id .tenantRead (.tenant t.id)) ∧
      (pathSegments r.target = some (inTenantPath a b "odss") →
        v.Lists r Ods.toJson Ods.id fun o => v.store.HasOds o ∧ o.tenant = n ∧
          v.store.MayRead team.id .odsRead (.ods o.id)) ∧
      (pathSegments r.target = some (inTenantPath a b "edorgs") →
        v.Lists r EdOrg.toJson EdOrg.id fun x => v.store.HasEdOrg x ∧
          (∃ o, v.store.HasOds o ∧ o.id = x.ods ∧ o.tenant = n) ∧
          v.store.MayRead team.id .edOrgRead (.edOrg x.id)) := by
  refine ⟨fun hpath => ?_, fun b n hb => ⟨fun hpath => ?_, fun hpath => ?_, fun hpath => ?_⟩⟩
  · exact lists_environments hv hteam hget ha hpath
  · exact lists_tenants hv hteam hget ha hb hpath
  · exact lists_odss hv hteam hget ha hb hpath
  · exact lists_edOrgs hv hteam hget ha hb hpath

/-- **What the team may read**: its ODS, what that lies in and the one organization in it, but not
the twin. -/
theorem Twins.mayRead_iff {s : Store} (h : Twins s) (hsound : s.Sound) (p : Privilege)
    {r : ResourceRef} : s.MayRead 1 p r ↔
      r = .environment 1 ∨ r = .tenant 2 ∨ r = .ods 3 ∨ r = .edOrg 5 := by
  have hin : s.OdsIn ⟨3, 2, "Main", none⟩ ⟨2, 1, "North"⟩ ⟨1, "East", .v1⟩ :=
    ⟨h.ods, rfl, h.tenantIn⟩
  have hschool : (∃ x, s.HasEdOrg x ∧ x.ods = 3 ∧ r = .edOrg x.id) ↔ r = .edOrg 5 := by
    constructor
    · rintro ⟨x, hx, hods, rfl⟩
      rcases h.edOrgs x hx with rfl | rfl
      · rfl
      · exact absurd hods (by decide)
    · rintro rfl
      exact ⟨school 5 3, h.main.1, rfl, rfl⟩
  simp only [Store.MayRead, (h.owned p).holds_iff, exists_eq_left, hsound.covers_ods_iff hin,
    hschool]

/-- Of environments that is the one that its ODS lies in. -/
theorem Twins.reads_environment_iff {s : Store} (h : Twins s) (hsound : s.Sound)
    (e : Environment) :
    s.HasEnvironment e ∧ s.MayRead 1 .environmentRead (.environment e.id) ↔
      e = ⟨1, "East", .v1⟩ := by
  rw [h.mayRead_iff hsound]
  constructor
  · rintro ⟨he, hread⟩
    have hid : e.id = 1 := by simpa using hread
    exact he.unique h.tenantIn.hasEnvironment hid
  · rintro rfl
    exact ⟨h.tenantIn.hasEnvironment, .inl rfl⟩

/-- A request to read. -/
def ask (target : String) : Request := ⟨.get, target, "", none⟩

/-- A team that was given one of two ODSs, with an organization in each, is listed its own ODS, the
organization in that, and the tenant and the environment that it lies in. -/
theorem wardens_get_lists : Served .shared twinned ∧ twinned.store.HasTeam ⟨1, "Wardens"⟩ ∧
    twinned.store.HasEdOrgIn ⟨2, 1, "North"⟩ (school 6 4) ∧
    (twinned.answer (ask "/api/teams/1/sb-environments")).1 =
      listed Environment.toJson [⟨1, "East", .v1⟩] ∧
    (twinned.answer (ask "/api/teams/1/sb-environments/1/edfi-tenants")).1 =
      listed Tenant.toJson [⟨2, 1, "North"⟩] ∧
    (twinned.answer (ask "/api/teams/1/edfi-tenants/2/odss")).1 =
      listed Ods.toJson [⟨3, 2, "Main", none⟩] ∧
    (twinned.answer (ask "/api/teams/1/edfi-tenants/2/edorgs")).1 =
      listed EdOrg.toJson [school 5 3] := by
  obtain ⟨hserved, htwins⟩ := twinned_spec
  have hone : IsId ['1'] 1 := ⟨"1", by decide, by decide⟩
  have htwo : IsId ['2'] 2 := ⟨"2", by decide, by decide⟩
  have hmay (p : Privilege) {r : ResourceRef} := htwins.mayRead_iff hserved.sound p (r := r)
  have hlists {target : String} := lists_exactly hserved htwins.team (r := ask target) rfl hone
  refine ⟨hserved, htwins.team, htwins.annex, ?environments, ?tenants, ?odss, ?edOrgs⟩
  case environments =>
    exact (hlists.1 (by decide)).eq_listed fun e => htwins.reads_environment_iff hserved.sound e
  case tenants =>
    refine ((hlists.2 ['1'] 1 hone).1 (by decide)).eq_listed fun t => ?_
    constructor
    · rintro ⟨ht, -, hread⟩
      have hid : t.id = 2 := by simpa using (hmay _).1 hread
      exact ht.unique htwins.tenantIn.hasTenant hid
    · rintro rfl
      exact ⟨htwins.tenantIn.hasTenant, rfl, (hmay _).2 (.inr (.inl rfl))⟩
  case odss =>
    refine ((hlists.2 ['2'] 2 htwo).2.1 (by decide)).eq_listed fun o => ?_
    constructor
    · rintro ⟨ho, -, hread⟩
      have hid : o.id = 3 := by simpa using (hmay _).1 hread
      exact ho.unique htwins.ods hid
    · rintro rfl
      exact ⟨htwins.ods, rfl, (hmay _).2 (.inr (.inr (.inl rfl)))⟩
  case edOrgs =>
    refine ((hlists.2 ['2'] 2 htwo).2.2 (by decide)).eq_listed fun x => ?_
    constructor
    · rintro ⟨hx, -, hread⟩
      have hid : x.id = 5 := by simpa using (hmay _).1 hread
      exact hx.unique htwins.main.1 hid
    · rintro rfl
      exact ⟨htwins.main.1, ⟨_, htwins.ods, rfl, rfl⟩, (hmay _).2 (.inr (.inr (.inr rfl)))⟩

end Service

end TeamAccess
