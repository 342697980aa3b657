import TeamAccess.Proofs.Answers
import TeamAccess.Proofs.Keeping
import TeamAccess.Proofs.Needs

/-!
# Denials — what a team is told when its cache cannot be built

A team whose cache cannot be built is denied: every operation of teams first asks for the cache, and
ends there with status 500 and no data. A failed build keeps nothing, so the next request builds
anew, and once everything can be read the team gets the whole cache. What comes before the cache is
the path: a parameter that is no text is refused as such, whatever the build would have done.
-/

namespace TeamAccess

namespace Registry

variable {r : Registry} {s : Store} {team : TeamId}

/-- No cache of the team is kept. -/
def KeepsNone (r : Registry) (team : TeamId) : Prop := ∀ h, r.slots.get? team ≠ some (some h)

theorem keepsNone_iff : r.KeepsNone team ↔ r.kept? team = none := by
  simp only [KeepsNone, Option.eq_none_iff_forall_ne_some, ne_eq, kept?_eq_some_iff]

/-- **A failed build keeps nothing.** -/
theorem get_of_fault (h : r.KeepsNone team) {e : Fault} (hbuild : s.buildCache team = .error e) :
    (r.get s team).1 = .error e ∧ (r.get s team).2.KeepsNone team := by
  rw [keepsNone_iff] at h ⊢
  have hfault : (r.get s team).1 = .error e := by
    rw [get_of_not_kept h, build, hbuild]
    rfl
  refine ⟨hfault, ?_⟩
  cases hmode : r.mode with
  | perRequest => rwa [kept?, slots_get hmode]
  | shared =>
    rw [kept?_get hmode, if_pos rfl, hfault]
    rfl

/-- A build that succeeds is handed out, and kept in shared mode. -/
theorem get_of_build (h : r.KeepsNone team) {c : Cache} (hbuild : s.buildCache team = .ok c) :
    (r.get s team).1 = .ok ⟨r.builds, c⟩ ∧
      (r.mode = .shared → (r.get s team).2.slots.get? team = some (some ⟨r.builds, c⟩)) := by
  rw [keepsNone_iff] at h
  have hhandle : (r.get s team).1 = .ok ⟨r.builds, c⟩ := by
    rw [get_of_not_kept h, build, hbuild]
    rfl
  refine ⟨hhandle, fun hmode => ?_⟩
  rw [← kept?_eq_some_iff, kept?_get hmode, if_pos rfl, hhandle]
  rfl

end Registry

open Http Handler

namespace Http

variable {α β : Type} {v : Service} {team : Team} {ps : Params} {r : Request} {op : Operation}

/-! ## Handlers that leave the service -/

/-- The handler leaves the service as it was, however it ends. -/
def Handler.Leaves (h : Handler α) : Prop := ∀ v, (h.eval v).2 = v

namespace Handler.Leaves

theorem pure (a : α) : Leaves (pure a) := fun _ => rfl

theorem throw (e : Reply) : Leaves (throw e : Handler α) := fun _ => rfl

theorem check (x : Except Reply α) : Leaves (check x) := fun _ => rfl

theorem load (message : String) (query : Store → Except Fault α) : Leaves (load message query) :=
  fun _ => rfl

/-- What follows a handler and leaves the service leaves what the handler left. -/
theorem eval_bind_snd {h : Handler α} {f : α → Handler β} (hf : ∀ a, Leaves (f a)) (v : Service) :
    ((h >>= f).eval v).2 = (h.eval v).2 := by
  rcases heval : h.eval v with ⟨e | a, v'⟩
  · rw [eval_bind_of_error heval]
  · rw [eval_bind_of_ok heval, hf]

theorem bind {h : Handler α} {f : α → Handler β} (hh : Leaves h) (hf : ∀ a, Leaves (f a)) :
    Leaves (h >>= f) := fun v => (eval_bind_snd hf v).trans (hh v)

theorem find (failed missing : String) (query : Store → Except Fault (Option α)) :
    Leaves (find failed missing query) := by
  refine .bind (.load _ _) fun found => ?_
  cases found with
  | none => exact .throw _
  | some a => exact .pure a

end Handler.Leaves

/-! ## Operations of teams -/

/-- The operation is one that a team asks for. -/
def Operation.IsTeams : Operation → Prop
  | .authorizationCache | .listEnvironments | .listTenants | .listOdss | .listEdOrgs
  | .checkApplication => True
  | _ => False

/-- **Every operation of teams begins with who asks**, and the rest of it only reads. -/
theorem exists_handler_eq (hop : op.IsTeams) : ∃ f : Caller → Handler Reply,
    op.handler ps r = Caller.identify ps >>= f ∧ ∀ c, Leaves (f c) := by
  cases op with
  | authorizationCache => exact ⟨_, rfl, fun _ => .pure _⟩
  | listEnvironments => exact ⟨_, rfl, fun _ => .bind (.load _ _) fun _ => .pure _⟩
  | listTenants | listOdss | listEdOrgs =>
    exact ⟨_, rfl, fun _ => .bind (.check _) fun _ => .bind (.load _ _) fun _ => .pure _⟩
  | checkApplication =>
    refine ⟨_, rfl, fun _ => .bind (.check _) fun _ => .bind (.check _) fun _ => ?_⟩
    exact .bind (.find _ _ _) fun _ => .bind (.find _ _ _) fun _ => .bind (.check _) fun _ =>
      .pure _
  | _ => exact hop.elim

/-- The parameters are texts, and the team's is its id. -/
structure Params.Reads (ps : Params) (team : TeamId) : Prop where
  texts : ps.find? (fun p => p.2.isNone) = none
  team : Caller.pathId ps "team_id" = .ok (some team)

/-- **The request is for an operation of the team**: its path and its method lead to one, and the
parameters of the path can be read. -/
def Request.AsksFor (r : Request) (team : TeamId) (op : Operation) : Prop :=
  op.IsTeams ∧ ∃ route ps, findRoute r.target = some (route, ps) ∧
    route.operation? r.method = some op ∧ ps.Reads team

section Asked

variable (hteam : v.store.HasTeam team) (hps : ps.Reads team.id)
include hteam hps

/-- Once the team is found its cache is asked for. -/
theorem eval_identify_eq : (Caller.identify ps).eval v = Handler.eval (do
    let handle ← Handler.perform
      (fun _ => .error 500 "Failed to load authorization cache") fun v => v.cache team.id
    let environment ← Handler.check (Caller.pathId ps "environment_id")
    let tenant ← Handler.check (Caller.pathId ps "tenant_id")
    return ⟨team, handle.cache, ⟨environment, tenant⟩⟩) v := by
  have hfound : v.store.team? team.id = .ok (some team) :=
    Store.team?_eq_some_iff.2 ⟨hteam, rfl⟩
  unfold Caller.identify
  rw [hps.texts, hps.team]
  dsimp only
  rw [eval_bind_of_ok (eval_check _)]
  dsimp only
  rw [eval_bind_of_ok (eval_find_of_some hfound)]

/-- However the rest of the path reads, the service is left as the cache's look-up left it. -/
theorem eval_identify_snd : ((Caller.identify ps).eval v).2 = (v.cache team.id).2 := by
  rw [eval_identify_eq hteam hps]
  refine Leaves.eval_bind_snd (fun _ => ?_) v
  exact .bind (.check _) fun _ => .bind (.check _) fun _ => .pure _

/-- **Without a cache there is no caller.** -/
theorem eval_identify_of_fault {e : Fault} (hfault : (v.cache team.id).1 = .error e) :
    (Caller.identify ps).eval v =
      (.error (.error 500 "Failed to load authorization cache"), (v.cache team.id).2) := by
  have hperform : (Handler.perform (fun _ => .error 500 "Failed to load authorization cache")
      fun v => v.cache team.id).eval v =
        (.error (.error 500 "Failed to load authorization cache"), (v.cache team.id).2) := by
    rw [eval_perform, hfault]
    rfl
  rw [eval_identify_eq hteam hps, eval_bind_of_error hperform]

end Asked

/-- **A team whose row cannot be read is no caller either.** -/
theorem eval_identify_of_unread {id : TeamId} (hps : ps.Reads id) {e : Fault}
    (hfault : v.store.team? id = .error e) :
    (Caller.identify ps).eval v = (.error (.error 500 "Failed to get team"), v) := by
  have hload : (Handler.load "Failed to get team" fun s => s.team? id).eval v =
      (.error (.error 500 "Failed to get team"), v) := by
    rw [eval_load, hfault]
    rfl
  unfold Caller.identify
  rw [hps.texts, hps.team]
  dsimp only
  rw [eval_bind_of_ok (eval_check _)]
  dsimp only
  rw [eval_bind_of_error (by rw [find, eval_bind_of_error hload])]

/-! ## The path of a team's cache -/

/-- The name of a parameter. -/
def Segment.name? : Segment → Option String
  | .lit _ => none
  | .param name => some name

/-- A path that matches has just the parameters of the route. -/
theorem names_of_matchPath {route : List Segment} {path : List (List Char)}
    (h : matchPath route path = some ps) : ps.map Prod.fst = route.filterMap Segment.name? := by
  induction route generalizing path ps with
  | nil =>
    cases path with
    | nil =>
      cases h
      rfl
    | cons _ _ => cases h
  | cons part route ih =>
    cases path with
    | nil => cases part <;> cases h
    | cons seg path =>
      cases part with
      | lit text =>
        rw [matchPath] at h
        split at h
        · exact ih h
        · cases h
      | param name =>
        rw [matchPath] at h
        split at h
        · cases h
        · obtain ⟨rest, hrest, rfl⟩ := Option.map_eq_some_iff.1 h
          simp [ih hrest, Segment.name?]

/-- A request for a team's cache names the team and no scope. -/
theorem names_of_authorizationCache {target : String} {route : Route} {m : Method}
    (hroute : findRoute target = some (route, ps))
    (hop : route.operation? m = some .authorizationCache) : ps.map Prod.fst = ["team_id"] := by
  obtain ⟨path, -, hfound⟩ := Option.bind_eq_some_iff.1 hroute
  obtain ⟨found, hmem, hmatch⟩ := List.exists_of_findSome?_eq_some hfound
  obtain ⟨_, hps, heq⟩ := Option.map_eq_some_iff.1 hmatch
  obtain ⟨rfl, rfl⟩ := Prod.mk.inj heq
  rw [names_of_matchPath hps]
  -- Of all routes only that of the cache offers it.
  have hall : ∀ route ∈ routes, .authorizationCache ∈ route.operations.map Prod.snd →
      route.path.filterMap Segment.name? = ["team_id"] := by decide
  refine hall _ hmem ?_
  obtain ⟨l₁, l₂, hoperations, -⟩ := List.lookup_eq_some_iff.1 hop
  rw [hoperations]
  simp

/-- **A caller of its own cache is shown it.** -/
theorem eval_authorizationCache {target : String} {route : Route} {m : Method}
    (hteam : v.store.HasTeam team) (hps : ps.Reads team.id)
    (hroute : findRoute target = some (route, ps))
    (hop : route.operation? m = some .authorizationCache) {handle : Handle}
    (hhandle : (v.cache team.id).1 = .ok handle) : (authorizationCache ps).eval v =
      (.ok (.data 200 handle.cache.toJson), (v.cache team.id).2) := by
  have hnames := names_of_authorizationCache hroute hop
  have hnone (name : String) (hne : name ≠ "team_id") : Caller.pathId ps name = .ok none := by
    have hlookup : ps.lookup name = none := by
      refine List.lookup_eq_none_iff.2 fun p hp => ?_
      have hmem : p.1 ∈ ps.map Prod.fst := List.mem_map_of_mem hp
      rw [hnames, List.mem_singleton] at hmem
      simpa [hmem] using hne
    rw [Caller.pathId, hlookup]
  have hcaller : (Caller.identify ps).eval v =
      (.ok ⟨team, handle.cache, ⟨none, none⟩⟩, (v.cache team.id).2) := by
    rw [eval_identify_eq hteam hps, hnone "environment_id" (by decide),
      hnone "tenant_id" (by decide),
      eval_bind_of_ok (eval_perform_of_ok (fun v => v.cache team.id) hhandle),
      eval_bind_of_ok (eval_check _), eval_bind_of_ok (eval_check _)]
    rfl
  rw [authorizationCache, eval_bind_of_ok hcaller]
  rfl

end Http

namespace Service

variable {v : Service} {team : Team} {r : Request} {op : Operation}

/-- The reply to a request is that of its operation, and to HEAD only the status of it. -/
theorem answer_eq {route : Route} {ps : Params} (hroute : findRoute r.target = some (route, ps))
    (hop : route.operation? r.method = some op) : v.answer r =
      (if r.method = .head then ⟨((op.handler ps r).run v).1.status, .text ""⟩
        else ((op.handler ps r).run v).1, ((op.handler ps r).run v).2) := by
  unfold answer
  rw [hroute]
  dsimp only
  rw [hop]
  dsimp only
  split <;> rfl

/-- **Without a caller the request is denied**, and nothing happens but what happened until then. -/
theorem answer_of_identify {id : TeamId} {message : String} {v' : Service}
    (hasks : r.AsksFor id op) (hidentify : ∀ ps : Params, ps.Reads id →
      (Caller.identify ps).eval v = (.error (.error 500 message), v')) : v.answer r =
      (if r.method = .head then ⟨500, .text ""⟩ else .error 500 message, v') := by
  obtain ⟨hop, route, ps, hroute, hmethod, hps⟩ := hasks
  obtain ⟨f, hf, -⟩ : ∃ f, op.handler ps r = Caller.identify ps >>= f ∧ ∀ c, Leaves (f c) :=
    exists_handler_eq hop
  have hrun : (op.handler ps r).run v = (.error 500 message, v') := by
    rw [hf]
    exact run_of_error (eval_bind_of_error (hidentify ps hps))
  rw [answer_eq hroute hmethod, hrun]
  rfl

/-- A team without a cache is denied. -/
theorem answer_of_fault (hteam : v.store.HasTeam team) (hasks : r.AsksFor team.id op) {e : Fault}
    (hfault : (v.cache team.id).1 = .error e) : v.answer r =
      (if r.method = .head then ⟨500, .text ""⟩
        else .error 500 "Failed to load authorization cache", (v.cache team.id).2) :=
  answer_of_identify hasks fun _ hps => eval_identify_of_fault hteam hps hfault

/-- An operation of a team does nothing to the service but to ask for the team's cache. -/
theorem answer_snd_of_asksFor (hteam : v.store.HasTeam team) (hasks : r.AsksFor team.id op) :
    (v.answer r).2 = (v.cache team.id).2 := by
  obtain ⟨hop, route, ps, hroute, hmethod, hps⟩ := hasks
  obtain ⟨f, hf, hleaves⟩ : ∃ f, op.handler ps r = Caller.identify ps >>= f ∧ ∀ c, Leaves (f c) :=
    exists_handler_eq hop
  rw [answer_snd hroute hmethod, hf, Leaves.eval_bind_snd hleaves, eval_identify_snd hteam hps]

/-- A team that asks for its cache is shown it. -/
theorem answer_authorizationCache (hteam : v.store.HasTeam team)
    (hasks : r.AsksFor team.id .authorizationCache) (hget : r.method = .get) {handle : Handle}
    (hhandle : (v.cache team.id).1 = .ok handle) :
    (v.answer r).1 = .data 200 handle.cache.toJson := by
  obtain ⟨-, route, ps, hroute, hmethod, hps⟩ := hasks
  have heval := eval_authorizationCache hteam hps hroute hmethod hhandle
  have hrun : (Operation.authorizationCache.handler ps r).run v =
      (.data 200 handle.cache.toJson, (v.cache team.id).2) := run_of_ok heval
  rw [answer_eq hroute hmethod, hrun, hget]
  rfl

/-- **A build that fails denies, and keeps nothing.** On whatever store, a build of a team's cache
succeeds just if all can be read that it needs. If it does not, and no cache of the team is kept,
every request of the team is answered with status 500 and no data, the store stays, and still no
cache is kept; once the store is one on which the build succeeds, the next request of the team is
served from the whole cache. A team whose own row cannot be read is denied before any build. -/
theorem denies_until_buildable (v : Service) (team : Team) :
    ((∃ c, v.store.buildCache team.id = .ok c) ↔ v.store.Buildable team.id) ∧
      ((∃ e, v.store.buildCache team.id = .error e) ↔ ¬ v.store.Buildable team.id) ∧
      (∀ e, v.store.team? team.id = .error e → ∀ r op, r.AsksFor team.id op → v.answer r =
        (if r.method = .head then ⟨500, .text ""⟩ else .error 500 "Failed to get team", v)) ∧
      (v.store.HasTeam team → v.registry.KeepsNone team.id → ¬ v.store.Buildable team.id →
        ∀ r op, r.AsksFor team.id op →
          (v.answer r).1 = (if r.method = .head then ⟨500, .text ""⟩
            else .error 500 "Failed to load authorization cache") ∧
          (v.answer r).2.store = v.store ∧ (v.answer r).2.registry.KeepsNone team.id ∧
          ∀ w : Service, w.registry = (v.answer r).2.registry → w.store.HasTeam team →
            w.store.Buildable team.id → ∃ handle, w.store.buildCache team.id = .ok handle.cache ∧
              (w.cache team.id).1 = .ok handle ∧ ∀ r' op', r'.AsksFor team.id op' →
                (w.answer r').2 = (w.cache team.id).2 ∧
                (v.registry.mode = .shared →
                  (w.answer r').2.registry.slots.get? team.id = some (some handle)) ∧
                (op' = .authorizationCache → r'.method = .get →
                  (w.answer r').1 = .data 200 handle.cache.toJson)) := by
  have hbuilds : Succeeds (v.store.buildCache team.id) ↔ v.store.Buildable team.id :=
    Store.succeeds_buildCache_iff
  have hfails : (∃ e, v.store.buildCache team.id = .error e) ↔ ¬ v.store.Buildable team.id := by
    rw [← hbuilds]
    cases v.store.buildCache team.id with
    | error e => simp [Succeeds]
    | ok c => simp [Succeeds]
  refine ⟨hbuilds, hfails, fun e hfault r op hasks => ?_, fun hteam hnone hnot r op hasks => ?_⟩
  · exact answer_of_identify hasks fun _ hps => eval_identify_of_unread hps hfault
  obtain ⟨e, hbuild⟩ := hfails.2 hnot
  obtain ⟨hfault, hkept⟩ := Registry.get_of_fault hnone hbuild
  rw [answer_of_fault hteam hasks hfault]
  refine ⟨rfl, rfl, hkept, fun w hregistry hwteam hwbuildable => ?_⟩
  obtain ⟨c, hc⟩ := Store.succeeds_buildCache_iff.2 hwbuildable
  have hwnone : w.registry.KeepsNone team.id := hregistry ▸ hkept
  obtain ⟨hhandle, hslot⟩ := Registry.get_of_build hwnone hc
  refine ⟨⟨w.registry.builds, c⟩, hc, hhandle, fun r' op' hasks' => ?_⟩
  have hleft := answer_snd_of_asksFor hwteam hasks'
  have hmode : w.registry.mode = v.registry.mode := hregistry ▸ Registry.mode_get
  refine ⟨hleft, fun hshared => hleft ▸ hslot (hmode.trans hshared), ?_⟩
  rintro rfl hget
  exact answer_authorizationCache hwteam hasks' hget hhandle

/-! ## Damaged stores -/

/-- A store with one team, and maybe with ownerships. -/
def wardensWith (ownerships : Option (Numbered OwnershipRow.id)) : Store where
  now := .epoch
  environments := some Index.empty
  tenants := some Index.empty
  odss := some Index.empty
  edOrgs := some Index.empty
  closure := some Index.empty
  teams := some ⟨Index.single ⟨1, "Wardens"⟩, 1⟩
  roles := some .empty
  privileges := some Index.empty
  ownerships := ownerships

theorem hasTeam_wardensWith (ownerships : Option (Numbered OwnershipRow.id)) :
    (wardensWith ownerships).HasTeam ⟨1, "Wardens"⟩ :=
  ⟨_, rfl, Index.mem_single.2 rfl⟩

/-- Without the table of ownerships nothing can be built. -/
theorem not_buildable_wardensWith_none : ¬ (wardensWith none).Buildable 1 := by
  rintro ⟨⟨t, ht, -⟩, -, -⟩
  cases ht

/-- A request for the environments of the first team. -/
def listing (m : Method) : Request := ⟨m, "/api/teams/1/sb-environments", "", none⟩

theorem listing_asksFor : (listing .get).AsksFor 1 .listEnvironments := by
  have hpath : pathSegments "/api/teams/1/sb-environments" =
      some ["api".toList, "teams".toList, "1".toList, "sb-environments".toList] := by
    decide +kernel
  have hroute : findRoute (listing .get).target =
      some (⟨teamPath [.lit "sb-environments"], [(.get, .listEnvironments)]⟩,
        [("team_id", some "1")]) := by
    rw [findRoute, listing, hpath]
    rfl
  exact ⟨trivial, _, _, hroute, rfl, ⟨rfl, rfl⟩⟩

/-- The team is denied while the table of ownerships is missing, and served once it is there. -/
theorem wardens_denied_until_mended :
    ((start (wardensWith none) .shared).answer (listing .get)).1 =
        .error 500 "Failed to load authorization cache" ∧
      ∃ handle, (Service.answer ⟨wardensWith (some .empty),
          ((start (wardensWith none) .shared).answer (listing .get)).2.registry⟩
          (listing .get)).2.registry.slots.get? 1 = some (some handle) := by
  obtain ⟨-, -, -, hdenied⟩ :=
    denies_until_buildable (start (wardensWith none) .shared) ⟨1, "Wardens"⟩
  have hnone : (start (wardensWith none) .shared).registry.KeepsNone 1 := by
    intro handle hslot
    cases hslot
  obtain ⟨hreply, -, -, hmended⟩ := hdenied (hasTeam_wardensWith none) hnone
    not_buildable_wardensWith_none (listing .get) _ listing_asksFor
  have hbuildable : (wardensWith (some .empty)).Buildable 1 :=
    Store.succeeds_buildCache_iff.1 ⟨_, rfl⟩
  obtain ⟨handle, -, -, hserved⟩ :=
    hmended ⟨wardensWith (some .empty), _⟩ rfl (hasTeam_wardensWith _) hbuildable
  exact ⟨hreply, handle, (hserved _ _ listing_asksFor).2.1 rfl⟩

/-- A role's row that is there, with the codes of the catalog, but with a team that is no number. -/
def withTornRole : Store :=
  { wardensWith (some ⟨Index.single ⟨1, .int 1, .int 2, "global", none, some "today"⟩, 1⟩) with
    roles := some ⟨Index.single ⟨2, "Reader", some (.text "none")⟩, 2⟩
    privileges := some (Index.single ⟨.int 2, "team.sb-environment:read"⟩) }

/-- A request for the ODSs of a tenant whose id is no text. -/
def unreadable : Request := ⟨.get, "/api/teams/1/edfi-tenants/%FF/odss", "", none⟩

/-- **A row that is there is not yet one that can be read, and a path comes before the cache.** For
the first, a role is stored and has only codes of the catalog, the one ownership that it is given by
can be read and needs nothing, and the build fails all the same. For the second, a team's build
fails and no cache is kept, and yet an operation of the team is answered with another status. -/
theorem torn_role_and_unreadable_path :
    ((∃ t, withTornRole.roles = some t ∧ t.rows.hasKey 2 = true) ∧
      (∃ os, withTornRole.listOwnerships 1 = .ok os ∧ ∀ o ∈ os, o.role = 2 ∧ o.resource = .global) ∧
      Store.Filled withTornRole.privileges (fun p => ∃ q : Privilege, p.code = .text q.code) ∧
      withTornRole.buildCache 1 = .error .storage) ∧
    (wardensWith none).HasTeam ⟨1, "Wardens"⟩ ∧
      (start (wardensWith none) .shared).registry.KeepsNone 1 ∧
      (wardensWith none).buildCache 1 = .error .storage ∧
      (∃ route ps, findRoute unreadable.target = some (route, ps) ∧
        route.operation? unreadable.method = some .listOdss ∧
        Caller.pathId ps "team_id" = .ok (some 1)) ∧
      ((start (wardensWith none) .shared).answer unreadable).1.status = 400 := by
  have hpath : pathSegments "/api/teams/1/edfi-tenants/%FF/odss" =
      some ["api".toList, "teams".toList, "1".toList, "edfi-tenants".toList, "%FF".toList,
        "odss".toList] := by
    decide +kernel
  have hdecode : Percent.decode? "%FF".toList = none := by decide +kernel
  have hroute : findRoute unreadable.target =
      some (⟨tenantPath [.lit "odss"], [(.get, .listOdss)]⟩,
        [("team_id", some "1"), ("tenant_id", none)]) := by
    rw [findRoute, unreadable, hpath, ← hdecode]
    rfl
  refine ⟨⟨⟨_, rfl, by decide⟩, ⟨_, rfl, by decide⟩, ⟨_, rfl, ?_⟩, rfl⟩, hasTeam_wardensWith none,
    fun _ hslot => ?_, rfl, ⟨_, _, hroute, rfl, rfl⟩, ?_⟩
  · intro p hp
    obtain rfl := Index.mem_single.1 hp
    exact ⟨.environmentRead, rfl⟩
  · cases hslot
  · rw [answer_eq hroute rfl]
    rfl

end Service

end TeamAccess
