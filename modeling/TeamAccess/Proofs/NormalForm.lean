import TeamAccess.Proofs.Merging
import TeamAccess.Proofs.Scopes

/-!
# NormalForm — the form that grants leave a cache in

A cache is compared and written as it is stored, and a privilege without an entry is the only form
of no access. So a cache has a normal form (`Cache.Normal`): its entries have the shapes of their
privileges, nothing in it is empty, neither an entry nor the set of a scope, an entry of everything
names no scopes, and its sets list only keys of the kind that their privilege is about. The grants
of an expansion may add nothing, as that of an ODS without organizations does, and the entry is
there before it is known whether they do; still each of them leaves a normal cache normal
(`Cache.Normal.grant`). What an expansion grants has the shape of the privilege and lists the right
keys, so a build goes through normal caches only and no grant of it is refused
(`builds_stay_normal`).
-/

namespace TeamAccess

/-! ## Listed keys -/

/-- **The keys that sets of privileges on a subject may list**: ids of rows, and for applications
the keys of organizations. Vendors and claim sets are not listed, they come with a whole tenant. -/
def Subject.Lists : Subject → AccessKey → Prop
  | .environment, .id _ | .tenant, .id _ | .ods, .id _ | .edOrg, .id _ => True
  | .application, .edOrg _ => True
  | _, _ => False

/-- The set is everything, or lists only keys that it may list. -/
def IdSet.Lists (ids : IdSet) (c : Subject) : Prop := ∀ ks, ids = .only ks → ∀ k ∈ ks, c.Lists k

namespace IdSet

variable {ids : IdSet} {c : Subject}

@[simp] theorem lists_all : all.Lists c := by
  intro ks hks
  cases hks

/-- A set of keys lists them. -/
theorem lists_ofKeys {ks : List AccessKey} (h : ∀ k ∈ ks, c.Lists k) : (ofKeys ks).Lists c := by
  intro js hjs k hk
  obtain rfl := only.inj hjs
  exact h k (KeySet.mem_ofList.1 hk)

/-- A set of ids lists them. -/
theorem lists_ofIds {ns : List ResourceId} (h : ∀ n, c.Lists (.id n)) : (ofIds ns).Lists c := by
  refine lists_ofKeys fun k hk => ?_
  obtain ⟨n, -, rfl⟩ := List.mem_map.1 hk
  exact h n

/-- The set of one id lists it. -/
theorem lists_one {n : ResourceId} (h : c.Lists (.id n)) : (one n).Lists c := by
  intro ks hks k hk
  obtain rfl := only.inj hks
  obtain rfl := Index.mem_single.1 hk
  exact h

/-- What a set gives apart from everything is what it lists. -/
theorem lists_iff :
    ids.Lists c ↔ ∀ k, ids.Gives (.entry k) → ids.Gives .everything ∨ c.Lists k := by
  cases ids with
  | all => exact ⟨fun _ _ _ => .inl gives_all, fun _ => lists_all⟩
  | only ks =>
    constructor
    · intro h k hk
      exact .inr (h ks rfl k hk)
    · intro h js hjs k hk
      obtain rfl := only.inj hjs
      rcases h k hk with hall | hlists
      · cases gives_everything_iff.1 hall
      · exact hlists

end IdSet

/-- The set of a grant lists only keys that it may list. -/
def Grant.Lists : Grant → Subject → Prop
  | .everything, _ => True
  | .ids more, c | .within _ more, c => more.Lists c

/-- What a grant gives at a place apart from everything is what it lists. -/
theorem Grant.Lists.of_gives {g : Grant} {c : Subject} {pl : Place} {k : AccessKey}
    (h : g.Lists c) (hk : g.Gives pl (.entry k)) : g.Gives pl .everything ∨ c.Lists k := by
  cases g with
  | everything => exact .inl trivial
  | ids more =>
    obtain ⟨rfl, hk⟩ := gives_ids_iff.1 hk
    exact IdSet.lists_iff.1 h k hk
  | within scope more =>
    cases pl with
    | whole => exact hk.elim
    | environment e | tenant t =>
      obtain ⟨rfl, hk⟩ := hk
      rcases IdSet.lists_iff.1 h k hk with hall | hlists
      · exact .inl ⟨rfl, hall⟩
      · exact .inr hlists

/-- **What an expansion grants for a privilege lists only keys of the kind that the privilege is
about.** -/
theorem Expansion.lists_of_mem_grants {x : Expansion} {p : Privilege} {g : Grant}
    (h : g ∈ x.grants p) : g.Lists p.subject := by
  cases x with
  | dangling => cases h
  | everything =>
    obtain rfl := List.mem_singleton.1 h
    trivial
  | environment id ts =>
    cases hs : p.subject <;> simp only [grants, hs, List.mem_singleton, List.mem_map] at h
    case environment => exact h ▸ IdSet.lists_one trivial
    case tenant => exact h ▸ IdSet.lists_all
    all_goals
      obtain ⟨_, -, rfl⟩ := h
      exact IdSet.lists_all
  | tenant env id =>
    cases hs : p.subject <;> simp only [grants, hs, List.mem_singleton, Grant.mem_ifSafe] at h
    case environment => exact h.2 ▸ IdSet.lists_one trivial
    case tenant => exact h ▸ IdSet.lists_one trivial
    all_goals exact h ▸ IdSet.lists_all
  | part c =>
    cases hs : p.subject <;> simp only [grants, Part.grants, hs, List.mem_singleton,
      Grant.mem_ifSafe, List.not_mem_nil] at h
    case environment | tenant => exact h.2 ▸ IdSet.lists_one trivial
    case ods =>
      split at h
      · exact List.mem_singleton.1 h ▸ IdSet.lists_one trivial
      · exact (Grant.mem_ifSafe.1 h).2 ▸ IdSet.lists_one trivial
    case edOrg => exact h ▸ IdSet.lists_ofIds fun _ => trivial
    case application =>
      subst h
      refine IdSet.lists_ofKeys fun k hk => ?_
      obtain ⟨key, -, rfl⟩ := List.mem_map.1 hk
      trivial

/-! ## Normal caches -/

namespace Cache

variable {c c' : Cache} {p : Privilege} {g : Grant} {team : TeamId}
variable {gs made : List (Privilege × Grant)}

/-- Every set of the cache lists only keys of the kind that its privilege is about. -/
def Lists (c : Cache) : Prop := ∀ p pl ids, c.Files p pl ids → ids.Lists p.subject

/-- **The normal form of a cache.** -/
structure Normal (c : Cache) : Prop where
  /-- Every entry has the shape of its privilege. -/
  fits : c.Fits
  /-- No entry is empty. -/
  kept : ∀ p e, c.entry? p = some e → e.isEmpty = false
  /-- No scope that an entry names has an empty set. -/
  filled : ∀ p e s, c.entry? p = some e → e.scoped? = some s →
    ∀ n ids, s.scopes.get? n = some ids → ids.isEmpty = false
  /-- An entry of everything in every scope names no scope. -/
  closed : ∀ p e s, c.entry? p = some e → e.scoped? = some s →
    s.isEverywhere = true → s.scopeKeys = []
  /-- Every set lists only keys of the kind that its privilege is about. -/
  listed : c.Lists

/-- A grant that lists only such keys leaves only such keys listed. What the cache lists afterwards
it listed before, or the grant does, and what is no longer listed is part of everything. -/
theorem Lists.grant (h : c.Lists) (hfits : c.Fits) (htidy : c.Tidy) (hlists : g.Lists p.subject)
    (hg : c.grant p g = .ok c') : c'.Lists := by
  intro q pl ids hfiles
  rw [IdSet.lists_iff]
  intro k hk
  rw [← hfiles.gives_iff (htidy.grant hg), gives_of_grant hfits hg] at hk ⊢
  rcases hk with hold | ⟨rfl, hpl, hnew⟩
  · by_cases hall : c.Gives q pl .everything
    · exact .inl (.inl hall)
    · obtain ⟨e, he, hd⟩ := hold
      obtain ⟨ks, hset, hmem⟩ := CacheEntry.exists_files hd fun hd' => hall ⟨e, he, hd'⟩
      exact .inr (h q pl _ ⟨e, he, hset⟩ ks rfl k hmem)
  · rcases hlists.of_gives hnew with hall | hlist
    · exact .inl (.inr ⟨rfl, hpl, hall⟩)
    · exact .inr hlist

/-- A tidy cache is normal if its entries fit and its sets are listed. -/
theorem Normal.of_tidy (hfits : c.Fits) (htidy : c.Tidy) (hlists : c.Lists) : c.Normal where
  fits := hfits
  kept p e he := (htidy p e he).1
  filled p e s he hs := ((htidy p e he).2 s hs).filled
  closed p e s he hs := ((htidy p e he).2 s hs).closed
  listed := hlists

/-- A normal cache is tidy. -/
theorem Normal.tidy (h : c.Normal) : c.Tidy := by
  intro p e he
  exact ⟨h.kept p e he, fun s hs => ⟨h.closed p e s he hs, h.filled p e s he hs⟩⟩

/-- The cache of a team with no access is normal: it has no entries. -/
theorem normal_empty : (empty team).Normal := by
  refine .of_tidy fits_empty tidy_empty ?_
  rintro p pl ids ⟨e, he, -⟩
  cases he

/-- **A grant leaves a normal cache normal**, if it lists keys of the right kind. An entry that it
leaves empty is dropped. -/
theorem Normal.grant (h : c.Normal) (hlists : g.Lists p.subject) (hg : c.grant p g = .ok c') :
    c'.Normal :=
  .of_tidy (h.fits.grant hg) (h.tidy.grant hg) (h.listed.grant h.fits h.tidy hlists hg)

/-- **Grants of expansions are made one after the other**, and they leave a normal cache normal. -/
theorem Normal.grantEach (h : c.Normal) (hg : ∀ x ∈ gs, ∃ e : Expansion, x.2 ∈ e.grants x.1) :
    ∃ c', c.grantEach gs = .ok c' ∧ c'.team = c.team ∧ c'.Normal := by
  induction gs generalizing c with
  | nil => exact ⟨c, rfl, rfl, h⟩
  | cons x gs ih =>
    obtain ⟨e, he⟩ := hg x List.mem_cons_self
    obtain ⟨c₁, h₁⟩ := succeeds_grant h.fits (Expansion.suits_of_mem_grants he)
    have hnormal := h.grant (Expansion.lists_of_mem_grants he) h₁
    obtain ⟨c₂, h₂, hteam, hlast⟩ := ih hnormal fun y hy => hg y (List.mem_cons_of_mem _ hy)
    refine ⟨c₂, ?_, hteam.trans (entry?_of_grant h₁).1, hlast⟩
    rw [grantEach_cons, bind_eq_ok_iff]
    exact ⟨c₁, h₁, h₂⟩

end Cache

/-! ## Faults of reading -/

/-- The fault is one that reads for a build have: of the storage, or what is stored names a role, a
privilege or a resource that there cannot be. A grant of the wrong shape is none of these. -/
def Fault.OfReading : Fault → Prop
  | storage | notFound | unknownPrivilege _ | resource _ => True
  | _ => False

open Fault (OfReading)

theorem IntCell.failsOnly_load (c : IntCell) : FailsOnly c.load OfReading := by
  cases c with
  | int n => exact .ok n
  | real _ | text _ | raw _ => exact .error trivial

theorem TextCell.failsOnly_load (c : TextCell) : FailsOnly c.load OfReading := by
  cases c with
  | text s => exact .ok s
  | raw _ => exact .error trivial

theorem IntCell.failsOnly_load? (c : Option IntCell) : FailsOnly (load? c) OfReading := by
  cases c with
  | none => exact .ok none
  | some c => exact .bind c.failsOnly_load fun _ _ => .ok _

theorem EnvironmentRow.failsOnly_load (r : EnvironmentRow) : FailsOnly r.load OfReading := by
  refine .bind r.version.failsOnly_load fun version _ => .bind r.name.failsOnly_load fun _ _ => ?_
  cases ApiVersion.ofName? version with
  | none => exact .error trivial
  | some _ => exact .ok _

theorem TenantRow.failsOnly_load (r : TenantRow) : FailsOnly r.load OfReading :=
  .bind r.environment.failsOnly_load fun _ _ => .bind r.name.failsOnly_load fun _ _ => .ok _

theorem OdsRow.failsOnly_load (r : OdsRow) : FailsOnly r.load OfReading :=
  .bind r.tenant.failsOnly_load fun _ _ => .bind r.name.failsOnly_load fun _ _ =>
    .bind (IntCell.failsOnly_load? _) fun _ _ => .ok _

theorem EdOrgRow.failsOnly_load (r : EdOrgRow) : FailsOnly r.load OfReading :=
  .bind r.ods.failsOnly_load fun _ _ => .bind r.organization.failsOnly_load fun _ _ =>
    .bind r.name.failsOnly_load fun _ _ => .bind (IntCell.failsOnly_load? _) fun _ _ => .ok _

theorem OwnershipRow.failsOnly_load (r : OwnershipRow) (now : Timestamp) :
    FailsOnly (r.load now) OfReading := by
  have htime : FailsOnly (r.time now) OfReading := by
    unfold time
    split
    · exact .error trivial
    · exact .bind (TextCell.failsOnly_load _) fun _ _ => .ok _
  refine .bind r.team.failsOnly_load fun _ _ => .bind r.role.failsOnly_load fun _ _ =>
    .bind r.kind.failsOnly_load fun _ _ => .bind (IntCell.failsOnly_load? _) fun _ _ =>
      .bind htime fun _ _ => ?_
  split
  · exact .error trivial
  · exact .ok _

namespace Store

variable {s : Store}

section Tables

variable {ρ α : Type} {load : ρ → Except Fault α}

/-- A look-up in a table fails as the row does, or because the table is missing. -/
theorem failsOnly_lookUp {τ : Type} {t : Option τ} {key : ρ → Int64} {rows : τ → Index key}
    (h : ∀ r, FailsOnly (load r) OfReading) (id : Int64) :
    FailsOnly (need t >>= fun t => lookUp (rows t) load id) OfReading := by
  refine .bind (failsOnly_need trivial t) fun u _ => ?_
  unfold lookUp
  cases (rows u).find? id with
  | none => exact .ok none
  | some r => exact .bind (h r) fun _ _ => .ok _

/-- A list of rows of a table fails as one of them does, or because the table is missing. -/
theorem failsOnly_list {τ : Type} {t : Option τ} (h : ∀ r, FailsOnly (load r) OfReading)
    (choose : τ → List ρ) : FailsOnly (need t >>= fun t => (choose t).mapM load) OfReading :=
  .bind (failsOnly_need trivial t) fun _ _ => .mapM fun r _ => h r

end Tables

theorem failsOnly_environment? (id : ResourceId) : FailsOnly (s.environment? id) OfReading :=
  failsOnly_lookUp EnvironmentRow.failsOnly_load id

theorem failsOnly_tenant? (id : ResourceId) : FailsOnly (s.tenant? id) OfReading :=
  failsOnly_lookUp TenantRow.failsOnly_load id

theorem failsOnly_ods? (id : ResourceId) : FailsOnly (s.ods? id) OfReading :=
  failsOnly_lookUp OdsRow.failsOnly_load id

theorem failsOnly_edOrg? (id : ResourceId) : FailsOnly (s.edOrg? id) OfReading :=
  failsOnly_lookUp EdOrgRow.failsOnly_load id

theorem failsOnly_keyOf? (version : ApiVersion) (x : EdOrg) :
    FailsOnly (s.keyOf? version x) OfReading := by
  cases version with
  | v1 => exact .ok _
  | v2 => exact .bind (failsOnly_ods? x.ods) fun _ _ => .ok _

theorem failsOnly_keysOf (version : ApiVersion) (xs : List EdOrg) :
    FailsOnly (s.keysOf version xs) OfReading := by
  induction xs with
  | nil => exact .ok _
  | cons x xs ih =>
    exact .bind (failsOnly_keyOf? version x) fun _ _ => .bind ih fun _ _ => .ok _

theorem failsOnly_partOf (ods : ResourceId) (ownsOds : Bool) (xs : List EdOrg) :
    FailsOnly (s.partOf ods ownsOds xs) OfReading := by
  refine .found (failsOnly_ods? ods) (.ok _) fun o => ?_
  refine .found (failsOnly_tenant? o.tenant) (.ok _) fun t => ?_
  refine .found (failsOnly_environment? t.environment) (.ok _) fun e => ?_
  exact .bind (failsOnly_keysOf e.version xs) fun _ _ => .ok _

/-- What a resource reaches is read, and no more. -/
theorem failsOnly_expansion (r : ResourceRef) : FailsOnly (s.expansion r) OfReading := by
  cases r with
  | global => exact .ok _
  | environment id =>
    refine .found (failsOnly_environment? id) (.ok _) fun e => ?_
    exact .bind (failsOnly_list TenantRow.failsOnly_load _) fun _ _ => .ok _
  | tenant id =>
    refine .found (failsOnly_tenant? id) (.ok _) fun t => ?_
    exact .found (failsOnly_environment? t.environment) (.ok _) fun _ => .ok _
  | ods id =>
    exact .bind (failsOnly_list EdOrgRow.failsOnly_load _) fun xs _ => failsOnly_partOf id true xs
  | edOrg id =>
    refine .found (failsOnly_edOrg? id) (.ok _) fun root => ?_
    have hbelow : FailsOnly (s.listDescendants id) OfReading :=
      .bind (failsOnly_need trivial _) fun _ _ => failsOnly_list EdOrgRow.failsOnly_load _
    exact .bind hbelow fun below _ => failsOnly_partOf root.ods false (withRoot root below)

theorem failsOnly_loadPrivileges (id : RoleId) : FailsOnly (s.loadPrivileges id) OfReading := by
  have hparse (code : String) : FailsOnly (Privilege.parse code) OfReading := by
    unfold Privilege.parse
    cases Privilege.ofCode? code with
    | none => exact .error trivial
    | some p => exact .ok p
  refine .bind (failsOnly_need trivial _) fun rows _ => ?_
  refine .bind (.mapM fun r _ => r.code.failsOnly_load) fun codes _ => ?_
  exact .bind (.mapM fun code _ => hparse code) fun _ _ => .ok _

/-- A role is read, and no more. -/
theorem failsOnly_role? (id : RoleId) : FailsOnly (s.role? id) OfReading := by
  refine failsOnly_lookUp (fun r => ?_) id
  have hscope : FailsOnly r.loadScope OfReading :=
    .bind (IntCell.failsOnly_load? _) fun _ _ => .ok _
  exact .bind r.name.failsOnly_load fun _ _ => .bind hscope fun _ _ =>
    .bind (failsOnly_loadPrivileges r.id) fun _ _ => .ok _

/-- A team's ownerships are read, and no more. -/
theorem failsOnly_listOwnerships (team : TeamId) :
    FailsOnly (s.listOwnerships team) OfReading := by
  refine .bind (failsOnly_need trivial _) fun t _ => ?_
  dsimp only
  split
  · exact .mapM fun r _ => r.failsOnly_load s.now
  · exact .error trivial

/-- What an ownership grants is read, and no more. -/
theorem failsOnly_grantsOf (team : TeamId) (o : Ownership) :
    FailsOnly (s.grantsOf team o) OfReading := by
  refine .found (failsOnly_role? o.role) (.error trivial) fun role => ?_
  dsimp only
  split
  · exact .bind (failsOnly_expansion o.resource) fun _ _ => .ok _
  · exact .ok _

/-! ## Builds -/

/-- What a team's ownerships grant to it, in their order. -/
def grantsTo (s : Store) (team : TeamId) : Except Fault (List (Privilege × Grant)) := do
  return (← (← s.listOwnerships team).mapM (s.grantsOf team)).flatten

/-- A team's cache is what its grants make of nothing. -/
theorem buildCache_eq_grantEach (team : TeamId) :
    s.buildCache team = s.grantsTo team >>= (Cache.empty team).grantEach := by
  have hfold (os : List Ownership) : os.foldlM s.addTo (.empty team) =
      os.mapM (s.grantsOf team) >>= fun gss => (Cache.empty team).grantEach gss.flatten :=
    foldlM_addTo_eq Cache.fits_empty
  rw [buildCache_eq, grantsTo]
  simp only [bind_assoc, pure_bind, hfold]

/-- What the ownerships of a team grant to it is what expansions grant. -/
theorem exists_mem_grants_of_grantsTo {team : TeamId} {gs : List (Privilege × Grant)}
    (h : s.grantsTo team = .ok gs) : ∀ x ∈ gs, ∃ e : Expansion, x.2 ∈ e.grants x.1 := by
  obtain ⟨os, -, h⟩ := bind_eq_ok_iff.1 h
  obtain ⟨gss, hgss, h⟩ := bind_eq_ok_iff.1 h
  obtain rfl := pure_eq_ok_iff.1 h
  intro x hx
  exact exists_mem_grants_of_mapM hgss hx

/-- A build fails only as its reads do. -/
theorem failsOnly_buildCache (team : TeamId) : FailsOnly (s.buildCache team) OfReading := by
  rw [buildCache_eq_grantEach]
  refine .bind ?_ fun gs hgs => ?_
  · exact .bind (failsOnly_listOwnerships team) fun os _ =>
      .bind (.mapM fun o _ => failsOnly_grantsOf team o) fun _ _ => .ok _
  · obtain ⟨c, hc, -⟩ := Cache.normal_empty.grantEach (exists_mem_grants_of_grantsTo hgs)
    exact .of_succeeds ⟨c, hc⟩

end Store

/-- **A build goes from one normal cache to the next, and no grant of it is refused.** From any
store, a team's cache is what the grants of its ownerships make of nothing; after each of them the
cache is one of the team and in normal form, and so is the one that is built. If a build fails, then
it is a read that failed and not a grant that did not have the shape of its privilege. -/
theorem builds_stay_normal (s : Store) (team : TeamId) :
    s.buildCache team = s.grantsTo team >>= (Cache.empty team).grantEach ∧
      (∀ gs, s.grantsTo team = .ok gs → ∀ made, made <+: gs →
        ∃ c, (Cache.empty team).grantEach made = .ok c ∧ c.team = team ∧ c.Normal) ∧
      (∀ c, s.buildCache team = .ok c → c.team = team ∧ c.Normal) ∧
      ∀ p, s.buildCache team ≠ .error (.misfit p) := by
  have hbuild := s.buildCache_eq_grantEach team
  have hmade : ∀ gs, s.grantsTo team = .ok gs → ∀ made, made <+: gs →
      ∃ c, (Cache.empty team).grantEach made = .ok c ∧ c.team = team ∧ c.Normal := by
    intro gs hgs made hfront
    refine Cache.normal_empty.grantEach fun x hx => ?_
    exact Store.exists_mem_grants_of_grantsTo hgs x (hfront.subset hx)
  refine ⟨hbuild, hmade, fun c hc => ?_, fun p hp => Store.failsOnly_buildCache team _ hp⟩
  obtain ⟨gs, hgs, hgrants⟩ := bind_eq_ok_iff.1 (hbuild.symm.trans hc)
  obtain ⟨c', hc', hteam, hnormal⟩ := hmade gs hgs gs (List.prefix_refl gs)
  obtain rfl := Except.ok.inj (hgrants.symm.trans hc')
  exact ⟨hteam, hnormal⟩

/-- A store where a team owns the one tenant, then everything, and the tenant once more. -/
def overtaken : Store :=
  { Store.oneTenant with
    privileges := some (Index.single ⟨.int 4, "team.sb-environment.edfi-tenant:read"⟩)
    ownerships := some ⟨Index.ofList [
      ⟨5, .int 3, .int 4, "tenant", some (.int 2), some "today"⟩,
      ⟨6, .int 3, .int 4, "global", none, some "today"⟩,
      ⟨7, .int 3, .int 4, "tenant", some (.int 2), some "today"⟩], 7⟩ }

/-- The tenant is filed by its environment first; once everything is granted no environment is
named, not even by the last grant of the tenant. -/
theorem overtaken_builds_stay_normal :
    (∃ gs c, overtaken.grantsTo 3 = .ok gs ∧ (Cache.empty 3).grantEach (gs.take 1) = .ok c ∧
      c.Normal ∧
      c.entry? .tenantRead = some (.byEnvironment ⟨false, Index.single (1, .one 2)⟩)) ∧
    ∃ c, overtaken.buildCache 3 = .ok c ∧ c.Normal ∧
      c.entry? .tenantRead = some (.byEnvironment ⟨true, Index.empty⟩) := by
  obtain ⟨-, hmade, hbuilt, -⟩ := builds_stay_normal overtaken 3
  obtain ⟨c, hc, -, hnormal⟩ := hmade _ rfl _ (List.take_prefix 1 _)
  obtain rfl := Except.ok.inj hc
  exact ⟨⟨_, _, rfl, rfl, hnormal, rfl⟩, _, rfl, (hbuilt _ rfl).2, rfl⟩

end TeamAccess
