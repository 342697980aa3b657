import TeamAccess.Proofs.Posting
import TeamAccess.Proofs.Upkeep

/-!
# Applications — whose keys a team gets

Applications are known by the keys of their organizations. A team gets every key of a tenant if it
holds the privilege over the tenant or something above it; otherwise it gets the keys of the
organizations that its ownerships cover (`Store.Sound.gives_extract_applications_iff`). In one ODS
an organization has its key to itself, but another ODS of the tenant may hold an organization with
the same key, which is then as good.
-/

namespace TeamAccess

namespace Store

variable {s : Store} {team : TeamId} {p : Privilege} {t : Tenant} {e : Environment} {x : EdOrg}

/-- The team holds the privilege over the tenant, or over something above it. -/
def HoldsTenant (s : Store) (team : TeamId) (p : Privilege) (t : Tenant) : Prop :=
  s.Holds team p .global ∨ s.Holds team p (.environment t.environment) ∨
    s.Holds team p (.tenant t.id)

/-- The organization is stored, in an ODS of the tenant. -/
def HasEdOrgIn (s : Store) (t : Tenant) (x : EdOrg) : Prop :=
  s.HasEdOrg x ∧ ∃ o, s.HasOds o ∧ x.ods = o.id ∧ o.tenant = t.id

/-- **An ownership covers the organization**: the team holds the privilege over its ODS, over itself
or over an organization that it lies below. -/
def HoldsOver (s : Store) (team : TeamId) (p : Privilege) (x : EdOrg) : Prop :=
  ∃ owned, s.Holds team p owned ∧ s.Reaches x owned

/-! ## Keys of a tenant -/

/-- What a resource reaches lies where the resource lies. -/
theorem Sound.liesIn_iff (h : s.Sound) {r : ResourceRef} (hreach : s.Reaches x r) {o : Ods} :
    s.LiesIn o r ↔ x.ods = o.id := by
  cases r with
  | ods n =>
    obtain ⟨-, rfl⟩ := hreach
    exact .rfl
  | edOrg n =>
    obtain ⟨y, hy, hid, hods⟩ : ∃ y, s.HasEdOrg y ∧ y.id = n ∧ y.ods = x.ods := by
      obtain ⟨hx, hid | hbelow⟩ := hreach
      · exact ⟨x, hx, hid, rfl⟩
      · obtain ⟨y, z, hy, hz, hods, hyn, hzx⟩ := h.ends_of_liesBelow hbelow
        obtain rfl := hz.unique hx hzx
        exact ⟨y, hy, hyn, hods⟩
    rw [← hods]
    constructor
    · rintro ⟨z, hz, hzn, hzo⟩
      obtain rfl := hz.unique hy (hzn.trans hid.symm)
      exact hzo
    · exact fun hyo => ⟨y, hy, hid, hyo⟩
  | _ => exact hreach.elim

/-- **What a resource contributes to a privilege on applications**, in a tenant: everything if it is
the tenant or above it, else the keys of the organizations of the tenant that it reaches. -/
theorem Sound.contributes_applications_iff (h : s.Sound) (ht : s.TenantIn t e)
    (hp : p.subject = .application) {r : ResourceRef} {d : Demand} :
    s.Contributes p (.tenant t.id) r d ↔
      (r = .global ∨ r = .environment t.environment ∨ r = .tenant t.id) ∨
      ∃ x k, s.HasEdOrgIn t x ∧ s.Reaches x r ∧ s.HasKey e.version x k ∧
        d = .entry (.edOrg k) := by
  have hshape : p.shape = .byTenant := Privilege.shape_eq_byTenant_iff.2 (by simp [hp])
  constructor
  · intro hd
    generalize hpl : Place.tenant t.id = pl at hd
    cases hd with
    | everything => exact .inl (.inl rfl)
    | inTenants _ ht' _ =>
      obtain ⟨rfl, rfl⟩ := ht.unique ht' (Place.tenant.inj hpl)
      exact .inl (.inr (.inl (by rw [ht.eq])))
    | inTenant _ ht' _ => exact .inl (.inr (.inr (by rw [Place.tenant.inj hpl])))
    | @applications o t' e' _ x k ho hlies hreach hkey _ =>
      obtain ⟨rfl, rfl⟩ := ht.unique ho.tenantIn (Place.tenant.inj hpl)
      have hx : s.HasEdOrg x := by
        cases r with
        | ods n => exact hreach.1
        | edOrg n => exact hreach.1
        | _ => exact hreach.elim
      exact .inr ⟨x, k, ⟨hx, o, ho.hasOds, (h.liesIn_iff hreach).1 hlies, ho.eq⟩, hreach, hkey, rfl⟩
    | ods _ hs | edOrgs _ _ _ hs | odsAbove _ _ hs _ => exact absurd (hp.symm.trans hs) (by simp)
    | environment _ _ | tenants _ _ _ | tenant _ _ | aboveTenant _ _ _ | tenantAbove _ _ _ _
    | environmentAbove _ _ _ _ => cases hpl
  · rintro ((rfl | rfl | rfl) | ⟨x, k, ⟨hx, o, ho, hxo, hot⟩, hreach, hkey, rfl⟩)
    · exact .everything _ _
    · exact ht.eq ▸ .inTenants d ht hshape
    · exact .inTenant d ht hshape
    · exact .applications ⟨ho, hot, ht⟩ ((h.liesIn_iff hreach).2 hxo) hreach hkey hp

/-- **What a team gets for applications of a tenant**: everything if it holds the privilege over the
tenant, else the keys of the organizations that it holds the privilege over. -/
theorem Sound.gives_extract_applications_iff (h : s.Sound) {c : Cache} {q : ScopeParams}
    (hc : s.buildCache team = .ok c) (ht : s.TenantIn t e) (hp : p.subject = .application)
    (hq : q.tenant = some t.id) {d : Demand} : (c.extract p q).Gives d ↔
      s.HoldsTenant team p t ∨ ∃ x k, s.HasEdOrgIn t x ∧ s.HoldsOver team p x ∧
        s.HasKey e.version x k ∧ d = .entry (.edOrg k) := by
  have hplace : q.place? p.shape = some (.tenant t.id) := by
    simp [ScopeParams.place?, Privilege.shape, hp, Subject.shape, hq]
  rw [gives_extract_of_place hc hplace]
  simp only [h.contributes_applications_iff ht hp]
  constructor
  · rintro ⟨r, hholds, (rfl | rfl | rfl) | ⟨x, k, hx, hreach, hkey, rfl⟩⟩
    · exact .inl (.inl hholds)
    · exact .inl (.inr (.inl hholds))
    · exact .inl (.inr (.inr hholds))
    · exact .inr ⟨x, k, hx, ⟨r, hholds, hreach⟩, hkey, rfl⟩
  · rintro ((hholds | hholds | hholds) | ⟨x, k, hx, ⟨r, hholds, hreach⟩, hkey, rfl⟩)
    · exact ⟨_, hholds, .inl (.inl rfl)⟩
    · exact ⟨_, hholds, .inl (.inr (.inl rfl))⟩
    · exact ⟨_, hholds, .inl (.inr (.inr rfl))⟩
    · exact ⟨r, hholds, .inr ⟨x, k, hx, hreach, hkey, rfl⟩⟩

/-! ## Organizations with one key -/

/-- A key has the organization's number. -/
theorem HasKey.organization_eq {version : ApiVersion} {k : EdOrgKey} (h : s.HasKey version x k) :
    k.organization = x.organization := by
  cases version with
  | v1 =>
    obtain rfl := h
    rfl
  | v2 =>
    obtain ⟨_, _, -, -, -, rfl⟩ := h
    rfl

/-- **In its ODS an organization has its key to itself.** -/
theorem Settled.eq_of_hasKey (h : s.Settled) {y : EdOrg} {version : ApiVersion} {k : EdOrgKey}
    (hx : s.HasEdOrg x) (hy : s.HasEdOrg y) (hods : y.ods = x.ods)
    (hxk : s.HasKey version x k) (hyk : s.HasKey version y k) : y = x :=
  h.distinct y x hy hx hods (hyk.organization_eq.symm.trans hxk.organization_eq)

end Store

namespace Service

variable {mode : CacheMode} {v : Service}

/-- The store of a service that has only been asked is settled. -/
theorem Served.settled (h : Served mode v) : v.store.Settled := by
  obtain ⟨now, es, rfl⟩ := h.exists_run
  exact settled_run mode now es

/-- **Whose key authorizes.** Whatever a service was asked before, a team that does not get every
key of a tenant gets the key of an organization there just if it holds the privilege over that
organization, or over one with the same key in another ODS of the tenant. -/
theorem has_key_iff (hv : Served mode v) (team : TeamId) {p : Privilege} {t : Tenant}
    {e : Environment} {q : ScopeParams} (ht : v.store.TenantIn t e) (hp : p.subject = .application)
    (hq : q.tenant = some t.id) :
    ∃ handle, (v.cache team).1 = .ok handle ∧
      ((handle.cache.extract p q).isAll = false → ∀ x k, v.store.HasEdOrgIn t x →
        v.store.HasKey e.version x k → ((handle.cache.extract p q).has (.edOrg k) = true ↔
          v.store.HoldsOver team p x ∨ ∃ y, v.store.HasEdOrgIn t y ∧ y.ods ≠ x.ods ∧
            v.store.HasKey e.version y k ∧ v.store.HoldsOver team p y)) := by
  obtain ⟨handle, hhandle, hbuild⟩ := hv.coherent.exists_handle hv.sound team
  have hgives {d : Demand} := hv.sound.gives_extract_applications_iff hbuild ht hp hq (d := d)
  refine ⟨handle, hhandle, fun hall x k hx hkey => ?_⟩
  -- Everything would have been given if the team held the tenant.
  have hnot : ¬ v.store.HoldsTenant team p t := by
    intro hholds
    have heverything := IdSet.gives_everything_iff.1 (hgives.2 (.inl hholds))
    rw [heverything] at hall
    cases hall
  rw [IdSet.has_iff, hgives]
  constructor
  · rintro (hholds | ⟨y, k', hy, hover, hkey', hk⟩)
    · exact absurd hholds hnot
    · obtain rfl : k = k' := AccessKey.edOrg.inj (Demand.entry.inj hk)
      by_cases hods : y.ods = x.ods
      · exact .inl (hv.settled.eq_of_hasKey hx.1 hy.1 hods hkey hkey' ▸ hover)
      · exact .inr ⟨y, hy, hods, hkey', hover⟩
  · rintro (hover | ⟨y, hy, -, hkey', hover⟩)
    · exact .inr ⟨x, k, hx, hover, hkey, rfl⟩
    · exact .inr ⟨y, k, hy, hover, hkey', rfl⟩

/-! ## Twins -/

/-- An organization with the number 100, in an ODS. -/
def school (id ods : ResourceId) : EdOrg := ⟨id, ods, 100, "School", none⟩

/-- On the first grounds another ODS is added, and the same organization to both. -/
def schools : List Event :=
  [.write (.addOds ⟨4, 2, "Annex", none⟩), .write (.addEdOrg (school 5 3)),
    .write (.addEdOrg (school 6 4))]

/-- The team is given the first ODS, to do with it whatever can be done. -/
def twins : List Event := schools ++ [.write (.addOwnership ⟨1, 1, .ods 3⟩)]

/-- What a store has that has been given these. -/
structure Twins (s : Store) : Prop where
  tenantIn : s.TenantIn ⟨2, 1, "North"⟩ ⟨1, "East", .v1⟩
  teams : s.teams = some (Numbered.empty.push ⟨1, .text "Wardens"⟩)
  main : s.HasEdOrgIn ⟨2, 1, "North"⟩ (school 5 3)
  annex : s.HasEdOrgIn ⟨2, 1, "North"⟩ (school 6 4)
  ods : s.HasOds ⟨3, 2, "Main", none⟩
  edOrgs : ∀ x, s.HasEdOrg x → x = school 5 3 ∨ x = school 6 4
  spare : s.Spare
  owned : ∀ p, s.HoldsOnly 1 p (.ods 3)

theorem Twins.team {s : Store} (h : Twins s) : s.HasTeam ⟨1, "Wardens"⟩ :=
  ⟨_, h.teams, Index.mem_insert.2 (.inl rfl)⟩

/-- The rows go through: their ids are free, and no ODS is given an organization twice. -/
theorem exists_store_schools (hgrounds : Grounds v.store) (hsound : v.store.Sound) :
    ∃ c, (v.run schools).store = { v.store with
      odss := some ((Index.empty.insert (Ods.row ⟨3, 2, "Main", none⟩)).insert
        (Ods.row ⟨4, 2, "Annex", none⟩))
      edOrgs := some ((Index.empty.insert (school 5 3).row).insert (school 6 4).row)
      closure := some c } := by
  obtain ⟨v₁, h₁, hs₁⟩ : ∃ v₁, v.step (.write (.addOds ⟨4, 2, "Annex", none⟩)) = v₁ ∧
      v₁.store = { v.store with odss := some ((Index.empty.insert
        (Ods.row ⟨3, 2, "Main", none⟩)).insert (Ods.row ⟨4, 2, "Annex", none⟩)) } :=
    ⟨_, rfl, store_step_of_write _ (addOds_of_new hgrounds.odss hgrounds.tenant rfl (by decide))⟩
  have hsound₁ : v₁.store.Sound := h₁ ▸ sound_step hsound _
  obtain ⟨v₂, h₂, c₂, hs₂⟩ : ∃ v₂, v₁.step (.write (.addEdOrg (school 5 3))) = v₂ ∧ ∃ c,
      v₂.store = { v₁.store with
        edOrgs := some (Index.empty.insert (school 5 3).row), closure := some c } := by
    have hods : v₁.store.HasOds ⟨3, 2, "Main", none⟩ := by
      rw [hs₁]
      exact ⟨_, rfl, by decide⟩
    have hnone : v₁.store.edOrgs = some Index.empty := by rw [hs₁, hgrounds.edOrgs]
    have hparent : v₁.store.ParentIn (school 5 3) := Store.parentIn_of_none rfl
    obtain ⟨c, hok⟩ := addEdOrg_of_new hsound₁ hnone hods rfl hparent rfl
      fun _ hrow => absurd hrow List.not_mem_nil
    exact ⟨_, rfl, c, store_step_of_write _ hok⟩
  have hsound₂ : v₂.store.Sound := h₂ ▸ sound_step hsound₁ _
  have hods : v₂.store.HasOds ⟨4, 2, "Annex", none⟩ := by
    rw [hs₂, hs₁]
    exact ⟨_, rfl, by decide⟩
  have hone : v₂.store.edOrgs = some (Index.empty.insert (school 5 3).row) := by rw [hs₂]
  have hparent : v₂.store.ParentIn (school 6 4) := Store.parentIn_of_none rfl
  obtain ⟨c₃, hok⟩ := addEdOrg_of_new hsound₂ hone hods rfl hparent (by decide) (by decide)
  have hrun : v.run schools = v₂.step (.write (.addEdOrg (school 6 4))) := by
    rw [schools, run, List.foldl_cons, h₁, List.foldl_cons, h₂, List.foldl_cons, List.foldl_nil]
  exact ⟨c₃, by rw [hrun, store_step_of_write (.addEdOrg _) hok, hs₂, hs₁]⟩

/-- On the first grounds twins can be added. -/
theorem twins_of_grounds (hgrounds : Grounds v.store) (hsound : v.store.Sound) :
    Twins (v.run twins).store := by
  obtain ⟨c, hs⟩ := exists_store_schools hgrounds hsound
  rw [twins, run_append]
  generalize v.run schools = v₁ at hs
  have hmain : v₁.store.HasOds ⟨3, 2, "Main", none⟩ := by
    rw [hs]
    exact ⟨_, rfl, by decide⟩
  obtain ⟨t, hnext, hfinal, howns⟩ : ∃ t, t.next? = some 2 ∧
      (v₁.run [.write (.addOwnership ⟨1, 1, .ods 3⟩)]).store =
        { v₁.store with ownerships := some t } ∧
        (v₁.run [.write (.addOwnership ⟨1, 1, .ods 3⟩)]).store.OwnsOnly 1
          (Store.stored .environmentOwner 1) (.ods 3) := by
    have hnone : v₁.store.ownerships = some Numbered.empty := by rw [hs, hgrounds.ownerships]
    have hteam : v₁.store.HasTeam ⟨1, "Wardens"⟩ := by
      rw [hs]
      exact hgrounds.team
    have howner : v₁.store.HasRole (Store.stored .environmentOwner 1) := by
      rw [hs]
      exact hgrounds.owner
    exact step_addOwnership_first hnone hteam rfl howner (resourceExists_ods hmain rfl)
  have howned (p : Privilege) :=
    howns.holdsOnly ((Store.lends_stored_iff (p := p) howns.hasRole).2 rfl)
  refine { tenantIn := ?tenantIn, teams := ?teams, main := ?main, annex := ?annex, ods := ?ods
           edOrgs := ?edOrgs, spare := ?spare, owned := howned }
  all_goals rw [hfinal, hs]
  case tenantIn => exact ⟨hgrounds.tenant, hgrounds.environment, rfl⟩
  case teams => exact hgrounds.teams
  case main =>
    exact ⟨⟨_, rfl, by decide⟩, ⟨3, 2, "Main", none⟩, ⟨_, rfl, by decide⟩, rfl, rfl⟩
  case annex =>
    exact ⟨⟨_, rfl, by decide⟩, ⟨4, 2, "Annex", none⟩, ⟨_, rfl, by decide⟩, rfl, rfl⟩
  case ods => exact ⟨_, rfl, by decide⟩
  case edOrgs =>
    rintro x ⟨u, hu, hx⟩
    obtain rfl := Option.some.inj hu
    rcases Index.mem_insert.1 hx with hrow | ⟨hx, -⟩
    · exact .inr (EdOrg.row_inj hrow)
    · rcases Index.mem_insert.1 hx with hrow | ⟨hx, -⟩
      · exact .inl (EdOrg.row_inj hrow)
      · exact absurd hx Index.not_mem_empty
  case spare => exact ⟨hgrounds.spare.teams, hgrounds.spare.roles, ⟨t, 2, rfl, hnext⟩⟩

/-- The service that was asked for twins. -/
def twinned : Service := (initial .shared .epoch).run (grounds ++ twins)

/-- Twins can be posted. -/
theorem posted_twins : ∀ e ∈ twins, Posted e := by
  have hods : Decode.text Ods.decode "[4,2,\"Annex\",null]".toList =
      .ok ⟨4, 2, "Annex", none⟩ := by decide +kernel
  have hmain : Decode.text EdOrg.decode "[5,3,100,\"School\",null]".toList =
      .ok (school 5 3) := by decide +kernel
  have hannex : Decode.text EdOrg.decode "[6,4,100,\"School\",null]".toList =
      .ok (school 6 4) := by decide +kernel
  have hownership : Decode.text NewOwnership.decode "[1,1,[\"ods\",3]]".toList =
      .ok ⟨1, 1, .ods 3⟩ := by decide +kernel
  simp only [twins, schools, List.cons_append, List.nil_append, List.forall_mem_cons,
    List.not_mem_nil, IsEmpty.forall_iff, implies_true, and_true]
  exact ⟨posted_addOds (by decide) hods, posted_addEdOrg (by decide) hmain,
    posted_addEdOrg (by decide) hannex, posted_addOwnership (by decide) hownership⟩

/-- It was only asked, and has the twins. -/
theorem twinned_spec : Served .shared twinned ∧ Twins twinned.store := by
  have hserved : Served .shared twinned := by
    refine (Served.start .epoch).run fun e he => ?_
    rcases List.mem_append.1 he with he | he
    · exact posted_grounds e he
    · exact posted_twins e he
  refine ⟨hserved, ?_⟩
  rw [twinned, run_append]
  exact twins_of_grounds (grounds_run .shared .epoch) (sound_run .shared .epoch grounds)

/-- The team holds what it was given over the organization of its ODS, and not over the twin. -/
theorem Twins.holdsOver {s : Store} (h : Twins s) (p : Privilege) :
    ¬ s.HoldsTenant 1 p ⟨2, 1, "North"⟩ ∧ s.HoldsOver 1 p (school 5 3) ∧
      ¬ s.HoldsOver 1 p (school 6 4) := by
  have hiff {r : ResourceRef} : s.Holds 1 p r ↔ r = .ods 3 := (h.owned p).holds_iff
  refine ⟨?_, ?_, ?_⟩
  · rintro (hholds | hholds | hholds) <;> cases hiff.1 hholds
  · exact ⟨.ods 3, hiff.2 rfl, h.main.1, rfl⟩
  · rintro ⟨r, hholds, hreach⟩
    obtain rfl := hiff.1 hholds
    exact absurd hreach.2 (by decide)

/-- What the team gets there is not everything. -/
theorem Twins.isAll_extract {s : Store} (h : Twins s) (hsound : s.Sound) {c : Cache}
    (hc : s.buildCache 1 = .ok c) {p : Privilege} (hp : p.subject = .application) :
    (c.extract p ⟨none, some 2⟩).isAll = false := by
  have hq : (⟨none, some 2⟩ : ScopeParams).tenant = some (⟨2, 1, "North"⟩ : Tenant).id := rfl
  rw [Bool.eq_false_iff, ne_eq, IdSet.isAll_iff, ← IdSet.gives_everything_iff,
    hsound.gives_extract_applications_iff hc h.tenantIn hp hq]
  rintro (hholds | ⟨_, _, -, -, -, hd⟩)
  · exact (h.holdsOver p).1 hholds
  · cases hd

/-- **A twin authorizes.** The team may update applications by the key of an organization that no
ownership of it covers, as the organization that is covered has the same key. -/
theorem twin_authorizes : Served .shared twinned ∧
    twinned.store.TenantIn ⟨2, 1, "North"⟩ ⟨1, "East", .v1⟩ ∧
    twinned.store.HasEdOrgIn ⟨2, 1, "North"⟩ (school 6 4) ∧
    twinned.store.HasKey .v1 (school 6 4) (.v1 100) ∧
    ∃ handle, (twinned.cache 1).1 = .ok handle ∧
      (handle.cache.extract .applicationUpdate ⟨none, some 2⟩).isAll = false ∧
      (handle.cache.extract .applicationUpdate ⟨none, some 2⟩).has (.edOrg (.v1 100)) = true ∧
      ¬ twinned.store.HoldsOver 1 .applicationUpdate (school 6 4) := by
  obtain ⟨hserved, htwins⟩ := twinned_spec
  obtain ⟨-, hover, hnot⟩ := htwins.holdsOver .applicationUpdate
  obtain ⟨handle, hhandle, hbuild⟩ := hserved.coherent.exists_handle hserved.sound 1
  have hall := htwins.isAll_extract hserved.sound hbuild
    (show Privilege.applicationUpdate.subject = .application from rfl)
  refine ⟨hserved, htwins.tenantIn, htwins.annex, rfl, handle, hhandle, hall, ?_, hnot⟩
  have hq : (⟨none, some 2⟩ : ScopeParams).tenant = some (⟨2, 1, "North"⟩ : Tenant).id := rfl
  rw [IdSet.has_iff, hserved.sound.gives_extract_applications_iff hbuild htwins.tenantIn rfl hq]
  exact .inr ⟨school 5 3, .v1 100, htwins.main, hover, rfl, rfl⟩

/-- The key of the organization that is covered authorizes too. -/
theorem main_authorizes : Served .shared twinned ∧
    twinned.store.TenantIn ⟨2, 1, "North"⟩ ⟨1, "East", .v1⟩ ∧
    twinned.store.HasEdOrgIn ⟨2, 1, "North"⟩ (school 5 3) ∧
    twinned.store.HasKey .v1 (school 5 3) (.v1 100) ∧
    ∃ handle, (twinned.cache 1).1 = .ok handle ∧
      (handle.cache.extract .applicationUpdate ⟨none, some 2⟩).isAll = false ∧
      (handle.cache.extract .applicationUpdate ⟨none, some 2⟩).has (.edOrg (.v1 100)) = true := by
  obtain ⟨hserved, htwins⟩ := twinned_spec
  have hp : Privilege.applicationUpdate.subject = .application := rfl
  have hq : (⟨none, some 2⟩ : ScopeParams).tenant = some (⟨2, 1, "North"⟩ : Tenant).id := rfl
  obtain ⟨handle, hhandle, hkey⟩ := has_key_iff hserved 1 htwins.tenantIn hp hq
  have hall : (handle.cache.extract .applicationUpdate ⟨none, some 2⟩).isAll = false := by
    obtain ⟨handle', hhandle', hbuild⟩ := hserved.coherent.exists_handle hserved.sound 1
    obtain rfl := Except.ok.inj (hhandle.symm.trans hhandle')
    exact htwins.isAll_extract hserved.sound hbuild hp
  refine ⟨hserved, htwins.tenantIn, htwins.main, rfl, handle, hhandle, hall, ?_⟩
  obtain ⟨-, hover, -⟩ := htwins.holdsOver .applicationUpdate
  exact (hkey hall (school 5 3) (.v1 100) htwins.main rfl).2 (.inl hover)

end Service

end TeamAccess
