import TeamAccess.Proofs.Holding
import TeamAccess.Proofs.Integrity

/-!
# Needs — what a build reads, and when it succeeds

Tables can be missing and rows can be damaged behind the store's back, and a build that comes upon
such a thing fails. What it comes upon is said here by rules: which look-ups and lists a resource
needs (`Store.Needs`), each because of what the one before it found. A resource can be expanded just
if every read that it needs succeeds (`Store.succeeds_expansion_iff`). So a build succeeds just if
the team's ownerships can be listed, each one's role can be read, and so can what the resource of
each one needs whose role the team may use (`Store.succeeds_buildCache_iff`): what is missing is
skipped, and what cannot be read is not. Putting it together cannot fail, since what an expansion
grants for a privilege has the privilege's shape.
-/

namespace TeamAccess

/-! ## Grants -/

/-- The grant has the shape. -/
def Grant.Suits : Grant → Shape → Prop
  | .everything, _ => True
  | .ids _, shape => shape = .unscoped
  | .within _ _, shape => shape = .byEnvironment ∨ shape = .byTenant

/-- **What an expansion grants for a privilege has the privilege's shape.** -/
theorem Expansion.suits_of_mem_grants {x : Expansion} {p : Privilege} {g : Grant}
    (h : g ∈ x.grants p) : g.Suits p.shape := by
  rw [Privilege.shape]
  -- Both sides go by the subject of the privilege: which grants there are, and the shape.
  cases x with
  | dangling => cases h
  | everything =>
    obtain rfl := List.mem_singleton.1 h
    trivial
  | environment id ts =>
    cases hs : p.subject <;> simp only [grants, hs, List.mem_singleton, List.mem_map] at h
    case environment | tenant => subst h; simp [Grant.Suits, Subject.shape]
    all_goals
      obtain ⟨_, -, rfl⟩ := h
      simp [Grant.Suits, Subject.shape]
  | tenant env id =>
    cases hs : p.subject <;> simp only [grants, hs, List.mem_singleton, Grant.mem_ifSafe] at h
    case environment =>
      obtain ⟨-, rfl⟩ := h
      simp [Grant.Suits, Subject.shape]
    all_goals
      subst h
      simp [Grant.Suits, Subject.shape]
  | part c =>
    cases hs : p.subject <;> simp only [grants, Part.grants, hs, List.mem_singleton,
      Grant.mem_ifSafe, List.not_mem_nil] at h
    case ods =>
      split at h
      · obtain rfl := List.mem_singleton.1 h
        simp [Grant.Suits, Subject.shape]
      · obtain ⟨-, rfl⟩ := Grant.mem_ifSafe.1 h
        simp [Grant.Suits, Subject.shape]
    case environment | tenant =>
      obtain ⟨-, rfl⟩ := h
      simp [Grant.Suits, Subject.shape]
    all_goals
      subst h
      simp [Grant.Suits, Subject.shape]

namespace Cache

variable {c : Cache} {p : Privilege}

/-- A grant of the privilege's shape is not refused. -/
theorem succeeds_grant {g : Grant} (h : c.Fits) (hg : g.Suits p.shape) :
    Succeeds (c.grant p g) := by
  have hshape := h.shape_getD (p := p)
  unfold grant
  generalize (c.entry? p).getD (.blank p.shape) = e at hshape
  rw [← hshape] at hg
  clear hshape
  cases e <;> cases g <;> simp_all [CacheEntry.add?, CacheEntry.shape, Grant.Suits, Succeeds]

/-- Grants of the privilege's shape are not refused. -/
theorem succeeds_grantAll {gs : List Grant} (h : c.Fits) (hg : ∀ g ∈ gs, g.Suits p.shape) :
    Succeeds (c.grantAll p gs) := by
  induction gs generalizing c with
  | nil => exact .pure c
  | cons g gs ih =>
    refine .bind (succeeds_grant h (hg g List.mem_cons_self)) fun c₁ h₁ => ?_
    exact ih (h.grant h₁) fun g' hg' => hg g' (List.mem_cons_of_mem _ hg')

/-- What an expansion grants is not refused. -/
theorem succeeds_addExpansion {x : Expansion} {ps : List Privilege} (h : c.Fits) :
    Succeeds (c.addExpansion x ps) := by
  induction ps generalizing c with
  | nil => exact .pure c
  | cons p ps ih =>
    refine .bind (succeeds_grantAll h fun g hg => Expansion.suits_of_mem_grants hg) fun c₁ h₁ => ?_
    exact ih (h.grantAll h₁)

end Cache

namespace Store

variable {s : Store}

/-! ## Reads -/

/-- A read of the hierarchy: a look-up, or a list of what lies in or below something. -/
inductive Query where
  | environment (id : ResourceId)
  | tenant (id : ResourceId)
  | ods (id : ResourceId)
  | edOrg (id : ResourceId)
  | tenantsOf (environment : ResourceId)
  | edOrgsOf (ods : ResourceId)
  | below (edOrg : ResourceId)

/-- The read succeeds, whether or not it finds anything. -/
def Answers (s : Store) : Query → Prop
  | .environment id => Succeeds (s.environment? id)
  | .tenant id => Succeeds (s.tenant? id)
  | .ods id => Succeeds (s.ods? id)
  | .edOrg id => Succeeds (s.edOrg? id)
  | .tenantsOf id => Succeeds (s.listTenants id .unrestricted)
  | .edOrgsOf id => Succeeds (s.listOdsEdOrgs id)
  | .below id => Succeeds (s.listDescendants id)

/-- **What has to be read of the way up from an ODS**, for a resource that lies in it: what is above
it, as far as it is stored, and under version 2 the ODSs of the organizations that are reached. -/
inductive NeedsAbove (s : Store) (r : ResourceRef) (ods : ResourceId) : Query → Prop
  | ods : NeedsAbove s r ods (.ods ods)
  | tenant {o : Ods} : s.HasOds o → o.id = ods → NeedsAbove s r ods (.tenant o.tenant)
  | environment {o : Ods} {t : Tenant} : s.HasOds o → o.id = ods → s.HasTenant t →
      t.id = o.tenant → NeedsAbove s r ods (.environment t.environment)
  | instances {o : Ods} {t : Tenant} {e : Environment} {x : EdOrg} : s.OdsIn o t e → o.id = ods →
      e.version = .v2 → s.Reaches x r → NeedsAbove s r ods (.ods x.ods)

/-- **What has to be read to expand a resource.** -/
inductive Needs (s : Store) : ResourceRef → Query → Prop
  | environment (n : ResourceId) : Needs s (.environment n) (.environment n)
  | tenantsOf {e : Environment} : s.HasEnvironment e → Needs s (.environment e.id) (.tenantsOf e.id)
  | tenant (n : ResourceId) : Needs s (.tenant n) (.tenant n)
  | aboveTenant {t : Tenant} : s.HasTenant t → Needs s (.tenant t.id) (.environment t.environment)
  | edOrgsOf (n : ResourceId) : Needs s (.ods n) (.edOrgsOf n)
  | aboveOds {n : ResourceId} {q : Query} : s.NeedsAbove (.ods n) n q → Needs s (.ods n) q
  | edOrg (n : ResourceId) : Needs s (.edOrg n) (.edOrg n)
  | below {x : EdOrg} : s.HasEdOrg x → Needs s (.edOrg x.id) (.below x.id)
  | aboveEdOrg {x : EdOrg} {q : Query} : s.HasEdOrg x → s.NeedsAbove (.edOrg x.id) x.ods q →
      Needs s (.edOrg x.id) q

/-! ## Expansions -/

/-- Keys are read if the ODSs are that they need. -/
theorem succeeds_keysOf_iff {version : ApiVersion} {xs : List EdOrg} :
    Succeeds (s.keysOf version xs) ↔ version = .v2 → ∀ x ∈ xs, Succeeds (s.ods? x.ods) := by
  induction xs with
  | nil =>
    refine ⟨fun _ _ x hx => absurd hx List.not_mem_nil, fun _ => .pure []⟩
  | cons x xs ih =>
    have hkey : Succeeds (s.keyOf? version x) ↔ version = .v2 → Succeeds (s.ods? x.ods) := by
      cases version with
      | v1 => exact ⟨fun _ h => (nomatch h), fun _ => .pure _⟩
      | v2 =>
        refine ⟨fun h _ => (succeeds_bind_iff.1 h).1, fun h => ?_⟩
        exact .bind (h rfl) fun _ _ => .pure _
    constructor
    · intro h hversion y hy
      obtain ⟨hx, hrest⟩ := succeeds_bind_iff.1 h
      rcases List.mem_cons.1 hy with rfl | hy
      · exact hkey.1 hx hversion
      · obtain ⟨key, hkey⟩ := hx
        exact ih.1 (succeeds_bind_iff.1 (hrest key hkey)).1 hversion y hy
    · intro h
      refine .bind (hkey.2 fun hversion => h hversion x List.mem_cons_self) fun _ _ => ?_
      refine .bind (ih.2 fun hversion y hy => ?_) fun _ _ => .pure _
      exact h hversion y (List.mem_cons_of_mem _ hy)

/-- **A part of an ODS can be read** if all can that it needs. -/
theorem succeeds_partOf_iff {r : ResourceRef} {ods : ResourceId} {ownsOds : Bool}
    {xs : List EdOrg} (hxs : ∀ x, x ∈ xs ↔ s.Reaches x r) :
    Succeeds (s.partOf ods ownsOds xs) ↔ ∀ q, s.NeedsAbove r ods q → s.Answers q := by
  constructor
  · intro h q hq
    -- Each rule names what the look-ups before it found, and from there the chain went on.
    obtain ⟨hods, h⟩ := succeeds_bind_iff.1 h
    cases hq with
    | ods => exact hods
    | tenant ho hid =>
      exact (succeeds_bind_iff.1 (h _ (ods?_eq_some_iff.2 ⟨ho, hid⟩))).1
    | environment ho hid ht htid =>
      have h := h _ (ods?_eq_some_iff.2 ⟨ho, hid⟩)
      have h := (succeeds_bind_iff.1 h).2 _ (tenant?_eq_some_iff.2 ⟨ht, htid⟩)
      exact (succeeds_bind_iff.1 h).1
    | instances hin hid hversion hx =>
      have h := h _ (ods?_eq_some_iff.2 ⟨hin.hasOds, hid⟩)
      have h := (succeeds_bind_iff.1 h).2 _
        (tenant?_eq_some_iff.2 ⟨hin.tenantIn.hasTenant, hin.eq.symm⟩)
      have h := (succeeds_bind_iff.1 h).2 _
        (environment?_eq_some_iff.2 ⟨hin.tenantIn.hasEnvironment, hin.tenantIn.eq.symm⟩)
      exact succeeds_keysOf_iff.1 (succeeds_bind_iff.1 h).1 hversion _ ((hxs _).2 hx)
  · intro h
    refine .found (h _ .ods) (.pure _) fun o ho => ?_
    obtain ⟨ho, hid⟩ := ods?_eq_some_iff.1 ho
    refine .found (h _ (.tenant ho hid)) (.pure _) fun t ht => ?_
    obtain ⟨ht, htid⟩ := tenant?_eq_some_iff.1 ht
    refine .found (h _ (.environment ho hid ht htid)) (.pure _) fun e he => ?_
    obtain ⟨he, heid⟩ := environment?_eq_some_iff.1 he
    have hin : s.OdsIn o t e := ⟨ho, htid.symm, ht, he, heid.symm⟩
    refine .bind (succeeds_keysOf_iff.2 fun hversion x hx => ?_) fun _ _ => .pure _
    exact h _ (.instances hin hid hversion ((hxs x).1 hx))

/-- **A resource can be expanded** if all can be read that it needs. -/
theorem succeeds_expansion_iff {r : ResourceRef} :
    Succeeds (s.expansion r) ↔ ∀ q, s.Needs r q → s.Answers q := by
  cases r with
  | global => exact ⟨fun _ q hq => (nomatch hq), fun _ => .pure _⟩
  | environment n =>
    constructor
    · intro h q hq
      obtain ⟨hfound, h⟩ := succeeds_bind_iff.1 h
      cases hq with
      | environment => exact hfound
      | tenantsOf he =>
        exact (succeeds_bind_iff.1 (h _ (environment?_eq_some_iff.2 ⟨he, rfl⟩))).1
    · intro h
      refine .found (h _ (.environment n)) (.pure _) fun e hfound => ?_
      obtain ⟨he, rfl⟩ := environment?_eq_some_iff.1 hfound
      exact .bind (h _ (.tenantsOf he)) fun _ _ => .pure _
  | tenant n =>
    constructor
    · intro h q hq
      obtain ⟨hfound, h⟩ := succeeds_bind_iff.1 h
      cases hq with
      | tenant => exact hfound
      | aboveTenant ht => exact (succeeds_bind_iff.1 (h _ (tenant?_eq_some_iff.2 ⟨ht, rfl⟩))).1
    · intro h
      refine .found (h _ (.tenant n)) (.pure _) fun t hfound => ?_
      obtain ⟨ht, rfl⟩ := tenant?_eq_some_iff.1 hfound
      refine .bind (h _ (.aboveTenant ht)) fun e _ => ?_
      cases e <;> exact .pure _
  | ods n =>
    have hpart (xs : List EdOrg) (hxs : s.listOdsEdOrgs n = .ok xs) :
        Succeeds (s.partOf n true xs) ↔ ∀ q, s.NeedsAbove (.ods n) n q → s.Answers q :=
      succeeds_partOf_iff fun _ => mem_of_listOdsEdOrgs hxs
    constructor
    · intro h q hq
      obtain ⟨⟨xs, hxs⟩, h⟩ := succeeds_bind_iff.1 h
      cases hq with
      | edOrgsOf => exact ⟨xs, hxs⟩
      | aboveOds hq => exact (hpart xs hxs).1 (h xs hxs) q hq
    · intro h
      exact .bind (h _ (.edOrgsOf n)) fun xs hxs => (hpart xs hxs).2 fun q hq => h q (.aboveOds hq)
  | edOrg n =>
    have hpart (root : EdOrg) (hroot : s.HasEdOrg root) (below : List EdOrg)
        (hbelow : s.listDescendants root.id = .ok below) :
        Succeeds (s.partOf root.ods false (withRoot root below)) ↔
          ∀ q, s.NeedsAbove (.edOrg root.id) root.ods q → s.Answers q :=
      succeeds_partOf_iff fun _ => mem_withRoot_iff hroot fun _ => mem_of_listDescendants hbelow
    constructor
    · intro h q hq
      obtain ⟨hfound, h⟩ := succeeds_bind_iff.1 h
      cases hq with
      | edOrg => exact hfound
      | below hx => exact (succeeds_bind_iff.1 (h _ (edOrg?_eq_some_iff.2 ⟨hx, rfl⟩))).1
      | aboveEdOrg hx hq =>
        obtain ⟨⟨below, hbelow⟩, h⟩ := succeeds_bind_iff.1 (h _ (edOrg?_eq_some_iff.2 ⟨hx, rfl⟩))
        exact (hpart _ hx below hbelow).1 (h below hbelow) q hq
    · intro h
      refine .found (h _ (.edOrg n)) (.pure _) fun root hfound => ?_
      obtain ⟨hroot, rfl⟩ := edOrg?_eq_some_iff.1 hfound
      refine .bind (h _ (.below hroot)) fun below hbelow => ?_
      exact (hpart root hroot below hbelow).2 fun q hq => h q (.aboveEdOrg hroot hq)

/-! ## Roles -/

/-- **A role can be read** under the id: it is stored, with a text as its name, for every team or
for one, and every code of its privileges is one of the catalog. -/
def ReadsRole (s : Store) (id : RoleId) : Prop :=
  ∃ t, s.roles = some t ∧ ∃ r, r ∈ t.rows ∧ r.id = id ∧ (∃ name : String, r.name = .text name) ∧
    (∃ scope : RoleScope, r.team = scope.team?.map .int) ∧
    Filled s.privileges fun p =>
      p.role.equals id = true → ∃ privilege : Privilege, p.code = .text privilege.code

/-- A code is read if it is in the catalog. -/
theorem succeeds_parse_iff {code : String} :
    Succeeds (Privilege.parse code) ↔ ∃ p : Privilege, code = p.code := by
  simp only [← Privilege.ofCode?_eq_some_iff, Privilege.parse]
  cases Privilege.ofCode? code with
  | none => simp [Succeeds]
  | some p => simp [Succeeds]

/-- A list of codes is read if they are texts of the catalog. -/
theorem succeeds_codes_iff {rows : List PrivilegeRow} :
    Succeeds (rows.mapM (fun r => r.code.load) >>= Privilege.parseAll) ↔
      ∀ r ∈ rows, ∃ p : Privilege, r.code = .text p.code := by
  constructor
  · rintro h r hr
    obtain ⟨⟨codes, hcodes⟩, h⟩ := succeeds_bind_iff.1 h
    obtain ⟨code, hcode⟩ := exists_of_mapM_eq_ok hcodes hr
    have hmem : code ∈ codes := (mem_iff_of_mapM_eq_ok hcodes).2 ⟨r, hr, hcode⟩
    obtain ⟨p, rfl⟩ := succeeds_parse_iff.1 (succeeds_mapM_iff.1 (h codes hcodes) code hmem)
    exact ⟨p, TextCell.load_eq_ok_iff.1 hcode⟩
  · intro h
    have hcode (r : PrivilegeRow) (hr : r ∈ rows) :
        ∃ p : Privilege, r.code.load = .ok p.code := by
      obtain ⟨p, hp⟩ := h r hr
      exact ⟨p, TextCell.load_eq_ok_iff.2 hp⟩
    refine .bind (.mapM fun r hr => ?_) fun codes hcodes => .mapM fun code hmem => ?_
    · obtain ⟨p, hp⟩ := hcode r hr
      exact ⟨_, hp⟩
    · obtain ⟨r, hr, hread⟩ := (mem_iff_of_mapM_eq_ok hcodes).1 hmem
      obtain ⟨p, hp⟩ := hcode r hr
      exact succeeds_parse_iff.2 ⟨p, Except.ok.inj (hread.symm.trans hp)⟩

/-- A role's privileges are read if all their codes are of the catalog. -/
theorem succeeds_loadPrivileges_iff {id : RoleId} : Succeeds (s.loadPrivileges id) ↔
    Filled s.privileges fun p =>
      p.role.equals id = true → ∃ privilege : Privilege, p.code = .text privilege.code := by
  have hchain : s.loadPrivileges id = need s.privileges >>= fun rows =>
      ((rows.rows.filter fun r => r.role.equals id).mapM (fun r => r.code.load) >>=
        Privilege.parseAll) >>= fun ps => pure (Index.ofList ps) := by
    simp only [loadPrivileges, bind_assoc]
  have hcodes (rows : Index PrivilegeRow.key) :
      Succeeds ((rows.rows.filter fun r => r.role.equals id).mapM (fun r => r.code.load) >>=
        Privilege.parseAll) ↔
          ∀ r ∈ rows, r.role.equals id = true → ∃ p : Privilege, r.code = .text p.code := by
    simp only [succeeds_codes_iff, List.mem_filter, and_imp, Index.mem_def]
  rw [hchain]
  constructor
  · intro h
    obtain ⟨⟨rows, hrows⟩, h⟩ := succeeds_bind_iff.1 h
    exact ⟨rows, need_eq_ok_iff.1 hrows, (hcodes rows).1 (succeeds_bind_iff.1 (h rows hrows)).1⟩
  · rintro ⟨rows, hrows, hall⟩
    refine succeeds_need_bind hrows ?_
    exact .bind ((hcodes rows).2 hall) fun _ _ => .pure _

/-- **A role is found just if it can be read.** -/
theorem exists_hasRole_iff {id : RoleId} :
    (∃ role, s.HasRole role ∧ role.id = id) ↔ s.ReadsRole id := by
  have hname (r : RoleRow) : Succeeds r.name.load ↔ ∃ name : String, r.name = .text name := by
    simp only [Succeeds, TextCell.load_eq_ok_iff]
  have hscope (r : RoleRow) :
      Succeeds r.loadScope ↔ ∃ scope : RoleScope, r.team = scope.team?.map .int := by
    constructor
    · rintro ⟨scope, h⟩
      obtain ⟨team?, hteam, -⟩ := bind_eq_ok_iff.1 h
      refine ⟨.ofTeam? team?, ?_⟩
      rw [IntCell.load?_eq_ok_iff.1 hteam]
      cases team? <;> rfl
    · rintro ⟨scope, h⟩
      exact .bind ⟨scope.team?, IntCell.load?_eq_ok_iff.2 h⟩ fun _ _ => .pure _
  have hload (r : RoleRow) : Succeeds (s.loadRole r) ↔
      Succeeds r.name.load ∧ Succeeds r.loadScope ∧ Succeeds (s.loadPrivileges r.id) := by
    constructor
    · intro h
      obtain ⟨⟨name, hname⟩, h⟩ := succeeds_bind_iff.1 h
      obtain ⟨⟨scope, hscope⟩, h⟩ := succeeds_bind_iff.1 (h name hname)
      exact ⟨⟨name, hname⟩, ⟨scope, hscope⟩, (succeeds_bind_iff.1 (h scope hscope)).1⟩
    · rintro ⟨hname, hscope, hprivileges⟩
      exact .bind hname fun _ _ => .bind hscope fun _ _ => .bind hprivileges fun _ _ => .pure _
  simp only [hname, hscope, succeeds_loadPrivileges_iff] at hload
  constructor
  · rintro ⟨role, ⟨t, ht, r, hr, hrole⟩, rfl⟩
    rw [loadRole_id hrole]
    exact ⟨t, ht, r, hr, rfl, (hload r).1 ⟨role, hrole⟩⟩
  · rintro ⟨t, ht, r, hr, rfl, hreads⟩
    obtain ⟨role, hrole⟩ := (hload r).2 hreads
    exact ⟨role, ⟨t, ht, r, hr, hrole⟩, loadRole_id hrole⟩

/-! ## Builds -/

/-- **What a build of a team's cache needs.** -/
structure Buildable (s : Store) (team : TeamId) : Prop where
  /-- The team's ownerships can be listed, and each of them can be read. -/
  listed : ∃ t, s.ownerships = some t ∧ ∀ r ∈ t.rows, r.team.equals team = true →
    ∃ o, r.load s.now = .ok o
  /-- The role of each can be read. -/
  roles : ∀ o, s.HasOwnership o → o.team = team → s.ReadsRole o.role
  /-- What the resource of each needs can be read, if the team may use the role. -/
  resources : ∀ o role, s.HasOwnership o → o.team = team → s.HasRole role → role.id = o.role →
    role.scope = .global ∨ role.scope = .team team → ∀ q, s.Needs o.resource q → s.Answers q

/-- An ownership can be added to a cache if its role is found and what it needs can be read. -/
theorem succeeds_addTo_iff {c : Cache} (hc : c.Fits) {o : Ownership} :
    Succeeds (s.addTo c o) ↔ ∃ role, s.role? o.role = .ok (some role) ∧
      (role.scope.admits c.team = true → Succeeds (s.expansion o.resource)) := by
  constructor
  · intro h
    obtain ⟨⟨found, hfound⟩, h⟩ := succeeds_bind_iff.1 h
    have h := h found hfound
    cases found with
    | none =>
      obtain ⟨_, h⟩ := h
      cases h
    | some role =>
      refine ⟨role, hfound, fun hadmits => ?_⟩
      dsimp only at h
      rw [if_pos hadmits] at h
      exact (succeeds_bind_iff.1 h).1
  · rintro ⟨role, hrole, hexpansion⟩
    refine .bind ⟨_, hrole⟩ fun found hfound => ?_
    obtain rfl := Except.ok.inj (hrole.symm.trans hfound)
    dsimp only
    split
    · rename_i hadmits
      exact .bind (hexpansion hadmits) fun _ _ => Cache.succeeds_addExpansion hc
    · exact .pure c

/-- Ownerships can be added one after the other if each of them can. What was added before only
matters to the cache, whose team and shapes stay. -/
theorem succeeds_foldlM_addTo_iff {team : TeamId} {os : List Ownership} {c : Cache} (hc : c.Fits)
    (hteam : c.team = team) : Succeeds (os.foldlM s.addTo c) ↔ ∀ o ∈ os, ∃ role,
      s.role? o.role = .ok (some role) ∧
      (role.scope.admits team = true → Succeeds (s.expansion o.resource)) := by
  induction os generalizing c with
  | nil => exact ⟨fun _ o ho => absurd ho List.not_mem_nil, fun _ => .pure c⟩
  | cons o os ih =>
    have hadd := succeeds_addTo_iff (s := s) hc (o := o)
    rw [hteam] at hadd
    have hrest (c₁ : Cache) (h₁ : s.addTo c o = .ok c₁) := by
      obtain ⟨hteam₁, hfits₁, -⟩ := addTo_spec hc h₁
      exact ih hfits₁ (hteam₁.trans hteam)
    rw [List.foldlM_cons, succeeds_bind_iff, hadd, List.forall_mem_cons]
    refine and_congr_right fun ho => ?_
    obtain ⟨c₁, h₁⟩ := hadd.2 ho
    constructor
    · intro h
      exact (hrest c₁ h₁).1 (h c₁ h₁)
    · intro h c₂ h₂
      exact (hrest c₂ h₂).2 h

/-- **A build succeeds just if all can be read that it needs.** Roles of other teams and resources
that are missing are passed over, but nothing that cannot be read is. -/
theorem succeeds_buildCache_iff {team : TeamId} :
    Succeeds (s.buildCache team) ↔ s.Buildable team := by
  rw [buildCache_eq, succeeds_bind_iff]
  have hfold {os : List Ownership} : Succeeds (os.foldlM s.addTo (.empty team)) ↔ _ :=
    succeeds_foldlM_addTo_iff Cache.fits_empty rfl
  constructor
  · rintro ⟨⟨os, hos⟩, h⟩
    have hadds := hfold.1 (h os hos)
    have hmem {o : Ownership} := mem_of_listOwnerships hos (o := o)
    refine ⟨?_, fun o ho hteam => ?_, fun o role ho hteam hrole hid hscope q hq => ?_⟩
    · obtain ⟨t, ht, hread⟩ := listOwnerships_eq_ok_iff.1 hos
      refine ⟨t, ht, fun r hr hteam => ?_⟩
      exact exists_of_mapM_eq_ok hread (List.mem_filter.2 ⟨hr, hteam⟩)
    · obtain ⟨role, hrole, -⟩ := hadds o (hmem.2 ⟨ho, hteam⟩)
      exact exists_hasRole_iff.1 ⟨role, role?_eq_some_iff.1 hrole⟩
    · obtain ⟨role', hrole', hexpansion⟩ := hadds o (hmem.2 ⟨ho, hteam⟩)
      obtain ⟨hrole', hid'⟩ := role?_eq_some_iff.1 hrole'
      obtain rfl := hrole.unique hrole' (hid.trans hid'.symm)
      exact succeeds_expansion_iff.1 (hexpansion (RoleScope.admits_iff.2 hscope)) q hq
  · rintro ⟨⟨t, ht, hrows⟩, hroles, hresources⟩
    have hlist : Succeeds (s.listOwnerships team) := by
      obtain ⟨os, hos⟩ : Succeeds
          ((t.rows.rows.filter fun r => r.team.equals team).mapM fun r => r.load s.now) := by
        refine .mapM fun r hr => ?_
        obtain ⟨hr, hteam⟩ := List.mem_filter.1 hr
        exact hrows r hr hteam
      exact ⟨os, listOwnerships_eq_ok_iff.2 ⟨t, ht, hos⟩⟩
    refine ⟨hlist, fun os hos => hfold.2 fun o ho => ?_⟩
    obtain ⟨ho, hteam⟩ := (mem_of_listOwnerships hos).1 ho
    obtain ⟨role, hrole, hid⟩ := exists_hasRole_iff.2 (hroles o ho hteam)
    refine ⟨role, role?_eq_some_iff.2 ⟨hrole, hid⟩, fun hadmits => ?_⟩
    exact succeeds_expansion_iff.2
      (hresources o role ho hteam hrole hid (RoleScope.admits_iff.1 hadmits))

end Store

end TeamAccess
