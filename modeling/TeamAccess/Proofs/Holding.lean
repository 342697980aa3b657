import TeamAccess.Proofs.Contribution

/-!
# Holdings — what a team has through its ownerships

A team holds a privilege over a resource if one of its ownerships is of the resource, with a role
that the team may use and that has the privilege. Built caches are put in these terms here, so that
what a team may do is read off the stored ownerships and the hierarchy, without a word on how caches
are built.
-/

namespace TeamAccess

/-- A team may use the roles for every team and its own. -/
theorem RoleScope.admits_iff {scope : RoleScope} {team : TeamId} :
    scope.admits team = true ↔ scope = .global ∨ scope = .team team := by
  cases scope <;> simp [admits]

namespace Store

variable {s : Store}

/-- The ownership's role is stored, the team may use it, and it has the privilege. -/
def Lends (s : Store) (team : TeamId) (role : RoleId) (p : Privilege) : Prop :=
  ∃ r, s.HasRole r ∧ r.id = role ∧ r.scope.admits team = true ∧ p ∈ r.privileges

/-- The team holds the privilege over the resource: one of its ownerships is of the resource, with
a role that has the privilege. -/
def Holds (s : Store) (team : TeamId) (p : Privilege) (r : ResourceRef) : Prop :=
  ∃ o, s.HasOwnership o ∧ o.team = team ∧ s.Lends team o.role p ∧ o.resource = r

/-- One id, one role. -/
theorem HasRole.unique {r r' : Role} (h : s.HasRole r) (h' : s.HasRole r') (hid : r.id = r'.id) :
    r = r' :=
  Option.some.inj (Except.ok.inj
    ((role?_eq_some_iff.2 ⟨h, rfl⟩).symm.trans (role?_eq_some_iff.2 ⟨h', hid.symm⟩)))

/-- The privileges that a stored role lends are its own, if the team may use it. -/
theorem HasRole.lends_iff {team : TeamId} {r : Role} {p : Privilege} (h : s.HasRole r) :
    s.Lends team r.id p ↔ r.scope.admits team = true ∧ p ∈ r.privileges := by
  constructor
  · rintro ⟨r', hr', hid, hadmits, hp⟩
    obtain rfl := hr'.unique h hid
    exact ⟨hadmits, hp⟩
  · rintro ⟨hadmits, hp⟩
    exact ⟨r, h, rfl, hadmits, hp⟩

/-- The team holds the privilege over the resource, and has no other ownership. -/
def HoldsOnly (s : Store) (team : TeamId) (p : Privilege) (r : ResourceRef) : Prop :=
  ∃ o, s.listOwnerships team = .ok [o] ∧ s.Lends team o.role p ∧ o.resource = r

/-- What is held alone is all that is held. -/
theorem HoldsOnly.holds_iff {team : TeamId} {p : Privilege} {r r' : ResourceRef}
    (h : s.HoldsOnly team p r) : s.Holds team p r' ↔ r' = r := by
  obtain ⟨o, hlist, hlends, rfl⟩ := h
  have hmem : ∀ o', s.HasOwnership o' ∧ o'.team = team ↔ o' = o := by
    intro o'
    rw [← mem_of_listOwnerships hlist, List.mem_singleton]
  constructor
  · rintro ⟨o', hhas, hteam, -, rfl⟩
    rw [(hmem o').1 ⟨hhas, hteam⟩]
  · rintro rfl
    obtain ⟨hhas, hteam⟩ := (hmem o).2 rfl
    exact ⟨o, hhas, hteam, hlends, rfl⟩

/-- The team has one ownership, by a stored role of the resource. -/
structure OwnsOnly (s : Store) (team : TeamId) (role : Role) (r : ResourceRef) : Prop where
  hasRole : s.HasRole role
  listed : ∃ o, s.listOwnerships team = .ok [o] ∧ o.role = role.id ∧ o.resource = r

namespace OwnsOnly

variable {team : TeamId} {role : Role} {r r' : ResourceRef} {p : Privilege}

/-- What the role lends is held over the resource alone. -/
theorem holdsOnly (h : s.OwnsOnly team role r) (hp : s.Lends team role.id p) :
    s.HoldsOnly team p r := by
  obtain ⟨o, hlist, hrole, hresource⟩ := h.listed
  exact ⟨o, hlist, hrole ▸ hp, hresource⟩

/-- What is held is what the role has, if the team may use it, and over the resource alone. -/
theorem holds_iff (h : s.OwnsOnly team role r) : s.Holds team p r' ↔
    (role.scope.admits team = true ∧ p ∈ role.privileges) ∧ r' = r := by
  rw [← h.hasRole.lends_iff]
  constructor
  · rintro ⟨o', hhas, hteam, hlends, rfl⟩
    obtain ⟨o, hlist, hrole, hresource⟩ := h.listed
    obtain rfl := List.mem_singleton.1 ((mem_of_listOwnerships hlist).2 ⟨hhas, hteam⟩)
    exact ⟨hrole ▸ hlends, hresource⟩
  · rintro ⟨hlends, rfl⟩
    exact (h.holdsOnly hlends).holds_iff.2 rfl

end OwnsOnly

/-! ## Built caches -/

/-- **What an ownership adds to a cache**: what its resource contributes, for the privileges that
its role lends. -/
theorem addTo_spec {c c' : Cache} {o : Ownership} (hc : c.Fits) (h : s.addTo c o = .ok c') :
    c'.team = c.team ∧ c'.Fits ∧ ∀ p pl d, pl.shape = p.shape → (c'.Gives p pl d ↔
      c.Gives p pl d ∨ s.Lends c.team o.role p ∧ s.Contributes p pl o.resource d) := by
  obtain ⟨role?, hrole, h⟩ := bind_eq_ok_iff.1 h
  cases role? with
  | none => cases h
  | some role =>
    obtain ⟨hhas, hid⟩ := role?_eq_some_iff.1 hrole
    dsimp only at h
    split at h
    · rename_i hadmits
      obtain ⟨x, hx, h⟩ := bind_eq_ok_iff.1 h
      refine ⟨Cache.team_of_addExpansion h, hc.addExpansion h, fun p pl d hpl => ?_⟩
      rw [Cache.gives_of_addExpansion hc h, exists_grant_iff (expands_of_expansion hx) hpl, ← hid,
        hhas.lends_iff, Index.mem_def]
      simp [hpl, hadmits]
    · -- A role of another team lends nothing.
      rename_i hadmits
      cases h
      refine ⟨rfl, hc, fun p pl d _ => ?_⟩
      rw [← hid, hhas.lends_iff]
      simp [hadmits]

/-- What ownerships add to a cache one after the other is what each of them adds. -/
theorem foldlM_addTo_spec {c c' : Cache} {os : List Ownership} (hc : c.Fits)
    (h : os.foldlM s.addTo c = .ok c') :
    c'.team = c.team ∧ c'.Fits ∧ ∀ p pl d, pl.shape = p.shape → (c'.Gives p pl d ↔
      c.Gives p pl d ∨ ∃ o ∈ os, s.Lends c.team o.role p ∧ s.Contributes p pl o.resource d) := by
  induction os generalizing c with
  | nil =>
    cases h
    exact ⟨rfl, hc, by simp⟩
  | cons o os ih =>
    obtain ⟨c₁, h₁, h₂⟩ := bind_eq_ok_iff.1 h
    obtain ⟨hteam₁, hfits₁, hgives₁⟩ := addTo_spec hc h₁
    obtain ⟨hteam, hfits, hgives⟩ := ih hfits₁ h₂
    refine ⟨hteam.trans hteam₁, hfits, fun p pl d hpl => ?_⟩
    rw [hgives p pl d hpl, hgives₁ p pl d hpl, hteam₁, List.exists_mem_cons_iff, or_assoc]

/-- **A built cache gives what the ownerships of its team contribute**, and is in the shape of the
catalog. -/
theorem buildCache_spec {team : TeamId} {c : Cache} (h : s.buildCache team = .ok c) :
    c.team = team ∧ c.Fits ∧ ∀ p pl d, pl.shape = p.shape →
      (c.Gives p pl d ↔ ∃ r, s.Holds team p r ∧ s.Contributes p pl r d) := by
  rw [buildCache_eq] at h
  obtain ⟨os, hos, h⟩ := bind_eq_ok_iff.1 h
  obtain ⟨hteam, hfits, hgives⟩ := foldlM_addTo_spec Cache.fits_empty h
  refine ⟨hteam, hfits, fun p pl d hpl => ?_⟩
  rw [hgives p pl d hpl]
  constructor
  · rintro (hno | ⟨o, ho, hlends, hd⟩)
    · exact absurd hno Cache.not_gives_empty
    · obtain ⟨hhas, rfl⟩ := (mem_of_listOwnerships hos).1 ho
      exact ⟨o.resource, ⟨o, hhas, rfl, hlends, rfl⟩, hd⟩
  · rintro ⟨_, ⟨o, hhas, rfl, hlends, rfl⟩, hd⟩
    exact .inr ⟨o, (mem_of_listOwnerships hos).2 ⟨hhas, rfl⟩, hlends, hd⟩

/-- A request that gets anything from a built cache names a place. -/
theorem exists_place_of_gives_extract {team : TeamId} {c : Cache} (h : s.buildCache team = .ok c)
    {p : Privilege} {q : ScopeParams} {d : Demand} (hd : (c.extract p q).Gives d) :
    ∃ pl, q.place? p.shape = some pl := by
  obtain ⟨-, hfits, -⟩ := buildCache_spec h
  obtain ⟨pl, hpl, -⟩ := (Cache.gives_extract hfits).1 hd
  exact ⟨pl, hpl⟩

/-- What a request that names a place gets from a built cache is what the cache gives there. -/
theorem gives_extract_of_place {team : TeamId} {c : Cache} (h : s.buildCache team = .ok c)
    {p : Privilege} {q : ScopeParams} {pl : Place} (hpl : q.place? p.shape = some pl) {d : Demand} :
    (c.extract p q).Gives d ↔ ∃ r, s.Holds team p r ∧ s.Contributes p pl r d := by
  obtain ⟨-, hfits, hgives⟩ := buildCache_spec h
  rw [Cache.gives_extract hfits, ← hgives p pl d (ScopeParams.shape_of_place? hpl)]
  simp [hpl]

/-- **What a request gets from a built cache** is the union of what the resources contribute, at
the place that the request asks about, over which the team holds the privilege. As an id set is
what it gives, this says which set is extracted, for every privilege and every request. -/
theorem gives_extract_buildCache_iff {team : TeamId} {c : Cache} (h : s.buildCache team = .ok c)
    (p : Privilege) (q : ScopeParams) (d : Demand) :
    (c.extract p q).Gives d ↔ ∃ pl, q.place? p.shape = some pl ∧
      ∃ r, s.Holds team p r ∧ s.Contributes p pl r d := by
  obtain ⟨-, hfits, hgives⟩ := buildCache_spec h
  rw [Cache.gives_extract hfits]
  constructor
  · rintro ⟨pl, hpl, hd⟩
    exact ⟨pl, hpl, (hgives p pl d (ScopeParams.shape_of_place? hpl)).1 hd⟩
  · rintro ⟨pl, hpl, hd⟩
    exact ⟨pl, hpl, (hgives p pl d (ScopeParams.shape_of_place? hpl)).2 hd⟩

/-- A store with one tenant, whose environment a team may read as it owns the tenant. -/
def oneTenant : Store where
  now := .epoch
  environments := some (Index.single ⟨1, "East", "v1"⟩)
  tenants := some (Index.single ⟨2, .int 1, "North"⟩)
  odss := some Index.empty
  edOrgs := some Index.empty
  closure := some Index.empty
  teams := some ⟨Index.single ⟨3, "Wardens"⟩, 3⟩
  roles := some ⟨Index.single ⟨4, "Reader", none⟩, 4⟩
  privileges := some (Index.single ⟨.int 4, "team.sb-environment:read"⟩)
  ownerships := some ⟨Index.single ⟨5, .int 3, .int 4, "tenant", some (.int 2), some "today"⟩, 5⟩

theorem oneTenant_holds : oneTenant.Holds 3 .environmentRead (.tenant 2) := by
  refine ⟨⟨5, 3, 4, .tenant 2, .epoch⟩, ⟨_, rfl, _, Index.mem_single.2 rfl, rfl⟩, rfl, ?_, rfl⟩
  exact ⟨_, ⟨_, rfl, _, Index.mem_single.2 rfl, rfl⟩, rfl, rfl, by decide⟩

theorem oneTenant_contributes :
    oneTenant.Contributes .environmentRead .whole (.tenant 2) (.entry (.id 1)) := by
  have htenant : oneTenant.HasTenant ⟨2, 1, "North"⟩ := ⟨_, rfl, Index.mem_single.2 rfl⟩
  have henvironment : oneTenant.HasEnvironment ⟨1, "East", .v1⟩ := ⟨_, rfl, Index.mem_single.2 rfl⟩
  exact .aboveTenant ⟨htenant, henvironment, rfl⟩ rfl rfl

/-- The owner of the one tenant gets its environment for reading. -/
theorem oneTenant_extracts_environment : ∃ c, oneTenant.buildCache 3 = .ok c ∧
    (c.extract .environmentRead ⟨none, none⟩).Gives (.entry (.id 1)) := by
  refine ⟨_, rfl, ?_⟩
  exact (gives_extract_buildCache_iff rfl .environmentRead ⟨none, none⟩ (.entry (.id 1))).2
    ⟨.whole, rfl, .tenant 2, oneTenant_holds, oneTenant_contributes⟩

end Store

end TeamAccess
