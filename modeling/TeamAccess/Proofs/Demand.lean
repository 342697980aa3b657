import TeamAccess.Build
import TeamAccess.Index.Lemmas
import TeamAccess.Proofs.Fallible

/-!
# Demands — id sets, entries and caches by what they give

An id set gives single entries, or everything at once. A `Demand` is either, so that one relation
says what a set, an entry of a cache or a whole cache gives, and taking unions is taking
disjunctions: an id set is determined by what it gives (`IdSet.ext_gives`), a union gives what
either set gives, and a grant adds to a cache just what the grant gives (`Cache.gives_of_grant`).
Where a cache files ids of a privilege is a `Place`.
-/

namespace TeamAccess

/-- What an id set can be asked for. -/
inductive Demand where
  /-- Everything there is, and whatever is added later. -/
  | everything
  /-- One entry. -/
  | entry (k : AccessKey)
  deriving DecidableEq

namespace IdSet

/-- The id set has what is demanded. -/
def Gives : IdSet → Demand → Prop
  | all, _ => True
  | only _, .everything => False
  | only ks, .entry k => k ∈ ks

variable {a b : IdSet} {d : Demand} {k : AccessKey}

@[simp] theorem gives_all : all.Gives d := trivial

@[simp] theorem not_gives_empty : ¬ empty.Gives d := by
  cases d with
  | everything => exact id
  | entry k => exact Index.not_mem_empty

/-- What a set has is the entries that it gives. -/
@[simp] theorem has_iff : a.has k = true ↔ a.Gives (.entry k) := by
  cases a <;> simp [has, Gives]

/-- Only the set of everything gives everything. -/
@[simp] theorem gives_everything_iff : a.Gives .everything ↔ a = all := by
  cases a <;> simp [Gives]

@[simp] theorem isAll_iff : a.isAll = true ↔ a = all := by cases a <;> simp [isAll]

/-- An empty set gives nothing. -/
theorem not_gives_of_isEmpty (h : a.isEmpty = true) : ¬ a.Gives d := by
  cases a with
  | all => cases h
  | only ks =>
    cases d with
    | everything => exact id
    | entry k => exact Index.isEmpty_iff.1 h k

/-- **A union gives what either set gives.** -/
@[simp] theorem gives_union : (a.union b).Gives d ↔ a.Gives d ∨ b.Gives d := by
  cases a with
  | all => simp [union]
  | only ks =>
    cases b with
    | all => simp [union]
    | only js =>
      cases d with
      | everything => simp [union]
      | entry k =>
        simp only [union, Gives, Index.mem_union, Index.hasKey_eq_false_iff]
        constructor
        · rintro (h | ⟨h, -⟩)
          · exact .inl h
          · exact .inr h
        · rintro (h | h)
          · exact .inl h
          · by_cases hk : k ∈ ks
            · exact .inl hk
            · exact .inr ⟨h, fun r hr he => hk (he ▸ hr)⟩

/-- A set of entries gives each of them. -/
@[simp] theorem gives_ofKeys {ks : List AccessKey} :
    (ofKeys ks).Gives d ↔ ∃ k ∈ ks, d = .entry k := by
  cases d <;> simp [ofKeys, Gives]

/-- A set of ids gives each of them. -/
@[simp] theorem gives_ofIds {ns : List ResourceId} :
    (ofIds ns).Gives d ↔ ∃ n ∈ ns, d = .entry (.id n) := by
  simp [ofIds]

/-- The set of one id gives it. -/
@[simp] theorem gives_one {n : ResourceId} : (one n).Gives d ↔ d = .entry (.id n) := by
  cases d <;> simp [one, Gives]

/-- **An id set is what it gives.** -/
theorem ext_gives (h : ∀ d, a.Gives d ↔ b.Gives d) : a = b := by
  cases a with
  | all => exact (gives_everything_iff.1 ((h .everything).1 gives_all)).symm
  | only ks =>
    cases b with
    | all => exact gives_everything_iff.1 ((h .everything).2 gives_all)
    | only js => exact congrArg only (Index.ext_mem fun k => h (.entry k))

end IdSet

/-! ## Scopes -/

namespace ScopedIds

variable {s : ScopedIds} {scope t : ResourceId} {ids : IdSet} {d : Demand}

@[simp] theorem gives_get_grantAll : (s.grantAll.get t).Gives d := trivial

@[simp] theorem not_gives_get_empty : ¬ (empty.get t).Gives d := IdSet.not_gives_empty

/-- Nothing in any scope is nothing in each. -/
theorem not_gives_of_isEmpty (h : s.isEmpty = true) : ¬ (s.get t).Gives d := by
  obtain ⟨everywhere, scopes⟩ := s
  simp only [isEmpty, Bool.and_eq_true, Bool.not_eq_true'] at h
  obtain ⟨rfl, hnil⟩ := h
  obtain rfl : scopes = Index.empty := Index.ext (List.isEmpty_iff.1 hnil)
  exact not_gives_get_empty

/-- **A grant in a scope adds to that scope alone.** -/
theorem gives_grant :
    ((s.grant scope ids).get t).Gives d ↔ (s.get t).Gives d ∨ t = scope ∧ ids.Gives d := by
  obtain ⟨everywhere, scopes⟩ := s
  cases everywhere with
  | true => simp [grant, get]
  | false =>
    cases hempty : ids.isEmpty with
    | true => simp [grant, hempty, IdSet.not_gives_of_isEmpty hempty]
    | false =>
      by_cases hts : t = scope
      · subst hts
        simp [grant, hempty, get, KeyMap.get?_put]
      · simp [grant, hempty, get, KeyMap.get?_put, hts]

end ScopedIds

/-! ## Entries -/

/-- Where ids of a privilege are filed. -/
inductive Place where
  /-- Once for the team. -/
  | whole
  | environment (id : ResourceId)
  | tenant (id : ResourceId)
  deriving DecidableEq

/-- The shape of privileges whose ids are filed there. -/
def Place.shape : Place → Shape
  | whole => .unscoped
  | environment _ => .byEnvironment
  | tenant _ => .byTenant

/-- The place that a request asks about, for a privilege of a shape. -/
def ScopeParams.place? (q : ScopeParams) : Shape → Option Place
  | .unscoped => some .whole
  | .byEnvironment => q.environment.map .environment
  | .byTenant => q.tenant.map .tenant

/-- A request asks about a place of the privilege's shape. -/
theorem ScopeParams.shape_of_place? {q : ScopeParams} {shape : Shape} {pl : Place}
    (h : q.place? shape = some pl) : pl.shape = shape := by
  cases shape with
  | unscoped => cases h; rfl
  | byEnvironment =>
    obtain ⟨_, -, rfl⟩ := Option.map_eq_some_iff.1 h
    rfl
  | byTenant =>
    obtain ⟨_, -, rfl⟩ := Option.map_eq_some_iff.1 h
    rfl

/-- The entry has what is demanded at a place. -/
def CacheEntry.Gives : CacheEntry → Place → Demand → Prop
  | unscoped ids, .whole, d => ids.Gives d
  | byEnvironment ids, .environment e, d => (ids.get e).Gives d
  | byTenant ids, .tenant t, d => (ids.get t).Gives d
  | _, _, _ => False

/-- The grant has what is demanded at a place. -/
def Grant.Gives : Grant → Place → Demand → Prop
  | .everything, _, _ => True
  | .ids more, .whole, d => more.Gives d
  | .within scope more, .environment e, d => e = scope ∧ more.Gives d
  | .within scope more, .tenant t, d => t = scope ∧ more.Gives d
  | _, _, _ => False

namespace Grant

variable {g g' : Grant} {pl : Place} {d : Demand} {n : ResourceId} {m : IdSet}

/-- A grant is made where the action is to read. -/
@[simp] theorem mem_ifSafe {a : Action} : g' ∈ ifSafe a g ↔ a = .read ∧ g' = g := by
  cases a <;> simp [ifSafe, Action.isSafe]

/-- Ids without scopes are given once for the team. -/
theorem gives_ids_iff : (ids m).Gives pl d ↔ pl = .whole ∧ m.Gives d := by
  cases pl <;> simp [Gives]

/-- Ids within a scope, of a privilege by environment, are given in that environment. -/
theorem gives_within_environment_iff (hpl : pl.shape = .byEnvironment) :
    (within n m).Gives pl d ↔ pl = .environment n ∧ m.Gives d := by
  cases pl <;> simp_all [Gives, Place.shape]

/-- Ids within a scope, of a privilege by tenant, are given in that tenant. -/
theorem gives_within_tenant_iff (hpl : pl.shape = .byTenant) :
    (within n m).Gives pl d ↔ pl = .tenant n ∧ m.Gives d := by
  cases pl <;> simp_all [Gives, Place.shape]

end Grant

namespace CacheEntry

variable {e e' : CacheEntry} {g : Grant} {pl : Place} {d : Demand} {shape : Shape}

@[simp] theorem shape_blank : (blank shape).shape = shape := by cases shape <;> rfl

/-- A blank entry gives nothing. -/
@[simp] theorem not_gives_blank : ¬ (blank shape).Gives pl d := by
  cases shape <;> cases pl <;> simp [blank, Gives]

/-- An empty entry gives nothing. -/
theorem not_gives_of_isEmpty (h : e.isEmpty = true) : ¬ e.Gives pl d := by
  cases e with
  | unscoped ids => cases pl <;> simp [Gives, IdSet.not_gives_of_isEmpty h]
  | byEnvironment ids => cases pl <;> simp [Gives, ScopedIds.not_gives_of_isEmpty h]
  | byTenant ids => cases pl <;> simp [Gives, ScopedIds.not_gives_of_isEmpty h]

/-- An entry gives only at places of its shape. -/
theorem shape_of_gives (h : e.Gives pl d) : pl.shape = e.shape := by
  cases e <;> cases pl <;> simp_all [Gives, Place.shape, shape]

/-- A grant leaves the shape. -/
theorem shape_of_add? (h : e.add? g = some e') : e'.shape = e.shape := by
  cases e <;> cases g <;> simp only [add?, Option.some.injEq, reduceCtorEq] at h <;> subst h <;> rfl

/-- **An entry with a grant gives what either gives**, at places of its shape. -/
theorem gives_add? (h : e.add? g = some e') (hpl : pl.shape = e.shape) :
    e'.Gives pl d ↔ e.Gives pl d ∨ g.Gives pl d := by
  cases e with
  | unscoped ids =>
    cases pl <;> simp only [Place.shape, shape, reduceCtorEq] at hpl
    cases g <;> simp only [add?, Option.some.injEq, reduceCtorEq] at h <;> subst h <;>
      simp [Gives, Grant.Gives]
  | byEnvironment ids =>
    cases pl <;> simp only [Place.shape, shape, reduceCtorEq] at hpl
    cases g <;> simp only [add?, Option.some.injEq, reduceCtorEq] at h <;> subst h <;>
      simp [Gives, Grant.Gives, ScopedIds.gives_grant]
  | byTenant ids =>
    cases pl <;> simp only [Place.shape, shape, reduceCtorEq] at hpl
    cases g <;> simp only [add?, Option.some.injEq, reduceCtorEq] at h <;> subst h <;>
      simp [Gives, Grant.Gives, ScopedIds.gives_grant]

end CacheEntry

/-! ## Caches -/

namespace Cache

variable {c c' : Cache} {p p' : Privilege} {pl : Place} {d : Demand}

/-- The cache has what is demanded of a privilege at a place. -/
def Gives (c : Cache) (p : Privilege) (pl : Place) (d : Demand) : Prop :=
  ∃ e, c.entry? p = some e ∧ e.Gives pl d

/-- Every entry has the shape of its privilege. -/
def Fits (c : Cache) : Prop := ∀ p e, c.entry? p = some e → e.shape = p.shape

@[simp] theorem not_gives_empty {team : TeamId} : ¬ (empty team).Gives p pl d := by
  rintro ⟨e, he, -⟩
  cases he

theorem fits_empty {team : TeamId} : (empty team).Fits := by
  intro p e he
  cases he

/-- A cache whose entries fit gives only at places of the privilege's shape. -/
theorem Fits.shape_eq (h : c.Fits) (hg : c.Gives p pl d) : pl.shape = p.shape := by
  obtain ⟨e, he, hd⟩ := hg
  rw [CacheEntry.shape_of_gives hd, h p e he]

/-- **What is extracted for a request is what the cache gives at the request's place.** -/
theorem gives_extract (h : c.Fits) {q : ScopeParams} :
    (c.extract p q).Gives d ↔ ∃ pl, q.place? p.shape = some pl ∧ c.Gives p pl d := by
  unfold extract Gives
  cases he : c.entry? p with
  | none => simp
  | some e =>
    rw [← h p e he]
    cases e with
    | unscoped ids => simp [CacheEntry.shape, ScopeParams.place?, CacheEntry.Gives]
    | byEnvironment ids =>
      cases hq : q.environment <;>
        simp [CacheEntry.shape, ScopeParams.place?, CacheEntry.Gives, hq]
    | byTenant ids =>
      cases hq : q.tenant <;> simp [CacheEntry.shape, ScopeParams.place?, CacheEntry.Gives, hq]

/-- A grant changes the entry of its privilege, or drops it if it is empty. -/
theorem entry?_of_grant {g : Grant} (h : c.grant p g = .ok c') :
    c'.team = c.team ∧ ∃ e, ((c.entry? p).getD (.blank p.shape)).add? g = some e ∧
      ∀ p', c'.entry? p' =
        if p' = p then (if e.isEmpty then none else some e) else c.entry? p' := by
  unfold grant at h
  split at h
  · cases h
  · rename_i e he
    cases h
    refine ⟨rfl, e, he, fun p' => ?_⟩
    unfold entry?
    dsimp only
    split
    · rw [KeyMap.get?_erase]
    · rw [KeyMap.get?_put]

/-- **An entry after a grant** was one before, or it is what the grant made of its privilege's
entry, and then it is not empty. -/
theorem entry?_eq_some_of_grant {g : Grant} {e : CacheEntry} (h : c.grant p g = .ok c')
    (he : c'.entry? p' = some e) :
    c.entry? p' = some e ∨
      p' = p ∧ e.isEmpty = false ∧ ((c.entry? p).getD (.blank p.shape)).add? g = some e := by
  obtain ⟨-, made, hadd, hentry⟩ := entry?_of_grant h
  rw [hentry] at he
  split at he
  · rename_i hp
    split at he
    · cases he
    · rename_i hkept
      obtain rfl := Option.some.inj he
      exact .inr ⟨hp, Bool.eq_false_iff.2 hkept, hadd⟩
  · exact .inl he

/-- The entry that a grant is added to has the shape of its privilege. -/
theorem Fits.shape_getD (h : c.Fits) : ((c.entry? p).getD (.blank p.shape)).shape = p.shape := by
  cases he : c.entry? p with
  | none => simp
  | some e => exact h p e he

/-- A grant leaves every entry in the shape of its privilege. -/
theorem Fits.grant {g : Grant} (h : c.Fits) (hg : c.grant p g = .ok c') : c'.Fits := by
  intro p' e he
  rcases entry?_eq_some_of_grant hg he with hold | ⟨rfl, -, hadd⟩
  · exact h p' e hold
  · rw [CacheEntry.shape_of_add? hadd, h.shape_getD]

/-- **A grant adds to its privilege what it gives, and nothing else changes.** -/
theorem gives_of_grant {g : Grant} (h : c.Fits) (hg : c.grant p g = .ok c') :
    c'.Gives p' pl d ↔ c.Gives p' pl d ∨ p' = p ∧ pl.shape = p.shape ∧ g.Gives pl d := by
  obtain ⟨-, e, he, hentry⟩ := entry?_of_grant hg
  have hshape : e.shape = p.shape := by rw [CacheEntry.shape_of_add? he, h.shape_getD]
  by_cases hp : p' = p
  · subst hp
    have hold : ((c.entry? p').getD (.blank p'.shape)).Gives pl d ↔ c.Gives p' pl d := by
      unfold Gives
      cases c.entry? p' <;> simp
    have hnew : c'.Gives p' pl d ↔ e.Gives pl d := by
      unfold Gives
      rw [hentry]
      by_cases hempty : e.isEmpty = true
      · simp [hempty, CacheEntry.not_gives_of_isEmpty hempty]
      · simp [hempty]
    rw [hnew]
    by_cases hpl : pl.shape = p'.shape
    · rw [CacheEntry.gives_add? he (hpl.trans h.shape_getD.symm), hold]
      simp [hpl]
    · have hno : ¬ e.Gives pl d := fun hd =>
        hpl ((CacheEntry.shape_of_gives hd).trans hshape)
      have hno' : ¬ c.Gives p' pl d := fun hd => hpl (h.shape_eq hd)
      simp [hno, hno', hpl]
  · simp [Gives, hentry, hp]

/-- Grants for one privilege leave every entry in the shape of its privilege. -/
theorem Fits.grantAll {gs : List Grant} (h : c.Fits) (hg : c.grantAll p gs = .ok c') : c'.Fits := by
  induction gs generalizing c with
  | nil => exact pure_eq_ok_iff.1 hg ▸ h
  | cons g gs ih =>
    obtain ⟨c₁, h₁, h₂⟩ := bind_eq_ok_iff.1 hg
    exact ih (h.grant h₁) h₂

/-- Grants leave the team. -/
theorem team_of_grantAll {gs : List Grant} (hg : c.grantAll p gs = .ok c') : c'.team = c.team := by
  induction gs generalizing c with
  | nil => rw [pure_eq_ok_iff.1 hg]
  | cons g gs ih =>
    obtain ⟨c₁, h₁, h₂⟩ := bind_eq_ok_iff.1 hg
    rw [ih h₂, (entry?_of_grant h₁).1]

/-- Grants for one privilege add what one of them gives. -/
theorem gives_of_grantAll {gs : List Grant} (h : c.Fits) (hg : c.grantAll p gs = .ok c') :
    c'.Gives p' pl d ↔
      c.Gives p' pl d ∨ p' = p ∧ pl.shape = p.shape ∧ ∃ g ∈ gs, g.Gives pl d := by
  induction gs generalizing c with
  | nil => simp [pure_eq_ok_iff.1 hg]
  | cons g gs ih =>
    obtain ⟨c₁, h₁, h₂⟩ := bind_eq_ok_iff.1 hg
    rw [ih (h.grant h₁) h₂, gives_of_grant h h₁, List.exists_mem_cons_iff]
    tauto

/-- An expansion leaves every entry in the shape of its privilege. -/
theorem Fits.addExpansion {x : Expansion} {ps : List Privilege} (h : c.Fits)
    (hx : c.addExpansion x ps = .ok c') : c'.Fits := by
  induction ps generalizing c with
  | nil => exact pure_eq_ok_iff.1 hx ▸ h
  | cons p ps ih =>
    obtain ⟨c₁, h₁, h₂⟩ := bind_eq_ok_iff.1 hx
    exact ih (h.grantAll h₁) h₂

/-- An expansion leaves the team. -/
theorem team_of_addExpansion {x : Expansion} {ps : List Privilege}
    (hx : c.addExpansion x ps = .ok c') : c'.team = c.team := by
  induction ps generalizing c with
  | nil => rw [pure_eq_ok_iff.1 hx]
  | cons p ps ih =>
    obtain ⟨c₁, h₁, h₂⟩ := bind_eq_ok_iff.1 hx
    rw [ih h₂, team_of_grantAll h₁]

/-- **An expansion adds to each of its privileges what its grants for that privilege give.** -/
theorem gives_of_addExpansion {x : Expansion} {ps : List Privilege} (h : c.Fits)
    (hx : c.addExpansion x ps = .ok c') :
    c'.Gives p pl d ↔
      c.Gives p pl d ∨ p ∈ ps ∧ pl.shape = p.shape ∧ ∃ g ∈ x.grants p, g.Gives pl d := by
  induction ps generalizing c with
  | nil => simp [pure_eq_ok_iff.1 hx]
  | cons p₁ ps ih =>
    obtain ⟨c₁, h₁, h₂⟩ := bind_eq_ok_iff.1 hx
    rw [ih (h.grantAll h₁) h₂, gives_of_grantAll h h₁, List.mem_cons]
    constructor
    · rintro ((hc | ⟨rfl, hpl, hg⟩) | ⟨hp, hpl, hg⟩)
      · exact .inl hc
      · exact .inr ⟨.inl rfl, hpl, hg⟩
      · exact .inr ⟨.inr hp, hpl, hg⟩
    · rintro (hc | ⟨rfl | hp, hpl, hg⟩)
      · exact .inl (.inl hc)
      · exact .inl (.inr ⟨rfl, hpl, hg⟩)
      · exact .inr ⟨hp, hpl, hg⟩

end Cache

end TeamAccess
