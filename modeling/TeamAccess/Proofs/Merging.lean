import Mathlib.Data.List.Dedup
import TeamAccess.Proofs.Needs

/-!
# Merging — grants in whatever order

A build works through a team's ownerships one after the other, and what it arrives at is compared
and written as it is stored. So it matters that there is one form to arrive at: two grants give the
same cache in either order, and a grant made twice is made once (`Cache.grant_grant_comm`,
`Cache.grant_grant_self`). The form is kept by each part of a cache: sets absorb and unite, a scope
with everything drops the scopes filed before it, and an entry that a grant leaves empty goes, which
is to say that the next grant finds the blank entry that it would have found anyway. A build is a
chain of grants (`Store.foldlM_addTo_eq`), and so it comes to what its grants are, in
whatever order they are made and however often.
-/

namespace TeamAccess

/-! ## Sets and scopes -/

namespace IdSet

variable (a b c : IdSet)

/-- Two sets are united with a third in either order. -/
theorem union_right_comm : (a.union b).union c = (a.union c).union b :=
  ext_gives fun d => by simp only [gives_union, or_right_comm]

/-- A set that was united is there already. -/
@[simp] theorem union_union_self : (a.union b).union b = a.union b :=
  ext_gives fun d => by simp only [gives_union, or_assoc, or_self]

/-- What is united with everything is everything. -/
@[simp] theorem union_all : a.union all = all := by cases a <;> rfl

@[simp] theorem all_union : all.union a = all := rfl

end IdSet

namespace ScopedIds

variable (s : ScopedIds) (n m : ResourceId) (a b : IdSet)

/-- **Grants in scopes commute**, in one scope or in two. -/
theorem grant_grant_comm : (s.grant n a).grant m b = (s.grant m b).grant n a := by
  obtain ⟨everywhere, scopes⟩ := s
  cases everywhere with
  | true => simp [grant]
  | false =>
    by_cases ha : a.isEmpty = true
    · by_cases hb : b.isEmpty = true <;> simp [grant, ha, hb]
    · by_cases hb : b.isEmpty = true
      · simp [grant, ha, hb]
      · simp only [grant, ha, hb, Bool.or_self, if_false, Bool.false_eq_true, mk.injEq, true_and]
        refine KeyMap.ext_get? fun k => ?_
        simp only [KeyMap.get?_put]
        by_cases hnm : n = m
        · subst hnm
          by_cases hk : k = n <;> simp [hk, IdSet.union_right_comm _ a b]
        · by_cases hkn : k = n
          · subst hkn
            simp [hnm]
          · simp [hkn, Ne.symm hnm]

/-- A grant in a scope that was made is made. -/
@[simp] theorem grant_grant_self : (s.grant n a).grant n a = s.grant n a := by
  obtain ⟨everywhere, scopes⟩ := s
  cases everywhere with
  | true => simp [grant]
  | false =>
    by_cases ha : a.isEmpty = true
    · simp [grant, ha]
    · simp only [grant, ha, Bool.or_self, if_false, Bool.false_eq_true, mk.injEq, true_and]
      refine KeyMap.ext_get? fun k => ?_
      by_cases hk : k = n <;> simp [KeyMap.get?_put, hk]

/-- Where everything is granted, a grant in a scope adds nothing. -/
@[simp] theorem grantAll_grant : s.grantAll.grant n a = s.grantAll := by simp [grant, grantAll]

/-- A grant of everything drops what a scope was granted before. -/
@[simp] theorem grant_grantAll : (s.grant n a).grantAll = s.grantAll := rfl

@[simp] theorem grantAll_grantAll : s.grantAll.grantAll = s.grantAll := rfl

/-- Nothing in any scope is the one form of nothing. -/
theorem eq_empty_of_isEmpty {s : ScopedIds} (h : s.isEmpty = true) : s = empty := by
  obtain ⟨everywhere, scopes⟩ := s
  simp only [isEmpty, Bool.and_eq_true, Bool.not_eq_true'] at h
  obtain ⟨rfl, hnil⟩ := h
  exact congrArg (mk false) (Index.ext (List.isEmpty_iff.1 hnil))

end ScopedIds

/-! ## Entries -/

namespace CacheEntry

variable (e : CacheEntry) (g g' : Grant)

/-- **Grants to an entry commute**, and if one of them has not its shape then both orders refuse. -/
theorem add?_add?_comm : (e.add? g).bind (·.add? g') = (e.add? g').bind (·.add? g) := by
  cases e with
  | unscoped ids => cases g <;> cases g' <;> simp [add?, IdSet.union_right_comm ids]
  | byEnvironment ids | byTenant ids =>
    cases g <;> cases g' <;> simp [add?, ScopedIds.grant_grant_comm ids]

/-- A grant to an entry that was made is made. -/
theorem add?_add?_self : (e.add? g).bind (·.add? g) = e.add? g := by
  cases e <;> cases g <;> simp [add?]

variable {e}

/-- An entry without ids is the blank one of its shape. -/
theorem eq_blank_of_isEmpty (h : e.isEmpty = true) : e = blank e.shape := by
  cases e with
  | unscoped ids =>
    cases ids with
    | all => cases h
    | only ks => exact congrArg (fun ks => unscoped (.only ks)) (Index.ext (List.isEmpty_iff.1 h))
  | byEnvironment ids => exact congrArg byEnvironment (ScopedIds.eq_empty_of_isEmpty h)
  | byTenant ids => exact congrArg byTenant (ScopedIds.eq_empty_of_isEmpty h)

/-- The entry as it is kept: not at all if it is empty. -/
def kept (e : CacheEntry) : Option CacheEntry := if e.isEmpty then none else some e

/-- **Nothing is lost with an entry that is not kept.** -/
theorem getD_kept {shape : Shape} (h : e.shape = shape) : e.kept.getD (blank shape) = e := by
  unfold kept
  split
  · rename_i hempty
    rw [Option.getD_none, ← h, ← eq_blank_of_isEmpty hempty]
  · rfl

end CacheEntry

/-! ## Caches -/

namespace Cache

variable {c c' c₁ c₂ : Cache} {p q : Privilege} {g g' : Grant} {team : TeamId}

/-- A cache is its team and its entries. -/
theorem ext_entry? (hteam : c₁.team = c₂.team) (h : ∀ p, c₁.entry? p = c₂.entry? p) : c₁ = c₂ := by
  obtain ⟨team, entries⟩ := c₁
  obtain ⟨team', entries'⟩ := c₂
  obtain rfl : team = team' := hteam
  exact congrArg (Cache.mk team) (KeyMap.ext_get? h)

/-- What a grant makes of the entry of its privilege is what the next grant finds there. -/
theorem getD_entry?_of_grant (hc : c.Fits) (h : c.grant p g = .ok c') :
    ∃ e, ((c.entry? p).getD (.blank p.shape)).add? g = some e ∧ c'.entry? p = e.kept ∧
      (c'.entry? p).getD (.blank p.shape) = e := by
  obtain ⟨-, e, he, hentry⟩ := entry?_of_grant h
  have hkept : c'.entry? p = e.kept := by rw [hentry, if_pos rfl, CacheEntry.kept]
  refine ⟨e, he, hkept, ?_⟩
  rw [hkept, CacheEntry.getD_kept ((CacheEntry.shape_of_add? he).trans hc.shape_getD)]

/-- A grant leaves the entries of the other privileges. -/
theorem entry?_of_grant_of_ne (h : c.grant p g = .ok c') (hne : q ≠ p) :
    c'.entry? q = c.entry? q := by
  obtain ⟨-, e, -, hentry⟩ := entry?_of_grant h
  rw [hentry, if_neg hne]

/-- **Grants commute**: from a cache in shape, two grants of the right shapes give one cache in
either order. -/
theorem grant_grant_comm (hc : c.Fits) (hg : g.Suits p.shape) (hg' : g'.Suits q.shape) :
    (c.grant p g >>= fun c => c.grant q g') = (c.grant q g' >>= fun c => c.grant p g) := by
  obtain ⟨c₁, h₁⟩ := succeeds_grant hc hg
  obtain ⟨c₂, h₂⟩ := succeeds_grant (hc.grant h₁) hg'
  obtain ⟨d₁, k₁⟩ := succeeds_grant hc hg'
  obtain ⟨d₂, k₂⟩ := succeeds_grant (hc.grant k₁) hg
  suffices hsame : c₂ = d₂ by
    rw [bind_eq_ok_iff.2 ⟨c₁, h₁, h₂⟩, bind_eq_ok_iff.2 ⟨d₁, k₁, k₂⟩, hsame]
  have hteam : c₂.team = d₂.team := by
    rw [(entry?_of_grant h₂).1, (entry?_of_grant h₁).1, (entry?_of_grant k₂).1,
      (entry?_of_grant k₁).1]
  refine ext_entry? hteam fun r => ?_
  by_cases hpq : p = q
  · subst hpq
    by_cases hr : r = p
    · -- Both grants meet in one entry, and what the first left of it is what the second finds.
      subst hr
      obtain ⟨e₁, he₁, -, hopen₁⟩ := getD_entry?_of_grant hc h₁
      obtain ⟨e₂, he₂, hkept, -⟩ := getD_entry?_of_grant (hc.grant h₁) h₂
      obtain ⟨f₁, hf₁, -, hopen₁'⟩ := getD_entry?_of_grant hc k₁
      obtain ⟨f₂, hf₂, hkept', -⟩ := getD_entry?_of_grant (hc.grant k₁) k₂
      have hcomm := CacheEntry.add?_add?_comm ((c.entry? r).getD (.blank r.shape)) g g'
      rw [he₁, hf₁, Option.bind_some, Option.bind_some, ← hopen₁, ← hopen₁', he₂, hf₂] at hcomm
      rw [hkept, hkept', Option.some.inj hcomm]
    · rw [entry?_of_grant_of_ne h₂ hr, entry?_of_grant_of_ne h₁ hr, entry?_of_grant_of_ne k₂ hr,
        entry?_of_grant_of_ne k₁ hr]
  · by_cases hr : r = p
    · subst hr
      obtain ⟨e, he, hkept, -⟩ := getD_entry?_of_grant hc h₁
      obtain ⟨f, hf, hkept', -⟩ := getD_entry?_of_grant (hc.grant k₁) k₂
      rw [entry?_of_grant_of_ne k₁ hpq, he] at hf
      rw [entry?_of_grant_of_ne h₂ hpq, hkept, hkept', Option.some.inj hf]
    · by_cases hr' : r = q
      · subst hr'
        obtain ⟨e, he, hkept, -⟩ := getD_entry?_of_grant (hc.grant h₁) h₂
        obtain ⟨f, hf, hkept', -⟩ := getD_entry?_of_grant hc k₁
        rw [entry?_of_grant_of_ne h₁ hr, hf] at he
        rw [entry?_of_grant_of_ne k₂ hr, hkept, hkept', Option.some.inj he]
      · rw [entry?_of_grant_of_ne h₂ hr', entry?_of_grant_of_ne h₁ hr,
          entry?_of_grant_of_ne k₂ hr, entry?_of_grant_of_ne k₁ hr']

/-- **A grant that was made is made**: to make it again changes nothing. -/
theorem grant_grant_self (hc : c.Fits) (h : c.grant p g = .ok c') : c'.grant p g = .ok c' := by
  obtain ⟨e, he, hkept, hopen⟩ := getD_entry?_of_grant hc h
  have hagain : e.add? g = some e := by
    have hself := CacheEntry.add?_add?_self ((c.entry? p).getD (.blank p.shape)) g
    rwa [he] at hself
  obtain ⟨c'', h'⟩ : Succeeds (c'.grant p g) := by
    unfold grant
    rw [hopen, hagain]
    exact .ok _
  obtain ⟨e', he', hkept', -⟩ := getD_entry?_of_grant (hc.grant h) h'
  rw [hopen, hagain] at he'
  rw [h', ext_entry? (entry?_of_grant h').1 fun q => ?_]
  by_cases hq : q = p
  · rw [hq, hkept', hkept, Option.some.inj he']
  · exact entry?_of_grant_of_ne h' hq

/-- **What a team's cache can be**: nothing, and whatever grants make of such a cache. -/
inductive Granted (team : TeamId) : Cache → Prop
  | empty : Granted team (.empty team)
  | grant {c c' : Cache} {p : Privilege} {g : Grant} :
      Granted team c → c.grant p g = .ok c' → Granted team c'

/-- Grants keep a cache in shape. -/
theorem Granted.fits (h : Granted team c) : c.Fits := by
  induction h with
  | empty => exact fits_empty
  | grant _ hg ih => exact ih.grant hg

/-! ## Many grants -/

/-- The cache with grants for privileges, one after the other. -/
def grantEach (c : Cache) (gs : List (Privilege × Grant)) : Except Fault Cache :=
  gs.foldlM (fun c x => c.grant x.1 x.2) c

variable {x : Privilege × Grant} {gs hs : List (Privilege × Grant)}

theorem grantEach_cons : c.grantEach (x :: gs) = c.grant x.1 x.2 >>= fun c => c.grantEach gs :=
  List.foldlM_cons

theorem grantEach_append : c.grantEach (gs ++ hs) = c.grantEach gs >>= fun c => c.grantEach hs :=
  List.foldlM_append

/-- Grants leave the team. -/
theorem team_of_grantEach (h : c.grantEach gs = .ok c') : c'.team = c.team := by
  induction gs generalizing c with
  | nil => rw [pure_eq_ok_iff.1 h]
  | cons x gs ih =>
    obtain ⟨c₁, h₁, h₂⟩ := bind_eq_ok_iff.1 (grantEach_cons ▸ h)
    rw [ih h₂, (entry?_of_grant h₁).1]

/-- Grants of the right shapes are not refused, and leave every entry in the shape of its
privilege. -/
theorem exists_grantEach (hc : c.Fits) (hg : ∀ x ∈ gs, x.2.Suits x.1.shape) :
    ∃ c', c.grantEach gs = .ok c' ∧ c'.Fits := by
  induction gs generalizing c with
  | nil => exact ⟨c, rfl, hc⟩
  | cons x gs ih =>
    obtain ⟨c₁, h₁⟩ := succeeds_grant hc (hg x List.mem_cons_self)
    obtain ⟨c₂, h₂, hfits⟩ := ih (hc.grant h₁) fun y hy => hg y (List.mem_cons_of_mem _ hy)
    exact ⟨c₂, grantEach_cons ▸ bind_eq_ok_iff.2 ⟨c₁, h₁, h₂⟩, hfits⟩

/-- **The order of grants does not count.** -/
theorem grantEach_perm (hperm : gs.Perm hs) (hc : c.Fits) (hg : ∀ x ∈ gs, x.2.Suits x.1.shape) :
    c.grantEach gs = c.grantEach hs := by
  induction hperm generalizing c with
  | nil => rfl
  | cons x _ ih =>
    obtain ⟨c₁, h₁⟩ := succeeds_grant hc (hg x List.mem_cons_self)
    rw [grantEach_cons, grantEach_cons, h₁]
    exact ih (hc.grant h₁) fun y hy => hg y (List.mem_cons_of_mem _ hy)
  | swap x y gs =>
    have hcomm := grant_grant_comm hc (hg y (by simp)) (hg x (by simp))
    simp only [grantEach_cons, ← bind_assoc, hcomm]
  | trans h₁ _ ih₁ ih₂ =>
    exact (ih₁ hc hg).trans (ih₂ hc fun x hx => hg x (h₁.mem_iff.2 hx))

/-- A grant that comes again later need not be made first. -/
theorem grantEach_cons_of_mem (hx : x ∈ gs) (hc : c.Fits) (hg : ∀ x ∈ gs, x.2.Suits x.1.shape) :
    c.grantEach (x :: gs) = c.grantEach gs := by
  have hfront := List.perm_cons_erase hx
  have hg' : ∀ y ∈ x :: gs.erase x, y.2.Suits y.1.shape := fun y hy => hg y (hfront.mem_iff.2 hy)
  obtain ⟨c₁, h₁⟩ := succeeds_grant hc (hg x hx)
  calc c.grantEach (x :: gs)
      = c₁.grantEach gs := by rw [grantEach_cons, h₁]; rfl
    _ = c₁.grantEach (x :: gs.erase x) := grantEach_perm hfront (hc.grant h₁) hg
    _ = c₁.grantEach (gs.erase x) := by rw [grantEach_cons, grant_grant_self hc h₁]; rfl
    _ = c.grantEach (x :: gs.erase x) := by rw [grantEach_cons, h₁]; rfl
    _ = c.grantEach gs := (grantEach_perm hfront hc hg).symm

/-- Each grant need be made only once. -/
theorem grantEach_dedup (hc : c.Fits) (hg : ∀ x ∈ gs, x.2.Suits x.1.shape) :
    c.grantEach gs.dedup = c.grantEach gs := by
  induction gs generalizing c with
  | nil => rfl
  | cons x gs ih =>
    have hrest : ∀ y ∈ gs, y.2.Suits y.1.shape := fun y hy => hg y (List.mem_cons_of_mem _ hy)
    by_cases hx : x ∈ gs
    · rw [List.dedup_cons_of_mem hx, ih hc hrest, grantEach_cons_of_mem hx hc hrest]
    · obtain ⟨c₁, h₁⟩ := succeeds_grant hc (hg x List.mem_cons_self)
      rw [List.dedup_cons_of_notMem hx, grantEach_cons, grantEach_cons, h₁]
      exact ih (hc.grant h₁) hrest

/-- **Grants come to what they are together**: neither their order nor their repetition counts. -/
theorem grantEach_eq_of_mem_iff (hmem : ∀ x, x ∈ gs ↔ x ∈ hs) (hc : c.Fits)
    (hg : ∀ x ∈ gs, x.2.Suits x.1.shape) : c.grantEach gs = c.grantEach hs := by
  have hperm : gs.dedup.Perm hs.dedup := by
    rw [List.perm_ext_iff_of_nodup gs.nodup_dedup hs.nodup_dedup]
    simpa using hmem
  calc c.grantEach gs
      = c.grantEach gs.dedup := (grantEach_dedup hc hg).symm
    _ = c.grantEach hs.dedup :=
        grantEach_perm hperm hc fun x hx => hg x (List.mem_dedup.1 hx)
    _ = c.grantEach hs := grantEach_dedup hc fun x hx => hg x ((hmem x).2 hx)

end Cache

/-! ## Builds -/

/-- What an expansion grants for privileges. -/
def Expansion.grantsFor (x : Expansion) (ps : List Privilege) : List (Privilege × Grant) :=
  ps.flatMap fun p => (x.grants p).map (p, ·)

theorem Expansion.mem_grants_of_mem_grantsFor {x : Expansion} {ps : List Privilege}
    {y : Privilege × Grant} (h : y ∈ x.grantsFor ps) : y.2 ∈ x.grants y.1 := by
  obtain ⟨p, -, hy⟩ := List.mem_flatMap.1 h
  obtain ⟨g, hg, rfl⟩ := List.mem_map.1 hy
  exact hg

/-- To add an expansion is to make its grants. -/
theorem Cache.addExpansion_eq {c : Cache} {x : Expansion} {ps : List Privilege} :
    c.addExpansion x ps = c.grantEach (x.grantsFor ps) := by
  induction ps generalizing c with
  | nil => rfl
  | cons p ps ih =>
    have hfirst : c.grantAll p (x.grants p) = c.grantEach ((x.grants p).map (p, ·)) := by
      rw [grantEach, List.foldlM_map]
      rfl
    rw [Expansion.grantsFor, List.flatMap_cons, grantEach_append, ← hfirst, addExpansion,
      List.foldlM_cons]
    congr 1
    funext c₁
    exact ih

namespace Store

variable {s : Store} {team : TeamId} {c c' : Cache} {o o' : Ownership} {os os' : List Ownership}

/-- What an ownership grants to its team. -/
def grantsOf (s : Store) (team : TeamId) (o : Ownership) :
    Except Fault (List (Privilege × Grant)) := do
  match ← s.role? o.role with
  | none => .error .notFound
  | some role =>
    if role.scope.admits team then
      return (← s.expansion o.resource).grantsFor role.privileges.rows
    else return []

/-- Ownerships of one role and one resource grant the same. -/
theorem grantsOf_congr (hrole : o.role = o'.role) (hresource : o.resource = o'.resource) :
    s.grantsOf team o = s.grantsOf team o' := by
  rw [grantsOf, grantsOf, hrole, hresource]

/-- What an ownership grants is what some expansion grants. -/
theorem exists_mem_grants {gs : List (Privilege × Grant)} (h : s.grantsOf team o = .ok gs)
    {x : Privilege × Grant} (hx : x ∈ gs) : ∃ e : Expansion, x.2 ∈ e.grants x.1 := by
  obtain ⟨role?, -, h⟩ := bind_eq_ok_iff.1 h
  cases role? with
  | none => cases h
  | some role =>
    dsimp only at h
    split at h
    · obtain ⟨e, -, h⟩ := bind_eq_ok_iff.1 h
      rw [← pure_eq_ok_iff.1 h] at hx
      exact ⟨e, Expansion.mem_grants_of_mem_grantsFor hx⟩
    · rw [← pure_eq_ok_iff.1 h] at hx
      cases hx

/-- What ownerships grant is what expansions grant. -/
theorem exists_mem_grants_of_mapM {gss : List (List (Privilege × Grant))}
    (h : os.mapM (s.grantsOf team) = .ok gss) {x : Privilege × Grant} (hx : x ∈ gss.flatten) :
    ∃ e : Expansion, x.2 ∈ e.grants x.1 := by
  obtain ⟨gs, hgs, hx⟩ := List.mem_flatten.1 hx
  obtain ⟨o, -, hread⟩ := (mem_iff_of_mapM_eq_ok h).1 hgs
  exact exists_mem_grants hread hx

/-- What ownerships grant has the shapes of the privileges. -/
theorem suits_of_mapM {gss : List (List (Privilege × Grant))}
    (h : os.mapM (s.grantsOf team) = .ok gss) :
    ∀ x ∈ gss.flatten, x.2.Suits x.1.shape := by
  intro x hx
  obtain ⟨e, he⟩ := exists_mem_grants_of_mapM h hx
  exact Expansion.suits_of_mem_grants he

/-- To add an ownership is to make its grants. -/
theorem addTo_eq : s.addTo c o = s.grantsOf c.team o >>= fun gs => c.grantEach gs := by
  rw [addTo, grantsOf, bind_assoc]
  congr 1
  funext role?
  cases role? with
  | none => rfl
  | some role =>
    dsimp only
    split
    · rw [bind_assoc]
      congr 1
      funext x
      exact Cache.addExpansion_eq
    · rfl

/-- **A build is a chain of grants**: those of each ownership in turn. None of them is refused, so
the build fails just as the reads do that say what they are. -/
theorem foldlM_addTo_eq (hc : c.Fits) : os.foldlM s.addTo c =
    os.mapM (s.grantsOf c.team) >>= fun gss => c.grantEach gss.flatten := by
  induction os generalizing c with
  | nil => rfl
  | cons o os ih =>
    rw [List.foldlM_cons, List.mapM_cons, addTo_eq]
    cases hgs : s.grantsOf c.team o with
    | error e => rfl
    | ok gs =>
      have hsuits : ∀ x ∈ gs, x.2.Suits x.1.shape := by
        intro x hx
        obtain ⟨e, he⟩ := exists_mem_grants hgs hx
        exact Expansion.suits_of_mem_grants he
      obtain ⟨c₁, h₁, hfits⟩ := Cache.exists_grantEach hc hsuits
      have hgo {β : Type} (f : List (Privilege × Grant) → Except Fault β) :
          (Except.ok gs >>= f) = f gs := rfl
      have hrest (gss : List (List (Privilege × Grant))) :
          c.grantEach (gs :: gss).flatten = c₁.grantEach gss.flatten := by
        rw [List.flatten_cons, Cache.grantEach_append, h₁]
        rfl
      calc ((Except.ok gs >>= fun gs => c.grantEach gs) >>= fun c => os.foldlM s.addTo c)
          = os.foldlM s.addTo c₁ := by rw [hgo, h₁]; rfl
        _ = os.mapM (s.grantsOf c.team) >>= fun gss => c₁.grantEach gss.flatten := by
            rw [ih hfits, Cache.team_of_grantEach h₁]
        _ = _ := by simp only [hgo, bind_assoc, pure_bind, hrest]

/-- The cache that ownerships build for a team, in their order. -/
def buildFrom (s : Store) (team : TeamId) (os : List Ownership) : Except Fault Cache :=
  (Resolver.addOwnerships s (.empty team) os Memo.empty).1

theorem buildFrom_eq : s.buildFrom team os = os.foldlM s.addTo (.empty team) :=
  (Resolver.computes_addOwnerships (.empty team) os _ Resolver.agrees_empty).1

/-- A team's cache is what its ownerships build, as they are listed. -/
theorem buildCache_eq_buildFrom :
    s.buildCache team = s.listOwnerships team >>= fun os => s.buildFrom team os := rfl

end Store

/-- What an ownership lends: a role over a resource. -/
def Ownership.loan (o : Ownership) : RoleId × ResourceRef := (o.role, o.resource)

namespace Store

variable {s : Store} {team : TeamId} {c : Cache} {os os' : List Ownership}

/-- Where one list of ownerships grants something, a list with the same loans grants the same. -/
theorem grants_of_same_loans {gss gss' : List (List (Privilege × Grant))}
    (hsame : ∀ l, l ∈ os.map Ownership.loan → l ∈ os'.map Ownership.loan)
    (h : os.mapM (s.grantsOf team) = .ok gss) (h' : os'.mapM (s.grantsOf team) = .ok gss')
    {x : Privilege × Grant} (hx : x ∈ gss.flatten) : x ∈ gss'.flatten := by
  obtain ⟨gs, hgs, hx⟩ := List.mem_flatten.1 hx
  obtain ⟨o, ho, hread⟩ := (mem_iff_of_mapM_eq_ok h).1 hgs
  obtain ⟨o', ho', hloan⟩ := List.mem_map.1 (hsame o.loan (List.mem_map_of_mem ho))
  obtain ⟨hrole, hresource⟩ := Prod.mk.inj hloan
  rw [← grantsOf_congr hrole hresource] at hread
  exact List.mem_flatten.2 ⟨gs, (mem_iff_of_mapM_eq_ok h').2 ⟨o', ho', hread⟩, hx⟩

/-- Ownerships with the same loans build the same cache. -/
theorem buildFrom_of_same_loans
    (hsame : ∀ l, l ∈ os.map Ownership.loan ↔ l ∈ os'.map Ownership.loan)
    (h : s.buildFrom team os = .ok c) : s.buildFrom team os' = .ok c := by
  rw [buildFrom_eq, foldlM_addTo_eq Cache.fits_empty, bind_eq_ok_iff] at h ⊢
  obtain ⟨gss, hgss, hc⟩ := h
  -- Every ownership of the second list can be read, as one of the first with its loan was.
  obtain ⟨gss', hgss'⟩ : Succeeds (os'.mapM (s.grantsOf team)) := by
    refine .mapM fun o' ho' => ?_
    obtain ⟨o, ho, hloan⟩ := List.mem_map.1 ((hsame o'.loan).2 (List.mem_map_of_mem ho'))
    obtain ⟨hrole, hresource⟩ := Prod.mk.inj hloan
    rw [← grantsOf_congr hrole hresource]
    exact exists_of_mapM_eq_ok hgss ho
  refine ⟨gss', hgss', ?_⟩
  rw [← hc]
  refine Cache.grantEach_eq_of_mem_iff (fun x => ?_) Cache.fits_empty (suits_of_mapM hgss')
  exact ⟨grants_of_same_loans (fun l => (hsame l).2) hgss' hgss,
    grants_of_same_loans (fun l => (hsame l).1) hgss hgss'⟩

end Store

/-- **Caches are built in whatever order.** From any store, two lists of ownerships with the same
roles over the same resources build one and the same cache for a team, or both fail. And so it is
for the grants themselves: on every cache that grants can make, a grant of the privilege's shape
changes nothing when it is made again, and two of them give one cache in either order. -/
theorem builds_and_grants_are_order_free :
    (∀ (s : Store) (team : TeamId) (os os' : List Ownership),
      (∀ l, l ∈ os.map Ownership.loan ↔ l ∈ os'.map Ownership.loan) →
        ∀ c, s.buildFrom team os = .ok c ↔ s.buildFrom team os' = .ok c) ∧
    ∀ (team : TeamId) (c : Cache), Cache.Granted team c →
      ∀ (p q : Privilege) (g g' : Grant), g.Suits p.shape → g'.Suits q.shape →
        (∃ c', c.grant p g = .ok c' ∧ c'.grant p g = .ok c') ∧
        ∃ c', (c.grant p g >>= fun c => c.grant q g') = .ok c' ∧
          (c.grant q g' >>= fun c => c.grant p g) = .ok c' := by
  refine ⟨fun s team os os' hsame c => ?_, fun team c hc p q g g' hg hg' => ⟨?_, ?_⟩⟩
  · exact ⟨Store.buildFrom_of_same_loans hsame,
      Store.buildFrom_of_same_loans fun l => (hsame l).symm⟩
  · obtain ⟨c', h⟩ := Cache.succeeds_grant hc.fits hg
    exact ⟨c', h, Cache.grant_grant_self hc.fits h⟩
  · obtain ⟨c', h⟩ := (Cache.succeeds_grant hc.fits hg).bind fun c₁ h₁ =>
      Cache.succeeds_grant (hc.fits.grant h₁) hg'
    exact ⟨c', h, Cache.grant_grant_comm hc.fits hg hg' ▸ h⟩

/-- An ownership of the one tenant, one of everything, and one of the tenant again. -/
def oneTenantLoans : List Ownership :=
  [⟨5, 3, 4, .tenant 2, .epoch⟩, ⟨6, 3, 4, .global, .epoch⟩, ⟨7, 3, 4, .tenant 2, .epoch⟩]

/-- The cache is the same when everything is lent first and the tenant once, and a team may get
its environment and its tenant in either order. -/
theorem oneTenant_builds_and_grants_are_order_free :
    (∃ c, Store.oneTenant.buildFrom 3 (oneTenantLoans.reverse.take 2) = .ok c ∧
      Store.oneTenant.buildFrom 3 oneTenantLoans = .ok c) ∧
    (∃ c', (Cache.empty 3).grant .environmentRead (.ids (.one 1)) = .ok c' ∧
      c'.grant .environmentRead (.ids (.one 1)) = .ok c') ∧
    ∃ c', ((Cache.empty 3).grant .environmentRead (.ids (.one 1)) >>= fun c =>
        c.grant .tenantRead (.within 1 (.one 2))) = .ok c' ∧
      ((Cache.empty 3).grant .tenantRead (.within 1 (.one 2)) >>= fun c =>
        c.grant .environmentRead (.ids (.one 1))) = .ok c' := by
  obtain ⟨hbuild, hgrant⟩ := builds_and_grants_are_order_free
  have hsame : ∀ l, l ∈ (oneTenantLoans.reverse.take 2).map Ownership.loan ↔
      l ∈ oneTenantLoans.map Ownership.loan := by
    intro l
    simp only [oneTenantLoans, Ownership.loan, List.reverse_cons, List.reverse_nil, List.nil_append,
      List.cons_append, List.take_succ_cons, List.take_zero, List.map_cons, List.map_nil,
      List.mem_cons, List.not_mem_nil, or_false]
    constructor
    · rintro (rfl | rfl)
      · exact .inl rfl
      · exact .inr (.inl rfl)
    · rintro (rfl | rfl | rfl)
      · exact .inl rfl
      · exact .inr rfl
      · exact .inl rfl
  exact ⟨⟨_, rfl, (hbuild .oneTenant 3 _ _ hsame _).1 rfl⟩,
    hgrant 3 _ .empty .environmentRead .tenantRead (.ids (.one 1)) (.within 1 (.one 2)) rfl
      (.inl rfl)⟩

end TeamAccess
