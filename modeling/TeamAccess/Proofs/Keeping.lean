import TeamAccess.Index.Lemmas
import TeamAccess.Proofs.Run
import TeamAccess.Proofs.Totality

/-!
# Keeping — which cache a registry hands out

A registry is not told of every change of its store. In shared mode it hands out, until it is told
to drop it, the one cache that was built when the team's cache was first got since; a build that
fails is forgotten, and the next request builds anew. `Service.History` is any sequence of requests,
drops and changes of the store, with what was handed out, and `first?` reads off such a history the
cache that is due. The slots of the registry agree with it (`History.kept?_eq`), whatever becomes of
the store in between.
-/

namespace TeamAccess

namespace Registry

variable {r : Registry} {s : Store} {team team' : TeamId} {h : Handle}

/-! ## What a registry keeps -/

/-- The cache that is kept for a team, if one is. -/
def kept? (r : Registry) (team : TeamId) : Option Handle := (r.slots.get? team).join

@[simp] theorem kept?_empty (mode : CacheMode) : (empty mode).kept? team = none := rfl

theorem kept?_eq_some_iff : r.kept? team = some h ↔ r.slots.get? team = some (some h) :=
  Option.join_eq_some_iff

@[simp] theorem kept?_invalidate :
    (r.invalidate team).kept? team' = if team' = team then none else r.kept? team' := by
  rw [kept?, invalidate, KeyMap.get?_erase]
  split
  · rfl
  · rfl

@[simp] theorem kept?_invalidateAll : r.invalidateAll.kept? team = none := rfl

/-- What is put into a team's slot is kept for that team. -/
theorem kept?_put {slot : Option Handle} {n : Nat} :
    kept? { r with slots := r.slots.put team slot, builds := n } team' =
      if team' = team then slot else r.kept? team' := by
  rw [kept?, KeyMap.get?_put]
  split
  · rfl
  · rfl

/-! ## What a request gives and leaves -/

/-- A build gives what the store's does, under the next number. -/
theorem build_eq_ok_iff :
    r.build s team = .ok h ↔ h.serial = r.builds ∧ s.buildCache team = .ok h.cache := by
  unfold build
  cases s.buildCache team with
  | error _ => simp [Except.map]
  | ok c =>
    simp only [Except.map, Except.ok.injEq]
    constructor
    · rintro rfl
      exact ⟨rfl, rfl⟩
    · rintro ⟨hserial, rfl⟩
      rw [← hserial]

/-- A build has the result of the store's. -/
theorem map_build : (r.build s team).map Handle.cache = s.buildCache team := by
  unfold build
  cases s.buildCache team <;> rfl

/-- A cache that is kept is handed out, whatever the store is, and nothing changes. -/
theorem get_of_kept (hmode : r.mode = .shared) (hkept : r.kept? team = some h) :
    r.get s team = (.ok h, r) := by
  rw [get, hmode]
  dsimp only
  rw [kept?_eq_some_iff.1 hkept]

/-- Where no cache is kept one is built. -/
theorem get_of_not_kept (hkept : r.kept? team = none) : (r.get s team).1 = r.build s team := by
  unfold get
  split
  · split <;> simp_all
  · split
    · rename_i h hslot
      rw [kept?_eq_some_iff.2 hslot] at hkept
      cases hkept
    · split <;> simp_all

/-- To ask for a cache leaves the mode. -/
@[simp] theorem mode_get : (r.get s team).2.mode = r.mode := by
  unfold get
  split
  · split <;> rfl
  · split
    · rfl
    · split <;> rfl

/-- In shared mode a cache that is handed out is kept from then on, and a fault is not. -/
theorem kept?_get (hmode : r.mode = .shared) :
    (r.get s team).2.kept? team' =
      if team' = team then (r.get s team).1.toOption else r.kept? team' := by
  cases hkept : r.kept? team with
  | some h =>
    rw [get_of_kept hmode hkept]
    split
    · rename_i heq
      rw [heq, hkept]
      rfl
    · rfl
  | none =>
    have hslot (h : Handle) : r.slots.get? team ≠ some (some h) := fun hslot => by
      rw [kept?_eq_some_iff.2 hslot] at hkept
      cases hkept
    rw [get_of_not_kept hkept, get, hmode]
    dsimp only
    split
    · rename_i h hkept'
      exact absurd hkept' (hslot h)
    · cases r.build s team with
      | error _ => exact kept?_put (n := r.builds)
      | ok _ => exact kept?_put (n := r.builds + 1)

/-- Otherwise no slot changes. -/
theorem slots_get (hmode : r.mode = .perRequest) : (r.get s team).2.slots = r.slots := by
  rw [get, hmode]
  dsimp only
  split <;> rfl

/-- What is kept for another team stays. -/
theorem kept?_get_of_ne (hne : team' ≠ team) : (r.get s team).2.kept? team' = r.kept? team' := by
  cases hmode : r.mode with
  | perRequest => rw [kept?, slots_get hmode, kept?]
  | shared => rw [kept?_get hmode, if_neg hne]

/-- To ask for a cache makes one build at most. -/
theorem builds_le_get : r.builds ≤ (r.get s team).2.builds := by
  unfold get
  split
  · split <;> simp
  · split
    · exact Nat.le_refl _
    · split <;> simp

/-- A cache that is built is counted. -/
theorem lt_builds_get (hkept : r.kept? team = none) (hget : (r.get s team).1 = .ok h) :
    h.serial < (r.get s team).2.builds := by
  rw [get_of_not_kept hkept] at hget
  have hserial := (build_eq_ok_iff.1 hget).1
  unfold get
  rw [hget]
  split
  · simp [hserial]
  · split
    · rename_i h hslot
      rw [kept?_eq_some_iff.2 hslot] at hkept
      cases hkept
    · simp [hserial]

end Registry

namespace Service

variable {mode : CacheMode} {v : Service} {team other : TeamId} {s : Store} {hd : Handle}

/-! ## Histories -/

/-- What a registry was asked, or that its store was changed. -/
inductive Entry where
  /-- A team's cache was asked for, with the store of that time and what was handed out. -/
  | get (team : TeamId) (store : Store) (result : Except Fault Handle)
  | invalidate (team : TeamId)
  | invalidateAll
  | change

namespace Entry

/-- Whether the team's cache was dropped. -/
def drops (team : TeamId) : Entry → Bool
  | invalidate other => other = team
  | invalidateAll => true
  | _ => false

/-- The cache that the team was handed out, with the store of that time. -/
def given? (team : TeamId) : Entry → Option (Store × Handle)
  | get other store (.ok h) => if other = team then some (store, h) else none
  | _ => none

end Entry

/-- **A service whose registry was asked things while its store became any other.** The latest entry
comes first. -/
inductive History (mode : CacheMode) : List Entry → Service → Prop
  | start (s : Store) : History mode [] (start s mode)
  | get {log : List Entry} {v : Service} (team : TeamId) : History mode log v →
      History mode (.get team v.store (v.cache team).1 :: log) (v.cache team).2
  | invalidate {log : List Entry} {v : Service} (team : TeamId) : History mode log v →
      History mode (.invalidate team :: log) { v with registry := v.registry.invalidate team }
  | invalidateAll {log : List Entry} {v : Service} : History mode log v →
      History mode (.invalidateAll :: log) { v with registry := v.registry.invalidateAll }
  | change {log : List Entry} {v : Service} (s : Store) : History mode log v →
      History mode (.change :: log) { v with store := s }

/-- What happened since the team's cache was last dropped, the latest first. -/
def since (team : TeamId) (log : List Entry) : List Entry :=
  log.takeWhile fun e => !e.drops team

/-- The cache that the team was handed out first since it was last dropped, with the store of that
time. -/
def first? (team : TeamId) (log : List Entry) : Option (Store × Handle) :=
  (since team log).reverse.findSome? (Entry.given? team)

section First

variable {log : List Entry}

/-- An entry that drops the cache leaves none that is due; any other leaves the one that is due, and
else what it gave is due. -/
theorem first?_cons (e : Entry) (log : List Entry) :
    first? team (e :: log) =
      if e.drops team then none else (first? team log).or (e.given? team) := by
  cases hdrops : e.drops team with
  | true => simp [first?, since, hdrops]
  | false => simp [first?, since, hdrops, List.findSome?_append]

@[simp] theorem first?_get {result : Except Fault Handle} :
    first? team (.get other s result :: log) =
      (first? team log).or ((Entry.get other s result).given? team) :=
  first?_cons _ _

@[simp] theorem first?_invalidate :
    first? team (.invalidate other :: log) = if other = team then none else first? team log := by
  rw [first?_cons]
  simp [Entry.drops, Entry.given?]

@[simp] theorem first?_invalidateAll : first? team (.invalidateAll :: log) = none := first?_cons _ _

@[simp] theorem first?_change : first? team (.change :: log) = first? team log := by
  rw [first?_cons]
  simp [Entry.drops, Entry.given?]

/-- What is due was handed out. -/
theorem exists_given (hfirst : first? team log = some (s, hd)) :
    ∃ e ∈ log, e.given? team = some (s, hd) := by
  obtain ⟨e, he, hgiven⟩ := List.exists_of_findSome?_eq_some hfirst
  exact ⟨e, (List.takeWhile_sublist _).subset (List.mem_reverse.1 he), hgiven⟩

end First

/-- What a request gave was given to the team that asked. -/
theorem Entry.given?_get_eq_some_iff {result : Except Fault Handle} {s' : Store} :
    (Entry.get other s result).given? team = some (s', hd) ↔
      other = team ∧ s = s' ∧ result = .ok hd := by
  cases result with
  | error _ => simp [given?]
  | ok _ => simp [given?]

/-- The cache is no one that the history says was handed out. -/
def IsNew (log : List Entry) (hd : Handle) : Prop :=
  ∀ e ∈ log, ∀ team s old, e.given? team = some (s, old) → old.serial ≠ hd.serial

namespace History

variable {log : List Entry}

theorem mode_eq (h : History mode log v) : v.registry.mode = mode := by
  induction h with
  | start s => rfl
  | get team _ ih => exact Registry.mode_get.trans ih
  | invalidate _ _ ih | invalidateAll _ ih | change _ _ ih => exact ih

/-- Outside shared mode there are no slots. -/
theorem slots_eq (h : History .perRequest log v) : v.registry.slots = Index.empty := by
  induction h with
  | start s => rfl
  | get team h ih => exact (Registry.slots_get h.mode_eq).trans ih
  | invalidate team _ ih =>
    rw [Registry.invalidate, ih]
    rfl
  | invalidateAll _ _ => rfl
  | change _ _ ih => exact ih

/-- **In shared mode the cache that is kept is the one that the history says is due.** -/
theorem kept?_eq (h : History .shared log v) (team : TeamId) :
    v.registry.kept? team = (first? team log).map Prod.snd := by
  induction h with
  | start _ => rfl
  | @get log v other h ih =>
    rw [first?_get]
    refine (Registry.kept?_get h.mode_eq).trans ?_
    by_cases heq : team = other
    · subst heq
      rw [if_pos rfl]
      -- What is due is handed out again; where nothing is, what is handed out is due from now on.
      cases hdue : first? team log with
      | some due =>
        rw [hdue] at ih
        rw [Registry.get_of_kept h.mode_eq ih]
        rfl
      | none =>
        rw [Service.cache]
        cases (v.registry.get v.store team).1 with
        | error _ => rfl
        | ok _ => simp [Entry.given?, Except.toOption]
    · rw [if_neg heq, ih]
      cases (v.cache other).1 <;> simp [Entry.given?, Ne.symm heq]
  | invalidate other _ ih =>
    rw [Registry.kept?_invalidate, ih, first?_invalidate]
    simp only [eq_comm (a := other)]
    split <;> rfl
  | invalidateAll _ _ => rw [first?_invalidateAll, Registry.kept?_invalidateAll, Option.map_none]
  | change _ _ ih => rw [first?_change, ih]

/-- Where nothing is due nothing is kept. -/
theorem kept?_eq_none (h : History mode log v)
    (hnone : mode = .perRequest ∨ first? team log = none) : v.registry.kept? team = none := by
  cases mode with
  | perRequest =>
    rw [Registry.kept?, h.slots_eq]
    rfl
  | shared =>
    rcases hnone with hmode | hfirst
    · cases hmode
    · rw [h.kept?_eq, hfirst, Option.map_none]

/-- Something is kept in shared mode only. -/
theorem mode_eq_of_kept? (h : History mode log v) (hkept : v.registry.kept? team = some hd) :
    mode = .shared := by
  cases mode with
  | shared => rfl
  | perRequest =>
    rw [h.kept?_eq_none (.inl rfl)] at hkept
    cases hkept

/-- The cache that is due was built from the store of the time when it was first handed out. -/
theorem buildCache_of_first? (h : History .shared log v) (hfirst : first? team log = some (s, hd)) :
    s.buildCache team = .ok hd.cache := by
  induction h with
  | start _ => cases hfirst
  | @get log v other h ih =>
    rw [first?_get] at hfirst
    cases hdue : first? team log with
    | some due =>
      rw [hdue] at hfirst
      exact ih (hdue.trans hfirst)
    | none =>
      rw [hdue, Option.none_or, Entry.given?_get_eq_some_iff] at hfirst
      obtain ⟨rfl, rfl, hresult⟩ := hfirst
      have hbuild := Registry.get_of_not_kept (s := v.store) (h.kept?_eq_none (.inr hdue))
      exact (Registry.build_eq_ok_iff.1 (hbuild.symm.trans hresult)).2
  | invalidate other _ ih =>
    rw [first?_invalidate] at hfirst
    split at hfirst
    · cases hfirst
    · exact ih hfirst
  | invalidateAll _ _ =>
    rw [first?_invalidateAll] at hfirst
    cases hfirst
  | change _ _ ih => exact ih (first?_change ▸ hfirst)

/-- A team gets what is kept for it, and else what a build gives. -/
theorem map_cache (h : History mode log v) (team : TeamId) :
    (v.cache team).1.map Handle.cache =
      (v.registry.kept? team).elim (v.store.buildCache team) fun hd => .ok hd.cache := by
  rw [Service.cache]
  dsimp only
  cases hkept : v.registry.kept? team with
  | none =>
    rw [Registry.get_of_not_kept hkept, Registry.map_build]
    rfl
  | some hd =>
    rw [Registry.get_of_kept (h.mode_eq.trans (h.mode_eq_of_kept? hkept)) hkept]
    rfl

/-- What was handed out was counted. -/
theorem serial_lt (h : History mode log v) {e : Entry} (he : e ∈ log)
    (hgiven : e.given? team = some (s, hd)) : hd.serial < v.registry.builds := by
  induction h generalizing e team s hd with
  | start _ => cases he
  | @get log v other h ih =>
    rcases List.mem_cons.1 he with rfl | he
    · obtain ⟨rfl, rfl, hresult⟩ := Entry.given?_get_eq_some_iff.1 hgiven
      cases hkept : v.registry.kept? other with
      | none => exact Registry.lt_builds_get hkept hresult
      | some due =>
        -- It was handed out before, as it is the one that is kept.
        obtain rfl := h.mode_eq_of_kept? hkept
        rw [Service.cache, Registry.get_of_kept h.mode_eq hkept] at hresult
        obtain rfl := Except.ok.inj hresult
        rw [h.kept?_eq, Option.map_eq_some_iff] at hkept
        obtain ⟨⟨s, due⟩, hfirst, rfl⟩ := hkept
        obtain ⟨e, he, hgiven⟩ := exists_given hfirst
        exact Nat.lt_of_lt_of_le (ih he hgiven) Registry.builds_le_get
    · exact Nat.lt_of_lt_of_le (ih he hgiven) Registry.builds_le_get
  | invalidate _ _ ih | invalidateAll _ ih | change _ _ ih =>
    rcases List.mem_cons.1 he with rfl | he
    · cases hgiven
    · exact ih he hgiven

/-- What is built now was not handed out before. -/
theorem isNew (h : History mode log v) (hkept : v.registry.kept? team = none)
    (hget : (v.cache team).1 = .ok hd) : IsNew log hd := by
  intro e he other s old hgiven
  have hserial : hd.serial = v.registry.builds :=
    (Registry.build_eq_ok_iff.1 ((Registry.get_of_not_kept hkept).symm.trans hget)).1
  rw [hserial]
  exact Nat.ne_of_lt (h.serial_lt he hgiven)

/-- Another team's request or drop leaves what a team gets. -/
theorem map_cache_eq {log' : List Entry} {v' : Service} (h : History mode log v)
    (h' : History mode log' v') (hstore : v'.store = v.store)
    (hkept : v'.registry.kept? team = v.registry.kept? team) :
    (v'.cache team).1.map Handle.cache = (v.cache team).1.map Handle.cache := by
  rw [h.map_cache, h'.map_cache, hstore, hkept]

end History

/-- **A registry hands out the first cache since the last drop.** In shared mode each request gives
the very cache that the first successful request since the last drop gave, which is what a build
gave on the store of that time; where there was no such request it gives what a build gives now, a
cache that was never handed out before or a fault. Otherwise each request does the latter, and there
are never any slots. What is asked for another team, or dropped for it, has no part in this. -/
theorem hands_out_first_since_drop {log : List Entry} (h : History mode log v) (team : TeamId) :
    (mode = .shared → ∀ s hd, first? team log = some (s, hd) →
      (v.cache team).1 = .ok hd ∧ s.buildCache team = .ok hd.cache) ∧
    (mode = .perRequest ∨ first? team log = none →
      (v.cache team).1.map Handle.cache = v.store.buildCache team ∧
        ∀ hd, (v.cache team).1 = .ok hd → IsNew log hd) ∧
    (mode = .perRequest → v.registry.size = 0) ∧
    ∀ other v', other ≠ team →
      v' = (v.cache other).2 ∨ v' = { v with registry := v.registry.invalidate other } →
      (v'.cache team).1.map Handle.cache = (v.cache team).1.map Handle.cache ∧
        v'.registry.kept? team = v.registry.kept? team := by
  refine ⟨?_, fun hnone => ?_, ?_, fun other v' hne hv' => ?_⟩
  · rintro rfl s hd hfirst
    refine ⟨?_, h.buildCache_of_first? hfirst⟩
    have hkept : v.registry.kept? team = some hd := by rw [h.kept?_eq, hfirst, Option.map_some]
    rw [Service.cache, Registry.get_of_kept h.mode_eq hkept]
  · have hkept := h.kept?_eq_none hnone
    exact ⟨by rw [h.map_cache, hkept, Option.elim_none], fun hd => h.isNew hkept⟩
  · rintro rfl
    rw [Registry.size, h.slots_eq]
    rfl
  · rcases hv' with rfl | rfl
    · have hkept : (v.cache other).2.registry.kept? team = v.registry.kept? team :=
        Registry.kept?_get_of_ne hne.symm
      exact ⟨h.map_cache_eq (h.get other) rfl hkept, hkept⟩
    · have hkept : (v.registry.invalidate other).kept? team = v.registry.kept? team := by
        rw [Registry.kept?_invalidate, if_neg hne.symm]
      exact ⟨h.map_cache_eq (h.invalidate other) rfl hkept, hkept⟩

/-- A cache is asked for before there are tables, and then in a new store; when the tables are gone
again, the team still gets the cache that was built in between, which no build would give. -/
theorem kept_without_tables : ∃ log v hd,
    History .shared log v ∧ first? 1 log = some (Store.fresh .epoch, hd) ∧
      v.store.buildCache 1 = .error .storage ∧ (v.cache 1).1 = .ok hd := by
  have hblank : (Store.blank .epoch).buildCache 1 = .error .storage := rfl
  obtain ⟨c, hbuild⟩ := (Store.Sound.fresh .epoch).succeeds_buildCache 1
  generalize Store.fresh .epoch = s at hbuild
  -- The first request fails, so that nothing is due when the store gets its tables.
  have hstart : History .shared _ _ := (History.start (Store.blank .epoch)).get 1
  have hfault : ((start (Store.blank .epoch) .shared).cache 1).1 = .error .storage := rfl
  rw [hfault] at hstart
  have hmended := hstart.change s
  obtain ⟨hd, hget, -⟩ := map_eq_ok_iff.1
    (((hands_out_first_since_drop hmended 1).2.1 (.inr rfl)).1.trans hbuild)
  have hgot := hmended.get 1
  rw [hget] at hgot
  have htorn := hgot.change (Store.blank .epoch)
  exact ⟨_, _, hd, htorn, rfl, hblank, ((hands_out_first_since_drop htorn 1).1 rfl _ hd rfl).1⟩

end Service

end TeamAccess
