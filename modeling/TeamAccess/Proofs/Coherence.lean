import TeamAccess.Proofs.Retention
import TeamAccess.Proofs.Run
import TeamAccess.Proofs.Totality

/-!
# Coherence — a kept cache is the one a build would give

A registry keeps caches that were built from earlier stores. A service is coherent if each of them
is what a build gives on the store as it is now. Every event keeps this: one that changes what a
build of some team gives drops that team's cache, and the others are retained.
-/

namespace TeamAccess

namespace Registry

variable {r : Registry} {team team' : TeamId}

/-- A dropped cache is dropped, and the others stay. -/
theorem get?_invalidate :
    (r.invalidate team).slots.get? team' = if team' = team then none else r.slots.get? team' :=
  KeyMap.get?_erase

end Registry

namespace Service

variable {v : Service}

/-- **Every cache that is kept is the one that a build gives.** -/
def Coherent (v : Service) : Prop :=
  ∀ team h, v.registry.slots.get? team = some (some h) → v.store.buildCache team = .ok h.cache

namespace Coherent

/-- A coherent registry hands out what a build gives. -/
theorem get_eq (h : v.Coherent) (team : TeamId) :
    (v.registry.get v.store team).1.map Handle.cache = v.store.buildCache team := by
  have hbuild : (v.registry.build v.store team).map Handle.cache = v.store.buildCache team := by
    unfold Registry.build
    cases v.store.buildCache team <;> rfl
  unfold Registry.get
  split
  · rw [← hbuild]
    split <;> simp_all
  · split
    · rename_i handle hslot
      exact (h team handle hslot).symm
    · rw [← hbuild]
      split <;> simp_all

/-- Over a sound store a team is handed a cache, the one that a build gives. -/
theorem exists_handle (h : v.Coherent) (hsound : v.store.Sound) (team : TeamId) :
    ∃ handle, (v.cache team).1 = .ok handle ∧ v.store.buildCache team = .ok handle.cache := by
  obtain ⟨c, hbuild⟩ := hsound.succeeds_buildCache team
  obtain ⟨handle, hget, rfl⟩ : ∃ handle, (v.cache team).1 = .ok handle ∧ handle.cache = c :=
    map_eq_ok_iff.1 ((h.get_eq team).trans hbuild)
  exact ⟨handle, hget, hbuild⟩

/-- To ask for a cache keeps what is kept, and what was built anew is right. -/
theorem cache (h : v.Coherent) (team : TeamId) : (v.cache team).2.Coherent := by
  intro team' handle hslot
  rw [store_cache]
  simp only [Service.cache, Registry.get, Registry.build] at hslot
  -- Slots change only in shared mode and where no cache was kept: to what was just built, or to an
  -- empty one if the build failed.
  split at hslot
  · cases hbuild : v.store.buildCache team <;> rw [hbuild] at hslot <;> exact h team' handle hslot
  · split at hslot
    · exact h team' handle hslot
    · cases hbuild : v.store.buildCache team with
      | error _ =>
        simp only [hbuild, Except.map, KeyMap.get?_put] at hslot
        split at hslot
        · cases hslot
        · exact h team' handle hslot
      | ok c =>
        simp only [hbuild, Except.map, KeyMap.get?_put] at hslot
        split at hslot
        · rename_i heq
          cases hslot
          exact heq ▸ hbuild
        · exact h team' handle hslot

/-- Where no cache is kept all are right. -/
theorem afterWrite (s : Store) : (v.afterWrite s).Coherent := by
  intro team handle hslot
  cases hslot

/-- To drop a cache leaves the others right. -/
theorem invalidate (h : v.Coherent) (team : TeamId) :
    Coherent { v with registry := v.registry.invalidate team } := by
  intro team' handle hslot
  dsimp only at hslot
  rw [Registry.get?_invalidate] at hslot
  split at hslot
  · cases hslot
  · exact h team' handle hslot

/-- A change that the builds of a team do not see leaves its cache right; so if each team's cache is
dropped or not concerned, all are right. -/
theorem of_retains (h : v.Coherent) {s : Store} {r : Registry}
    (hslots : ∀ team handle, r.slots.get? team = some (some handle) →
      v.registry.slots.get? team = some (some handle) ∧ Store.Retains v.store s team) :
    Coherent ⟨s, r⟩ := by
  intro team handle hslot
  obtain ⟨hold, hretains⟩ := hslots team handle hslot
  exact hretains.buildCache (h team handle hold)

/-- A hierarchy write leaves the service alone or drops every cache. -/
theorem of_leaves {v' : Service} (h : v.Coherent)
    (hleaves : v' = v ∨ ∃ s, s.Sound ∧ v' = v.afterWrite s) : v'.Coherent := by
  rcases hleaves with rfl | ⟨s, -, rfl⟩
  · exact h
  · exact afterWrite s

/-- A new ownership. -/
theorem addOwnership (h : v.Coherent) (o : NewOwnership) : (v.addOwnership o).2.Coherent := by
  rcases addOwnership_leaves v o with heq | ⟨created, s, hs, heq⟩
  · rwa [heq]
  · rw [heq]
    refine h.of_retains fun team handle hslot => ?_
    rw [Registry.get?_invalidate] at hslot
    split at hslot
    · cases hslot
    · rename_i hteam
      exact ⟨hslot, Store.retains_createOwnership hs hteam⟩

/-- One ownership less. -/
theorem removeOwnership (h : v.Coherent) (id : OwnershipId) :
    (v.removeOwnership id).2.Coherent := by
  rcases removeOwnership_leaves v id with heq | ⟨o, s, ho, hid, hs, heq⟩
  · rwa [heq]
  · rw [heq]
    refine h.of_retains fun team handle hslot => ?_
    rw [Registry.get?_invalidate] at hslot
    split at hslot
    · cases hslot
    · rename_i hteam
      exact ⟨hslot, Store.retains_deleteOwnership hs ho hid hteam⟩

/-- One ownership for another, maybe of another team: the caches of both teams are dropped, and a
third team's list is the same after each of the two writes. -/
theorem replaceOwnership (h : v.Coherent) (id : OwnershipId) (o : NewOwnership) :
    (v.replaceOwnership id o).2.Coherent := by
  rcases replaceOwnership_leaves v id o with heq | ⟨old, created, s, hold, hid, hs, heq⟩
  · rwa [heq]
  · rw [heq]
    obtain ⟨s₁, hadd, hdelete⟩ := Store.replaceOwnership_eq_ok_iff.1 hs
    -- A third team sees neither of the two writes, so its build is carried over one and the other.
    intro team handle hslot
    dsimp only at hslot
    rw [Registry.get?_invalidate] at hslot
    split at hslot
    · cases hslot
    · rename_i hnew
      rw [Registry.get?_invalidate] at hslot
      split at hslot
      · cases hslot
      · rename_i hteam
        have hbuild := (Store.retains_createOwnership hadd hnew).buildCache (h team handle hslot)
        exact (Store.retains_deleteOwnership hdelete (hold.createOwnership hadd) hid
          hteam).buildCache hbuild

/-- A write keeps a service coherent, if its store is sound. -/
theorem write (h : v.Coherent) (hsound : v.store.Sound) (w : Write) : (v.write w).2.Coherent := by
  cases w with
  | addEnvironment e => exact h.of_leaves (addEnvironment_leaves hsound e)
  | addTenant t => exact h.of_leaves (addTenant_leaves hsound t)
  | addOds o => exact h.of_leaves (addOds_leaves hsound o)
  | addEdOrg x => exact h.of_leaves (addEdOrg_leaves hsound x)
  | rebuildClosure ods => exact h.of_leaves (rebuildClosure_leaves hsound ods)
  | addOwnership o => exact h.addOwnership o
  | removeOwnership id => exact h.removeOwnership id
  | replaceOwnership id o => exact h.replaceOwnership id o

/-- **An event keeps a service coherent**, if its store is sound. -/
theorem step (h : v.Coherent) (hsound : v.store.Sound) (e : Event) : (v.step e).Coherent := by
  cases e with
  | clock now => exact h.of_retains fun _ _ hslot => ⟨hslot, Store.retains_withNow now⟩
  | write w => exact h.write hsound w
  | addTeam name =>
    rw [Service.step]
    rcases withStore_leaves v (v.store.createTeam name) with heq | ⟨_, s, hs, heq⟩
    · rwa [heq]
    · rw [heq]
      exact h.of_retains fun _ _ hslot => ⟨hslot, Store.retains_createTeam hs⟩
  | addRole name scope privileges =>
    rw [Service.step]
    rcases withStore_leaves v (v.store.createRole name scope privileges) with heq | ⟨_, s, hs, heq⟩
    · rwa [heq]
    · rw [heq]
      exact h.of_retains fun _ _ hslot => ⟨hslot, Store.retains_createRole hs⟩
  | setUp =>
    intro team handle hslot
    rw [Service.step, Store.afterSetUp, Store.setUp, hsound.withTables_eq]
    exact Store.buildCache_seedAll (h team handle hslot)
  | cache team => exact h.cache team
  | invalidate team => exact h.invalidate team
  | invalidateAll =>
    intro team handle hslot
    cases hslot

end Coherent

/-- In every run the service is coherent. -/
theorem coherent_run (mode : CacheMode) (now : Timestamp) (es : List Event) :
    ((initial mode now).run es).Coherent := by
  refine (run_induction (P := fun v => v.store.Sound ∧ v.Coherent) (fun v e h => ?_) ?_ es).2
  · exact ⟨sound_step h.1 e, h.2.step h.1 e⟩
  · rw [initial, store_start]
    refine ⟨Store.Sound.fresh now, fun team handle hslot => ?_⟩
    rw [registry_start] at hslot
    cases hslot

/-- **Whatever has happened to a service, a team gets the cache that a build gives now**, or the
fault with which a build fails now. -/
theorem get_eq_buildCache (mode : CacheMode) (now : Timestamp) (es : List Event) (team : TeamId) :
    (((initial mode now).run es).registry.get ((initial mode now).run es).store team).1.map
      Handle.cache = ((initial mode now).run es).store.buildCache team :=
  (coherent_run mode now es).get_eq team

end Service

end TeamAccess
