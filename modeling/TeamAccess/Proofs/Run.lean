import TeamAccess.Proofs.Outcome

/-!
# Runs — what happens to a service

A service starts with a new store and no caches. What happens to it then is a list of events: time
passes, writes are made, teams and roles are added to the store, caches are asked for or dropped.
An event that fails is an event too. What each event keeps, every run keeps
(`Service.run_induction`); that the store stays sound is the first such thing.
-/

namespace TeamAccess.Service

/-- What can happen to a service. -/
inductive Event where
  /-- Time passes. -/
  | clock (now : Timestamp)
  | write (w : Write)
  | addTeam (name : String)
  | addRole (name : String) (scope : RoleScope) (privileges : KeySet Privilege)
  /-- The missing tables and built-in roles are added. -/
  | setUp
  /-- A team's cache is asked for. -/
  | cache (team : TeamId)
  | invalidate (team : TeamId)
  | invalidateAll

/-- The service with another store, if there is one. Its caches stay. -/
def withStore {α : Type} (v : Service) (written : Except Fault (α × Store)) : Service :=
  match written with
  | .error _ => v
  | .ok (_, store) => { v with store }

/-- A write of the store leaves the service alone or changes its store only. -/
theorem withStore_leaves {α : Type} (v : Service) (written : Except Fault (α × Store)) :
    v.withStore written = v ∨
      ∃ a s, written = .ok (a, s) ∧ v.withStore written = { v with store := s } := by
  rcases written with _ | ⟨a, s⟩
  · exact .inl rfl
  · exact .inr ⟨a, s, rfl, rfl⟩

/-- The service after an event. -/
def step (v : Service) : Event → Service
  | .clock now => { v with store := { v.store with now } }
  | .write w => (v.write w).2
  | .addTeam name => v.withStore (v.store.createTeam name)
  | .addRole name scope privileges => v.withStore (v.store.createRole name scope privileges)
  | .setUp => { v with store := v.store.afterSetUp }
  | .cache team => (v.cache team).2
  | .invalidate team => { v with registry := v.registry.invalidate team }
  | .invalidateAll => { v with registry := v.registry.invalidateAll }

/-- The service after events, one after the other. -/
def run (v : Service) (es : List Event) : Service := es.foldl step v

/-- A service over a store, without caches. -/
def start (s : Store) (mode : CacheMode) : Service := ⟨s, .empty mode⟩

/-- A service as it starts. -/
def initial (mode : CacheMode) (now : Timestamp) : Service := start (Store.fresh now) mode

@[simp] theorem store_start (s : Store) (mode : CacheMode) : (start s mode).store = s := rfl

@[simp] theorem registry_start (s : Store) (mode : CacheMode) :
    (start s mode).registry = .empty mode := rfl

/-- One run after another is a run. -/
theorem run_append (v : Service) (es es' : List Event) : v.run (es ++ es') = (v.run es).run es' :=
  List.foldl_append

/-- **What every event keeps, every run keeps.** -/
theorem run_induction {P : Service → Prop} (hstep : ∀ v e, P v → P (v.step e)) {v : Service}
    (h : P v) (es : List Event) : P (v.run es) := by
  induction es generalizing v with
  | nil => exact h
  | cons e es ih => exact ih (hstep v e h)

/-! ## Soundness -/

/-- An operation leaves a sound store if what it leaves is one of two sound things. -/
theorem sound_of_leaves {v v' : Service} (h : v.store.Sound)
    (hleaves : v' = v ∨ ∃ s, s.Sound ∧ v' = v.afterWrite s) : v'.store.Sound := by
  rcases hleaves with rfl | ⟨s, hs, rfl⟩
  · exact h
  · exact hs

/-- Asking for a cache leaves the store. -/
@[simp] theorem store_cache (v : Service) (team : TeamId) : (v.cache team).2.store = v.store := rfl

/-- A write keeps the store sound, also if it fails. -/
theorem sound_write {v : Service} (h : v.store.Sound) (w : Write) : (v.write w).2.store.Sound := by
  cases w with
  | addEnvironment e => exact sound_of_leaves h (addEnvironment_leaves h e)
  | addTenant t => exact sound_of_leaves h (addTenant_leaves h t)
  | addOds o => exact sound_of_leaves h (addOds_leaves h o)
  | addEdOrg x => exact sound_of_leaves h (addEdOrg_leaves h x)
  | rebuildClosure ods => exact sound_of_leaves h (rebuildClosure_leaves h ods)
  | addOwnership o =>
    rw [write, done]
    rcases addOwnership_leaves v o with heq | ⟨_, s, hs, heq⟩
    · rwa [heq]
    · rw [heq]
      exact h.createOwnership hs
  | removeOwnership id =>
    rw [write, done]
    rcases removeOwnership_leaves v id with heq | ⟨_, s, -, -, hs, heq⟩
    · rwa [heq]
    · rw [heq]
      exact h.deleteOwnership hs
  | replaceOwnership id o =>
    rw [write, done]
    rcases replaceOwnership_leaves v id o with heq | ⟨_, _, s, -, -, hs, heq⟩
    · rwa [heq]
    · rw [heq]
      exact h.replaceOwnership hs

/-- **An event keeps the store sound.** -/
theorem sound_step {v : Service} (h : v.store.Sound) (e : Event) : (v.step e).store.Sound := by
  cases e with
  | clock now => exact h.withNow now
  | write w => exact sound_write h w
  | addTeam name =>
    rw [step]
    rcases withStore_leaves v (v.store.createTeam name) with heq | ⟨_, s, hs, heq⟩
    · rwa [heq]
    · rw [heq]
      exact h.createTeam hs
  | addRole name scope privileges =>
    rw [step]
    rcases withStore_leaves v (v.store.createRole name scope privileges) with heq | ⟨_, s, hs, heq⟩
    · rwa [heq]
    · rw [heq]
      exact h.createRole hs
  | setUp => exact h.afterSetUp
  | cache team => exact h
  | invalidate team => exact h
  | invalidateAll => exact h

/-- **In every run the store is sound.** -/
theorem sound_run (mode : CacheMode) (now : Timestamp) (es : List Event) :
    ((initial mode now).run es).store.Sound := by
  refine run_induction (P := fun v => v.store.Sound) (fun _ e h => sound_step h e) ?_ es
  rw [initial, store_start]
  exact Store.Sound.fresh now

end TeamAccess.Service
