import TeamAccess.Proofs.Integrity
import TeamAccess.Service.Hierarchy
import TeamAccess.Service.Ownerships

/-!
# What an operation leaves

One lemma for each operation of the service: the service after it is the one before it, or one of a
single other form. On a sound store a hierarchy write leaves the service alone or drops every cache;
a write to ownerships leaves it alone or changes one or two rows and drops the caches of the teams
that those rows are of. Which of the two happens is for `Atomicity` to say.
-/

namespace TeamAccess.Service

variable {v : Service}

/-! ## Writes -/

/-- A write of the service. -/
inductive Write where
  | addEnvironment (e : Environment)
  | addTenant (t : Tenant)
  | addOds (o : Ods)
  | addEdOrg (x : EdOrg)
  | rebuildClosure (ods : ResourceId)
  | addOwnership (o : NewOwnership)
  | removeOwnership (id : OwnershipId)
  | replaceOwnership (id : OwnershipId) (o : NewOwnership)

/-- An outcome without what was answered. -/
def done {α : Type} (x : Outcome α) : Outcome Unit := (x.1.map fun _ => (), x.2)

/-- Whether a write fails, and the service after it. -/
def write (v : Service) : Write → Outcome Unit
  | .addEnvironment e => v.addEnvironment e
  | .addTenant t => v.addTenant t
  | .addOds o => v.addOds o
  | .addEdOrg x => v.addEdOrg x
  | .rebuildClosure ods => v.rebuildClosure ods
  | .addOwnership o => done (v.addOwnership o)
  | .removeOwnership id => done (v.removeOwnership id)
  | .replaceOwnership id o => done (v.replaceOwnership id o)

/-! ## Checks -/

/-- A parent that is asked for is there. -/
@[simp] theorem parent_eq_ok_iff {α : Type} {kind : ResourceKind} {id : ResourceId}
    {found : Except Fault (Option α)} {a : α} :
    parent kind id found = .ok a ↔ found = .ok (some a) := by
  cases found with
  | error _ => simp [parent, bind, Except.bind]
  | ok a' => cases a' <;> simp [parent, bind, Except.bind]

/-- An organization passes if its ODS is stored and its parent lies there too. -/
theorem checkEdOrg_eq_ok_iff {s : Store} {x : EdOrg} {u : Unit} :
    checkEdOrg s x = .ok u ↔ (∃ o, s.HasOds o ∧ o.id = x.ods) ∧ s.ParentIn x := by
  simp only [checkEdOrg, bind_eq_ok_iff, parent_eq_ok_iff, Store.ods?_eq_some_iff, Store.ParentIn]
  refine ⟨fun ⟨o, ho, h⟩ => ⟨⟨o, ho⟩, ?_⟩, fun ⟨⟨o, ho⟩, h⟩ => ⟨o, ho, ?_⟩⟩
  · intro p hp
    rw [hp] at h
    obtain ⟨y, hy, h⟩ := bind_eq_ok_iff.1 h
    rw [parent_eq_ok_iff, Store.edOrg?_eq_some_iff] at hy
    split at h
    · rename_i hods
      exact ⟨y, hy.1, hy.2, hods⟩
    · cases h
  · cases hp : x.parent with
    | none => rfl
    | some p =>
      obtain ⟨y, hy, hid, hods⟩ := h p hp
      refine bind_eq_ok_iff.2 ⟨y, parent_eq_ok_iff.2 (Store.edOrg?_eq_some_iff.2 ⟨hy, hid⟩), ?_⟩
      rw [if_pos hods]
      rfl

/-! ## Hierarchy writes -/

/-- A write that leaves no trace when it fails. -/
theorem commit_leaves {written : Except Fault Store} (hwritten : ∀ s, written = .ok s → s.Sound) :
    (v.commit written).2 = v ∨ ∃ s, s.Sound ∧ (v.commit written).2 = v.afterWrite s := by
  cases written with
  | error _ => exact .inl rfl
  | ok s => exact .inr ⟨s, hwritten s rfl, rfl⟩

theorem addEnvironment_leaves (h : v.store.Sound) (e : Environment) :
    (v.addEnvironment e).2 = v ∨ ∃ s, s.Sound ∧ (v.addEnvironment e).2 = v.afterWrite s :=
  commit_leaves fun _ hs => h.createEnvironment hs

theorem addTenant_leaves (h : v.store.Sound) (t : Tenant) :
    (v.addTenant t).2 = v ∨ ∃ s, s.Sound ∧ (v.addTenant t).2 = v.afterWrite s := by
  refine commit_leaves fun s hs => ?_
  obtain ⟨_, -, hs⟩ := bind_eq_ok_iff.1 hs
  exact h.createTenant hs

theorem addOds_leaves (h : v.store.Sound) (o : Ods) :
    (v.addOds o).2 = v ∨ ∃ s, s.Sound ∧ (v.addOds o).2 = v.afterWrite s := by
  refine commit_leaves fun s hs => ?_
  obtain ⟨_, -, hs⟩ := bind_eq_ok_iff.1 hs
  exact h.createOds hs

/-- The store with an organization that passes, and with the closure of its ODS rebuilt. -/
def withEdOrg (s : Store) (x : EdOrg) : Except Fault Store := do
  checkEdOrg s x
  let s₁ ← s.createEdOrg x
  s₁.rebuildClosure x.ods

/-- What adds an organization adds it below a parent of its ODS, and rebuilds the closure. -/
theorem withEdOrg_eq_ok {s s' : Store} {x : EdOrg} (h : withEdOrg s x = .ok s') :
    s.ParentIn x ∧ ∃ s₁, s.createEdOrg x = .ok s₁ ∧ s₁.rebuildClosure x.ods = .ok s' := by
  obtain ⟨_, hcheck, h⟩ := bind_eq_ok_iff.1 h
  obtain ⟨s₁, hcreate, hrebuild⟩ := bind_eq_ok_iff.1 h
  exact ⟨(checkEdOrg_eq_ok_iff.1 hcheck).2, s₁, hcreate, hrebuild⟩

/-- **An organization is added in one go**: the rebuild that follows the insertion does not fail. -/
theorem addEdOrg_eq_commit (h : v.store.Sound) (x : EdOrg) :
    v.addEdOrg x = v.commit (withEdOrg v.store x) := by
  rw [addEdOrg, withEdOrg]
  cases hcheck : checkEdOrg v.store x with
  | error fault => rfl
  | ok u =>
    cases hcreate : v.store.createEdOrg x with
    | error fault => rfl
    | ok s =>
      -- The check found the parent in the same ODS, so soundness outlives the insertion.
      have hparent := (checkEdOrg_eq_ok_iff.1 hcheck).2
      obtain ⟨s', hs'⟩ := (h.createEdOrg hparent hcreate).exists_rebuildClosure x.ods
      simp only [bind, Except.bind, hs']
      rfl

/-- The caches are dropped whenever the organization is added. -/
theorem addEdOrg_leaves (h : v.store.Sound) (x : EdOrg) :
    (v.addEdOrg x).2 = v ∨ ∃ s, s.Sound ∧ (v.addEdOrg x).2 = v.afterWrite s := by
  rw [addEdOrg_eq_commit h]
  refine commit_leaves fun s hs => ?_
  obtain ⟨hparent, s₁, hcreate, hrebuild⟩ := withEdOrg_eq_ok hs
  exact (h.createEdOrg hparent hcreate).rebuildClosure hrebuild

theorem rebuildClosure_leaves (h : v.store.Sound) (ods : ResourceId) :
    (v.rebuildClosure ods).2 = v ∨ ∃ s, s.Sound ∧ (v.rebuildClosure ods).2 = v.afterWrite s := by
  refine commit_leaves fun s hs => ?_
  obtain ⟨found, -, hs⟩ := bind_eq_ok_iff.1 hs
  cases found with
  | none => cases hs
  | some _ => exact h.rebuildClosure hs

/-! ## Ownerships -/

/-- A new ownership drops the cache of its team. -/
theorem addOwnership_leaves (v : Service) (o : NewOwnership) :
    (v.addOwnership o).2 = v ∨ ∃ created s, v.store.createOwnership o = .ok (created, s) ∧
      (v.addOwnership o).2 = ⟨s, v.registry.invalidate o.team⟩ := by
  rw [addOwnership]
  split
  · exact .inl rfl
  · rename_i created s hs
    obtain ⟨_, -, hs⟩ := bind_eq_ok_iff.1 hs
    refine .inr ⟨created, s, hs, ?_⟩
    obtain ⟨_, -, _, -, _, -, _, -, -, -, rfl, -⟩ := Store.createOwnership_eq_ok_iff.1 hs
    rfl

/-- An ownership that is found is there to be removed, and its team's cache is dropped. -/
theorem removeOwnership_leaves (v : Service) (id : OwnershipId) :
    (v.removeOwnership id).2 = v ∨ ∃ o s, v.store.HasOwnership o ∧ o.id = id ∧
      v.store.deleteOwnership id = .ok (true, s) ∧
      (v.removeOwnership id).2 = ⟨s, v.registry.invalidate o.team⟩ := by
  rw [removeOwnership]
  split
  · exact .inl rfl
  · exact .inl rfl
  · rename_i o ho
    obtain ⟨⟨t, ht, r, hr, hload⟩, rfl⟩ := Store.ownership?_eq_some_iff.1 ho
    split
    · exact .inl rfl
    · rename_i s hs
      -- The ownership was found just before, so it cannot be missing now.
      obtain ⟨t', ht', -, -, hfound, -⟩ := Store.deleteOwnership_eq_ok_iff.1 hs
      obtain rfl := Option.some.inj (ht.symm.trans ht')
      rw [Index.hasKey_eq_false_iff] at hfound
      exact absurd (OwnershipRow.columns_of_load hload).1 (hfound r hr)
    · rename_i s hs
      exact .inr ⟨o, s, ⟨t, ht, r, hr, hload⟩, rfl, hs, rfl⟩

/-- A replacement drops the caches of both teams. -/
theorem replaceOwnership_leaves (v : Service) (id : OwnershipId) (o : NewOwnership) :
    (v.replaceOwnership id o).2 = v ∨ ∃ old created s, v.store.HasOwnership old ∧ old.id = id ∧
      v.store.replaceOwnership id o = .ok (created, s) ∧
      (v.replaceOwnership id o).2 = ⟨s, (v.registry.invalidate old.team).invalidate o.team⟩ := by
  simp only [replaceOwnership]
  split
  · exact .inl rfl
  · rename_i hs
    obtain ⟨found, hfound, hs⟩ := bind_eq_ok_iff.1 hs
    cases found with
    | none => cases hs
    | some old =>
      obtain ⟨_, -, hs⟩ := bind_eq_ok_iff.1 hs
      obtain ⟨⟨created, s⟩, hreplace, hs⟩ := bind_eq_ok_iff.1 hs
      simp only [pure_eq_ok_iff, Prod.mk.injEq] at hs
      obtain ⟨rfl, rfl, rfl⟩ := hs
      obtain ⟨hold, hid⟩ := Store.ownership?_eq_some_iff.1 hfound
      refine .inr ⟨old, created, s, hold, hid, hreplace, ?_⟩
      obtain ⟨_, hadd, -⟩ := Store.replaceOwnership_eq_ok_iff.1 hreplace
      obtain ⟨_, -, _, -, _, -, _, -, -, -, rfl, -⟩ := Store.createOwnership_eq_ok_iff.1 hadd
      rfl

end TeamAccess.Service
