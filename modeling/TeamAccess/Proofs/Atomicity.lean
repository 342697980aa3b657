import TeamAccess.Proofs.Outcome

/-!
# Atomicity — what a write leaves when it fails

A write asks, changes tables and drops caches, and each step can fail. A write that fails leaves no
trace, with one exception: a new organization is inserted and the closure is rebuilt in two steps,
so where only the rebuild fails the organization stays, and every cache stays too although the
hierarchy has changed. On a sound store the rebuild does not fail (`addEdOrg_leaves`).
-/

namespace TeamAccess.Service

variable {v : Service} {fault : Fault}

/-- The write inserts an organization and then fails to rebuild the closure; the store is the one
after the insertion. -/
def Stranded (v : Service) (w : Write) (s : Store) : Prop :=
  ∃ x, w = .addEdOrg x ∧ checkEdOrg v.store x = .ok () ∧ v.store.createEdOrg x = .ok s ∧
    ∀ s', s.rebuildClosure x.ods ≠ .ok s'

/-- An insertion changes the store. -/
theorem ne_of_createEdOrg {s s' : Store} {x : EdOrg} (h : s.createEdOrg x = .ok s') : s' ≠ s := by
  obtain ⟨t, ht, -, -, hfree, -, -, -, rfl⟩ := Store.createEdOrg_eq_ok_iff.1 h
  intro heq
  have hrows : some (t.insert x.row) = some t := (congrArg Store.edOrgs heq).trans ht
  have hmem : x.row ∈ t := Option.some.inj hrows ▸ Index.mem_insert.2 (.inl rfl)
  exact Index.hasKey_eq_false_iff.1 hfree x.row hmem rfl

/-! ## One write at a time -/

/-- A failed write that is one step leaves the service. -/
theorem commit_of_error {written : Except Fault Store} (h : (v.commit written).1 = .error fault) :
    (v.commit written).2 = v := by
  cases written with
  | error _ => rfl
  | ok _ => cases h

/-- An organization that is refused leaves the service, and one whose closure cannot be rebuilt
leaves the store after the insertion with the caches before it. -/
theorem addEdOrg_of_error {x : EdOrg} (h : (v.addEdOrg x).1 = .error fault) :
    (v.addEdOrg x).2 = v ∧ (∀ s, ¬ v.Stranded (.addEdOrg x) s) ∨
      ∃ s, v.Stranded (.addEdOrg x) s ∧ (v.addEdOrg x).2 = { v with store := s } := by
  rw [addEdOrg] at h ⊢
  split at h
  · rename_i hrefused
    refine .inl ⟨rfl, ?_⟩
    rintro s ⟨_, hx, hcheck, hs, -⟩
    cases hx
    rw [hcheck] at hrefused
    change v.store.createEdOrg x = _ at hrefused
    rw [hs] at hrefused
    cases hrefused
  · -- The insertion was made, so the fault is the rebuild's.
    rename_i s hs
    obtain ⟨_, hcheck, hcreate⟩ := bind_eq_ok_iff.1 hs
    refine .inr ⟨s, ⟨x, rfl, hcheck, hcreate, fun s' hs' => ?_⟩, commit_of_error h⟩
    rw [hs'] at h
    cases h

/-- A failed write to ownerships leaves the service. -/
theorem addOwnership_of_error {o : NewOwnership} (h : (v.addOwnership o).1 = .error fault) :
    (v.addOwnership o).2 = v := by
  rw [addOwnership] at h ⊢
  split at h
  · rfl
  · cases h

theorem removeOwnership_of_error {id : OwnershipId} (h : (v.removeOwnership id).1 = .error fault) :
    (v.removeOwnership id).2 = v := by
  rw [removeOwnership] at h ⊢
  split at h
  · rfl
  · cases h
  · split at h
    · rfl
    · cases h
    · cases h

theorem replaceOwnership_of_error {id : OwnershipId} {o : NewOwnership}
    (h : (v.replaceOwnership id o).1 = .error fault) : (v.replaceOwnership id o).2 = v := by
  simp only [replaceOwnership] at h ⊢
  split at h
  · rfl
  · cases h

/-- What was done fails if what was answered is a fault. -/
theorem done_eq_error_iff {α : Type} {x : Outcome α} :
    (done x).1 = .error fault ↔ x.1 = .error fault := by
  obtain ⟨_ | _, _⟩ := x <;> simp [done, Except.map]

/-- **A failed write leaves the service as it was, unless it strands an organization.** -/
theorem write_of_error {w : Write} (h : (v.write w).1 = .error fault) :
    (v.write w).2 = v ∧ (∀ s, ¬ v.Stranded w s) ∨
      ∃ s, v.Stranded w s ∧ (v.write w).2 = { v with store := s } := by
  -- Only the write of an organization can strand one.
  have hother (heq : (v.write w).2 = v) (hw : ∀ x, w ≠ .addEdOrg x) :
      (v.write w).2 = v ∧ (∀ s, ¬ v.Stranded w s) ∨
        ∃ s, v.Stranded w s ∧ (v.write w).2 = { v with store := s } :=
    .inl ⟨heq, fun _ ⟨x, hx, _⟩ => hw x hx⟩
  cases w with
  | addEdOrg x => exact addEdOrg_of_error h
  | addEnvironment e => exact hother (commit_of_error h) (by simp)
  | addTenant t => exact hother (commit_of_error h) (by simp)
  | addOds o => exact hother (commit_of_error h) (by simp)
  | rebuildClosure ods => exact hother (commit_of_error h) (by simp)
  | addOwnership o => exact hother (addOwnership_of_error (done_eq_error_iff.1 h)) (by simp)
  | removeOwnership id => exact hother (removeOwnership_of_error (done_eq_error_iff.1 h)) (by simp)
  | replaceOwnership id o =>
    exact hother (replaceOwnership_of_error (done_eq_error_iff.1 h)) (by simp)

/-- A write that strands an organization fails, and the caches are those from before. -/
theorem Stranded.write_eq {w : Write} {s : Store} (h : v.Stranded w s) :
    v.write w = (.error .storage, { v with store := s }) := by
  obtain ⟨x, rfl, hcheck, hcreate, hrebuild⟩ := h
  have hinserted : (do checkEdOrg v.store x; v.store.createEdOrg x) = .ok s :=
    bind_eq_ok_iff.2 ⟨(), hcheck, hcreate⟩
  have hfault : s.rebuildClosure x.ods = .error .storage := by
    cases hr : s.rebuildClosure x.ods with
    | error e => rw [Store.rebuildClosure_fault hr]
    | ok s' => exact absurd hr (hrebuild s')
  rw [write, addEdOrg, hinserted]
  simp only [hfault, commit]

/-- **Which failed writes leave a trace.** Those that insert an organization and cannot rebuild the
closure, for want of its table or of an ancestor; what they leave is the organization, in a store
that the caches do not know. Every other write that fails leaves all tables, all ids handed out and
all caches as they were. -/
theorem failed_write_leaves_trace_iff (v : Service) (w : Write) :
    ((∃ fault, (v.write w).1 = .error fault) ∧ (v.write w).2 ≠ v ↔ ∃ s, v.Stranded w s) ∧
      ∀ s, v.Stranded w s → (v.write w).2 = { v with store := s } := by
  refine ⟨⟨?_, ?_⟩, fun s h => by rw [h.write_eq]⟩
  · rintro ⟨⟨fault, hfault⟩, hne⟩
    rcases write_of_error hfault with ⟨heq, -⟩ | ⟨s, hs, -⟩
    · exact absurd heq hne
    · exact ⟨s, hs⟩
  · rintro ⟨s, hs⟩
    rw [hs.write_eq]
    refine ⟨⟨.storage, rfl⟩, fun heq => ?_⟩
    obtain ⟨x, -, -, hcreate, -⟩ := hs
    exact ne_of_createEdOrg hcreate (congrArg Service.store heq)

/-- A service over one ODS, without a closure. -/
def withoutClosure : Service where
  store := {
    now := .epoch
    environments := some (Index.single ⟨1, "East", "v1"⟩)
    tenants := some (Index.single ⟨2, .int 1, "North"⟩)
    odss := some (Index.single ⟨3, .int 2, "Schools", none⟩)
    edOrgs := some Index.empty
    closure := none
    teams := some .empty
    roles := some .empty
    privileges := some Index.empty
    ownerships := some .empty }
  registry := .empty .shared

/-- An organization whose closure cannot be built is refused and stays all the same. -/
theorem withoutClosure_strands :
    (withoutClosure.write (.addEdOrg ⟨4, 3, 100, "First", none⟩)).1 = .error .storage ∧
      (withoutClosure.write (.addEdOrg ⟨4, 3, 100, "First", none⟩)).2 ≠ withoutClosure := by
  refine ⟨rfl, fun heq => ?_⟩
  have hedOrgs := congrArg (fun v => v.store.edOrgs) heq
  exact absurd hedOrgs (by decide)

end TeamAccess.Service
