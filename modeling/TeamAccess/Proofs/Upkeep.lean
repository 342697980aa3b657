import TeamAccess.Proofs.Climbing
import TeamAccess.Proofs.Lineage
import TeamAccess.Proofs.Run

/-!
# Upkeep — the closure follows the parent links

Nobody looks for cycles when an organization is added, and only the closure of its own ODS is
rebuilt then. Both are enough: a new organization has a parent that was stored before it, so links
end above it as they did above the parent, and it changes the ancestors of no other. So in every run
the store is `Settled`: parent links come to an end, and the closure has for each organization the
rows that a rebuild would make. What this means for the hierarchy is `Store.Orderly`.
-/

namespace TeamAccess

namespace Store

variable {s s₁ s' : Store} {ods : ResourceId}

/-! ## Rebuilt closures -/

/-- The closure has, for the organization, the rows that a rebuild would make. -/
def CurrentAt (s : Store) (id : ResourceId) : Prop :=
  ∃ t, s.edOrgs = some t ∧ ∃ c, s.closure = some c ∧
    ∀ r : ClosureRow, r.descendant = .int id → (r ∈ c ↔ r ∈ closureRows t id)

namespace Sound

variable {t : Index EdOrgRow.id} {c : Index ClosureRow.ends}

/-- **A rebuilt closure** has the rows that it had of organizations elsewhere, and those of the
organizations of the ODS computed anew. -/
theorem mem_rebuiltClosure_iff (h : s.Sound) (ht : s.edOrgs = some t) (hc : s.closure = some c)
    {r : ClosureRow} : r ∈ rebuiltClosure t c ods ↔
      r ∈ c ∧ (∀ x, s.HasEdOrg x → x.ods = ods → r.descendant ≠ .int x.id) ∨
        ∃ x, s.HasEdOrg x ∧ x.ods = ods ∧ r ∈ closureRows t x.id := by
  have hmember (d : ResourceId) : MemberOf t ods d ↔ ∃ x, s.HasEdOrg x ∧ x.ods = ods ∧ x.id = d :=
    Store.mem_membersOf_iff.symm.trans (h.mem_membersOf_iff ht)
  rw [Store.mem_rebuiltClosure_iff]
  simp only [hmember]
  refine or_congr (and_congr_right fun hr => ?_) ?_
  · obtain ⟨_, d, -, -, -, -, hd⟩ := h.closure.of_mem hc hr
    simp only [hd, ← Bool.not_eq_true, IntCell.equals_int, ne_eq, IntCell.int.injEq]
    constructor
    · intro hno x hx hods
      exact hno x.id ⟨x, hx, hods, rfl⟩
    · rintro hno _ ⟨x, hx, hods, rfl⟩
      exact hno x hx hods
  · constructor
    · rintro ⟨_, ⟨x, hx, hods, rfl⟩, hr⟩
      exact ⟨x, hx, hods, hr⟩
    · rintro ⟨x, hx, hods, hr⟩
      exact ⟨x.id, ⟨x, hx, hods, rfl⟩, hr⟩

/-- A rebuild makes the closure current for the organizations of the ODS, and leaves it so for
others. -/
theorem currentAt_of_rebuildClosure (h : s.Sound) (hok : s.rebuildClosure ods = .ok s') {x : EdOrg}
    (hx : s.HasEdOrg x) (hcurrent : x.ods ≠ ods → s.CurrentAt x.id) : s'.CurrentAt x.id := by
  obtain ⟨t, ht, c, hc, -, rfl⟩ := rebuildClosure_eq_ok_iff.1 hok
  refine ⟨t, ht, _, rfl, fun r hr => ?_⟩
  rw [h.mem_rebuiltClosure_iff ht hc]
  -- Rows of the organization are made anew if it is of the ODS, and kept otherwise.
  by_cases hods : x.ods = ods
  · constructor
    · rintro (⟨-, hno⟩ | ⟨y, -, -, hrow⟩)
      · exact absurd hr (hno x hx hods)
      · have hid := (ends_of_mem_closureRows hrow).2
        rw [hr, IntCell.int.injEq] at hid
        rwa [hid]
    · intro hrow
      exact .inr ⟨x, hx, hods, hrow⟩
  · obtain ⟨t', ht', c', hc', hiff⟩ := hcurrent hods
    obtain rfl := Option.some.inj (ht.symm.trans ht')
    obtain rfl := Option.some.inj (hc.symm.trans hc')
    have helse : ∀ y, s.HasEdOrg y → y.ods = ods → r.descendant ≠ .int y.id := by
      intro y hy hyods hry
      rw [hr, IntCell.int.injEq] at hry
      exact hods (hx.unique hy hry ▸ hyods)
    rw [← hiff r hr]
    constructor
    · rintro (⟨hrc, -⟩ | ⟨y, hy, hyods, hrow⟩)
      · exact hrc
      · exact absurd (ends_of_mem_closureRows hrow).2 (helse y hy hyods)
    · intro hrc
      exact .inl ⟨hrc, helse⟩

end Sound

/-! ## Settled stores -/

/-- **Hierarchy and closure are in step**: parent links come to an end above every organization, and
the closure is what rebuilds would make it. No ODS has an organization twice. -/
structure Settled (s : Store) : Prop where
  sound : s.Sound
  distinct : ∀ x y, s.HasEdOrg x → s.HasEdOrg y → x.ods = y.ods →
    x.organization = y.organization → x = y
  rooted : ∀ x, s.HasEdOrg x → s.Rooted x
  current : ∀ x, s.HasEdOrg x → s.CurrentAt x.id

/-- The organizations after an addition are the new one and those from before. -/
theorem hasEdOrg_createEdOrg_iff {x y : EdOrg} (hadd : s.createEdOrg x = .ok s₁) :
    s₁.HasEdOrg y ↔ y = x ∨ s.HasEdOrg y := by
  obtain ⟨t, ht, os, -, hfree, -, -, -, rfl⟩ := createEdOrg_eq_ok_iff.1 hadd
  constructor
  · rintro ⟨u, hu, hmem⟩
    obtain rfl := Option.some.inj hu
    rcases Index.mem_insert.1 hmem with hrow | ⟨hmem, -⟩
    · exact .inl (EdOrg.row_inj hrow)
    · exact .inr ⟨t, ht, hmem⟩
  · rintro (rfl | hy)
    · exact ⟨_, rfl, Index.mem_insert.2 (.inl rfl)⟩
    · exact has_of_insert ht hfree hy

/-- A rebuild leaves the organizations. -/
theorem hasEdOrg_rebuildClosure_iff {x : EdOrg} (hok : s.rebuildClosure ods = .ok s') :
    s'.HasEdOrg x ↔ s.HasEdOrg x := by
  obtain ⟨t, -, c, -, -, rfl⟩ := rebuildClosure_eq_ok_iff.1 hok
  exact Iff.rfl

/-- The ODS of a new organization had no such organization before. -/
theorem ne_of_createEdOrg {x y : EdOrg} (hadd : s.createEdOrg x = .ok s₁) (hy : s.HasEdOrg y)
    (hods : y.ods = x.ods) : y.organization ≠ x.organization := by
  obtain ⟨t, ht, os, -, -, hnew, -, -, rfl⟩ := createEdOrg_eq_ok_iff.1 hadd
  obtain ⟨u, hu, hmem⟩ := hy
  obtain rfl := Option.some.inj (ht.symm.trans hu)
  have hother := hnew y.row hmem (IntCell.equals_int.2 hods)
  exact fun he => absurd (IntCell.equals_int.2 he) (Bool.eq_false_iff.1 hother)

namespace Settled

/-- **On a settled store a rebuild changes nothing**, of whatever ODS. -/
theorem rebuildClosure_eq (h : s.Settled) (ods : ResourceId) : s.rebuildClosure ods = .ok s := by
  obtain ⟨s', hs'⟩ := h.sound.exists_rebuildClosure ods
  obtain ⟨t, ht, c, hc, -, rfl⟩ := rebuildClosure_eq_ok_iff.1 hs'
  have hsame : rebuiltClosure t c ods = c := by
    refine Index.ext_mem fun r => ?_
    rw [h.sound.mem_rebuiltClosure_iff ht hc]
    have hrow : ∀ x, s.HasEdOrg x → r.descendant = .int x.id →
        (r ∈ c ↔ r ∈ closureRows t x.id) := by
      intro x hx hr
      obtain ⟨t', ht', c', hc', hiff⟩ := h.current x hx
      obtain rfl := Option.some.inj (ht.symm.trans ht')
      obtain rfl := Option.some.inj (hc.symm.trans hc')
      exact hiff r hr
    constructor
    · rintro (⟨hr, -⟩ | ⟨x, hx, -, hr⟩)
      · exact hr
      · exact (hrow x hx (ends_of_mem_closureRows hr).2).2 hr
    · intro hr
      by_cases hods : ∃ x, s.HasEdOrg x ∧ x.ods = ods ∧ r.descendant = .int x.id
      · obtain ⟨x, hx, hxods, hrx⟩ := hods
        exact .inr ⟨x, hx, hxods, (hrow x hx hrx).1 hr⟩
      · exact .inl ⟨hr, fun x hx hxods hrx => hods ⟨x, hx, hxods, hrx⟩⟩
  rw [hs', hsame, ← hc]

/-- A rebuild keeps the store settled. -/
theorem rebuildClosure (h : s.Settled) (hok : s.rebuildClosure ods = .ok s') : s'.Settled := by
  rw [h.rebuildClosure_eq ods] at hok
  cases hok
  exact h

/-- **A new organization keeps the store settled**, once the closure of its ODS is rebuilt. -/
theorem addEdOrg (h : s.Settled) {x : EdOrg} (hparent : s.ParentIn x)
    (hadd : s.createEdOrg x = .ok s₁) (hok : s₁.rebuildClosure x.ods = .ok s') : s'.Settled := by
  have hsound₁ : s₁.Sound := h.sound.createEdOrg hparent hadd
  have hgrows : ∀ y, s.HasEdOrg y → s₁.HasEdOrg y := fun y hy =>
    (hasEdOrg_createEdOrg_iff hadd).2 (.inr hy)
  -- Between the two steps only the new organization may lack its rows, and it is of the ODS.
  have hcurrent : ∀ y, s.HasEdOrg y → s₁.CurrentAt y.id := by
    intro y hy
    obtain ⟨t, ht, c, hc, hiff⟩ := h.current y hy
    obtain ⟨t', ht', -⟩ := hgrows y hy
    have hc' : s₁.closure = some c := by
      obtain ⟨u, -, os, -, -, -, -, -, rfl⟩ := createEdOrg_eq_ok_iff.1 hadd
      exact hc
    refine ⟨t', ht', c, hc', fun r hr => ?_⟩
    rw [h.sound.closureRows_eq ht ht' hgrows hy]
    exact hiff r hr
  have hrooted : ∀ y, s₁.HasEdOrg y → s₁.Rooted y := by
    intro y hy
    rcases (hasEdOrg_createEdOrg_iff hadd).1 hy with rfl | hy
    · cases hp : y.parent with
      | none => exact .top hp
      | some p =>
        obtain ⟨z, hz, rfl, -⟩ := hparent p hp
        exact .under (hgrows z hz) hp ((h.rooted z hz).mono hgrows)
    · exact (h.rooted y hy).mono hgrows
  have hkept : ∀ y, s'.HasEdOrg y ↔ s₁.HasEdOrg y := fun _ => hasEdOrg_rebuildClosure_iff hok
  have hdistinct : ∀ y z, s₁.HasEdOrg y → s₁.HasEdOrg z → y.ods = z.ods →
      y.organization = z.organization → y = z := by
    intro y z hy hz hods horganization
    rcases (hasEdOrg_createEdOrg_iff hadd).1 hy with rfl | hy
    · rcases (hasEdOrg_createEdOrg_iff hadd).1 hz with rfl | hz
      · rfl
      · exact absurd horganization.symm (ne_of_createEdOrg hadd hz hods.symm)
    · rcases (hasEdOrg_createEdOrg_iff hadd).1 hz with rfl | hz
      · exact absurd horganization (ne_of_createEdOrg hadd hy hods)
      · exact h.distinct y z hy hz hods horganization
  refine ⟨hsound₁.rebuildClosure hok, fun y z hy hz => ?_, fun y hy => ?_, fun y hy => ?_⟩
  · exact hdistinct y z ((hkept y).1 hy) ((hkept z).1 hz)
  · exact (hrooted y ((hkept y).1 hy)).mono fun z hz => (hkept z).2 hz
  · refine hsound₁.currentAt_of_rebuildClosure hok ((hkept y).1 hy) fun hods => ?_
    rcases (hasEdOrg_createEdOrg_iff hadd).1 ((hkept y).1 hy) with rfl | hy
    · exact absurd rfl hods
    · exact hcurrent y hy

/-- What touches neither organizations nor closure keeps the store settled. -/
theorem of_eq (h : s.Settled) (hsound : s'.Sound) (hedOrgs : s'.edOrgs = s.edOrgs)
    (hclosure : s'.closure = s.closure) : s'.Settled := by
  have hhas : ∀ y, s'.HasEdOrg y ↔ s.HasEdOrg y := by
    intro y
    rw [HasEdOrg, HasEdOrg, hedOrgs]
  refine ⟨hsound, fun y z hy hz => ?_, fun y hy => ?_, fun y hy => ?_⟩
  · exact h.distinct y z ((hhas y).1 hy) ((hhas z).1 hz)
  · exact (h.rooted y ((hhas y).1 hy)).mono fun z hz => (hhas z).2 hz
  · have hcurrent := h.current y ((hhas y).1 hy)
    rwa [CurrentAt, ← hedOrgs, ← hclosure] at hcurrent

/-- Built-in roles leave organizations and closure alone. -/
theorem seedAll (h : s.Settled) (rs : List BuiltinRole) : (s.seedAll rs).2.Settled := by
  refine seedAll_induction (fun s s' r role hs hadd => ?_) h rs
  have hsound : s'.Sound := hs.sound.createRole hadd
  obtain ⟨t, -, id, -, -, rfl⟩ := createRole_eq_ok hadd
  exact hs.of_eq hsound rfl rfl

/-- **A new store is settled**: it has no organization. -/
theorem fresh (now : Timestamp) : (Store.fresh now).Settled := by
  rw [Store.fresh, afterSetUp, setUp]
  have hnone : ∀ y, ¬ (blank now).withTables.HasEdOrg y := by
    rintro y ⟨t, ht, hmem⟩
    obtain rfl := Option.some.inj ht
    exact Index.not_mem_empty hmem
  have hempty : (blank now).withTables.Settled := {
    sound := Sound.withTables_blank now
    distinct := fun y _ hy => absurd hy (hnone y)
    rooted := fun y hy => absurd hy (hnone y)
    current := fun y hy => absurd hy (hnone y) }
  exact hempty.seedAll _

/-- Setting up again. -/
theorem afterSetUp (h : s.Settled) : s.afterSetUp.Settled := by
  rw [Store.afterSetUp, setUp, h.sound.withTables_eq]
  exact h.seedAll _

end Settled

/-! ## What events do to organizations -/

/-- **What can be done to organizations and closure in one go**: nothing, an addition with the
rebuild that goes with it, or a rebuild alone. -/
inductive Alters (s s' : Store) : Prop
  | nothing : s'.edOrgs = s.edOrgs → s'.closure = s.closure → Alters s s'
  | added {x : EdOrg} {s₁ : Store} : s.ParentIn x → s.createEdOrg x = .ok s₁ →
      s₁.rebuildClosure x.ods = .ok s' → Alters s s'
  | rebuilt {ods : ResourceId} : s.rebuildClosure ods = .ok s' → Alters s s'

/-- What is done in one go keeps the store settled. -/
theorem Settled.of_alters (h : s.Settled) (hsound : s'.Sound) (halters : s.Alters s') :
    s'.Settled := by
  cases halters with
  | nothing hedOrgs hclosure => exact h.of_eq hsound hedOrgs hclosure
  | added hparent hadd hok => exact h.addEdOrg hparent hadd hok
  | rebuilt hok => exact h.rebuildClosure hok

end Store

namespace Service

variable {v : Service}

/-- A write that fails changes nothing. -/
theorem alters_commit {written : Except Fault Store}
    (hwritten : ∀ s, written = .ok s → v.store.Alters s) :
    v.store.Alters (v.commit written).2.store := by
  cases written with
  | error _ => exact .nothing rfl rfl
  | ok s => exact hwritten s rfl

/-- A write to the other tables leaves organizations and closure alone. -/
theorem alters_withStore {α : Type} {written : Except Fault (α × Store)}
    (hwritten : ∀ a s, written = .ok (a, s) → v.store.Alters s) :
    v.store.Alters (v.withStore written).store := by
  rcases withStore_leaves v written with heq | ⟨a, s, hs, heq⟩
  · rw [heq]
    exact .nothing rfl rfl
  · rw [heq]
    exact hwritten a s hs

/-- The rebuild that follows an addition does not fail, so there is no addition without it. -/
theorem alters_addEdOrg (h : v.store.Sound) (x : EdOrg) :
    v.store.Alters (v.addEdOrg x).2.store := by
  rw [addEdOrg_eq_commit h]
  refine alters_commit fun s hs => ?_
  obtain ⟨hparent, s₁, hcreate, hrebuild⟩ := withEdOrg_eq_ok hs
  exact .added hparent hcreate hrebuild

/-- What a write does to organizations and closure. -/
theorem alters_write (h : v.store.Sound) (w : Write) : v.store.Alters (v.write w).2.store := by
  cases w with
  | addEnvironment e =>
    refine alters_commit fun s hs => ?_
    obtain ⟨_, -, -, rfl⟩ := Store.createEnvironment_eq_ok_iff.1 hs
    exact .nothing rfl rfl
  | addTenant t =>
    refine alters_commit fun s hs => ?_
    obtain ⟨_, -, hs⟩ := bind_eq_ok_iff.1 hs
    obtain ⟨_, -, _, -, -, -, -, rfl⟩ := Store.createTenant_eq_ok_iff.1 hs
    exact .nothing rfl rfl
  | addOds o =>
    refine alters_commit fun s hs => ?_
    obtain ⟨_, -, hs⟩ := bind_eq_ok_iff.1 hs
    obtain ⟨_, -, _, -, -, -, rfl⟩ := Store.createOds_eq_ok_iff.1 hs
    exact .nothing rfl rfl
  | addEdOrg x => exact alters_addEdOrg h x
  | rebuildClosure ods =>
    refine alters_commit fun s hs => ?_
    obtain ⟨found, -, hs⟩ := bind_eq_ok_iff.1 hs
    cases found with
    | none => cases hs
    | some _ => exact .rebuilt hs
  | addOwnership o =>
    rw [write, done]
    rcases addOwnership_leaves v o with heq | ⟨_, s, hs, heq⟩
    · rw [heq]
      exact .nothing rfl rfl
    · rw [heq]
      obtain ⟨_, -, _, -, _, -, _, -, -, -, -, rfl⟩ := Store.createOwnership_eq_ok_iff.1 hs
      exact .nothing rfl rfl
  | removeOwnership id =>
    rw [write, done]
    rcases removeOwnership_leaves v id with heq | ⟨_, s, -, -, hs, heq⟩
    · rw [heq]
      exact .nothing rfl rfl
    · rw [heq]
      obtain ⟨_, -, -, -, -, rfl⟩ := Store.deleteOwnership_eq_ok_iff.1 hs
      exact .nothing rfl rfl
  | replaceOwnership id o =>
    rw [write, done]
    rcases replaceOwnership_leaves v id o with heq | ⟨_, _, s, -, -, hs, heq⟩
    · rw [heq]
      exact .nothing rfl rfl
    · rw [heq]
      obtain ⟨s₁, hadd, hdelete⟩ := Store.replaceOwnership_eq_ok_iff.1 hs
      obtain ⟨_, -, _, -, _, -, _, -, -, -, -, rfl⟩ := Store.createOwnership_eq_ok_iff.1 hadd
      obtain ⟨_, -, -, -, -, rfl⟩ := Store.deleteOwnership_eq_ok_iff.1 hdelete
      exact .nothing rfl rfl

/-- **An event keeps the store settled.** -/
theorem settled_step (h : v.store.Settled) (e : Event) : (v.step e).store.Settled := by
  have hsound := sound_step h.sound e
  cases e with
  | clock now => exact h.of_eq hsound rfl rfl
  | write w => exact h.of_alters hsound (alters_write h.sound w)
  | addTeam name =>
    refine h.of_alters hsound (alters_withStore fun _ s hs => ?_)
    obtain ⟨_, -, _, -, -, -, rfl⟩ := Store.createTeam_eq_ok_iff.1 hs
    exact .nothing rfl rfl
  | addRole name scope privileges =>
    refine h.of_alters hsound (alters_withStore fun _ s hs => ?_)
    obtain ⟨_, -, _, -, -, rfl⟩ := Store.createRole_eq_ok hs
    exact .nothing rfl rfl
  | setUp => exact h.afterSetUp
  | cache team => exact h
  | invalidate team => exact h
  | invalidateAll => exact h

/-- **In every run the store is settled.** -/
theorem settled_run (mode : CacheMode) (now : Timestamp) (es : List Event) :
    ((initial mode now).run es).store.Settled := by
  refine run_induction (P := fun v => v.store.Settled) (fun _ e h => settled_step h e) ?_ es
  rw [initial, store_start]
  exact Store.Settled.fresh now

end Service

namespace Store

variable {s : Store}

/-! ## Orderly hierarchies -/

/-- **What holds of the hierarchy.** -/
structure Orderly (s : Store) : Prop where
  /-- Parent links form a forest: no organization is reached from itself by following them. -/
  forest : ∀ id n, s.Leads n id id → n = 0
  /-- Every tenant's environment is stored. -/
  tenants : Filled s.tenants fun r =>
    ∃ t : Tenant, r = t.row ∧ ∃ e, s.HasEnvironment e ∧ t.environment = e.id
  /-- Every ODS's tenant is stored. -/
  odss : Filled s.odss fun r => ∃ o : Ods, r = o.row ∧ ∃ t, s.HasTenant t ∧ o.tenant = t.id
  /-- Every organization's ODS is stored, and so is its parent, in that ODS. -/
  edOrgs : Filled s.edOrgs fun r =>
    ∃ x : EdOrg, r = x.row ∧ (∃ o, s.HasOds o ∧ x.ods = o.id) ∧ s.ParentIn x
  /-- The closure joins organizations of one ODS. -/
  closure : Filled s.closure fun r => ∃ a d, s.HasEdOrg a ∧ s.HasEdOrg d ∧ a.ods = d.ods ∧
    r.ancestor = .int a.id ∧ r.descendant = .int d.id
  /-- Rebuilding the closure of whatever ODS changes nothing. -/
  current : ∀ ods, s.rebuildClosure ods = .ok s
  /-- For every organization the closure has just the rows of the walk up from it. -/
  walked : ∀ x, s.HasEdOrg x → s.CurrentAt x.id

/-- A settled store has an orderly hierarchy. -/
theorem Settled.orderly (h : s.Settled) : s.Orderly where
  forest id n hback := by
    cases n with
    | zero => rfl
    | succ n =>
      have hround := hback
      cases hback with
      | up hx hid _ _ =>
        subst hid
        exact absurd hround ((h.rooted _ hx).not_leads_back hx)
  tenants := h.sound.tenants
  odss := h.sound.odss
  edOrgs := h.sound.edOrgs
  closure := h.sound.closure
  current := h.rebuildClosure_eq
  walked := h.current

end Store

namespace Service

/-- **Whatever has happened to a service, its hierarchy is orderly**, also if writes failed. -/
theorem orderly_run (mode : CacheMode) (now : Timestamp) (es : List Event) :
    ((initial mode now).run es).store.Orderly :=
  (settled_run mode now es).orderly

end Service

end TeamAccess
