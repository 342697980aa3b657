import TeamAccess.Proofs.Additions
import TeamAccess.Proofs.Upkeep

/-!
# Descent — how far down an organization reaches

Whoever owns an organization owns those below it, by the closure. In every run the closure is in
step with the parent links, so what is reached is told by the links alone: it is the organizations
from which at most `depthLimit` links lead up to the owned one
(`Store.Settled.gives_extract_edOrgRead_iff`). The limit is there to end searches that parent links
might keep going; no links do, but a chain that is longer than the limit is cut off all the same.
-/

namespace TeamAccess

namespace Store

variable {s : Store} {team : TeamId} {r x : EdOrg}

/-! ## Walks up from an organization -/

/-- The row says of an organization that so many links lead up to it from `x`, at most
`depthLimit`. -/
def WalkRow (s : Store) (x : EdOrg) (row : ClosureRow) : Prop :=
  ∃ n ≤ depthLimit, ∃ a, s.Leads n x.id a ∧ row = ⟨.int a, .int x.id, .int (Int64.ofNat n)⟩

namespace Settled

/-- Without a way back an organization is so many links away, and no other number. -/
theorem leads_unique (h : s.Settled) {j k : Nat} {d a : ResourceId} (hj : s.Leads j d a)
    (hk : s.Leads k d a) : j = k := by
  wlog hle : j ≤ k generalizing j k
  · exact (this hk hj (Nat.le_of_not_le hle)).symm
  obtain ⟨m, rfl⟩ := Nat.exists_eq_add_of_le hle
  have hround : m = 0 := h.orderly.forest a m (hj.rest hk)
  omega

/-- The closure rows of an organization are those of its walk. -/
theorem mem_closureRows_iff (h : s.Settled) {t : Index EdOrgRow.id} (ht : s.edOrgs = some t)
    (hx : s.HasEdOrg x) {row : ClosureRow} : row ∈ closureRows t x.id ↔ s.WalkRow x row := by
  constructor
  · intro hrow
    obtain ⟨y, -, -, hy⟩ := h.sound.mem_ancestors ht hx (ends_of_mem_closureRows hrow).1
    obtain ⟨n, hn, hnearest, rfl⟩ := (TeamAccess.mem_closureRows_iff hy).1 hrow
    exact ⟨n, hn, y.id, (h.sound.climbs_iff ht).1 hnearest.climbs, rfl⟩
  · rintro ⟨n, hn, a, hleads, rfl⟩
    have hnearest : Nearest t n x.id a := {
      climbs := (h.sound.climbs_iff ht).2 hleads
      least := fun j hj => Nat.le_of_eq (h.leads_unique hleads ((h.sound.climbs_iff ht).1 hj)) }
    exact (TeamAccess.mem_closureRows_iff rfl).2 ⟨n, hn, hnearest, rfl⟩

/-- **What the closure says of an organization** is where its walk leads. -/
theorem mem_closure_iff (h : s.Settled) {c : Index ClosureRow.ends} (hc : s.closure = some c)
    (hx : s.HasEdOrg x) {row : ClosureRow} (hrow : row.descendant = .int x.id) :
    row ∈ c ↔ s.WalkRow x row := by
  obtain ⟨t, ht, c', hc', hiff⟩ := h.current x hx
  obtain rfl := Option.some.inj (hc.symm.trans hc')
  rw [hiff row hrow, h.mem_closureRows_iff ht hx]

/-- **What lies below an organization** is what so many parent links lead up from. -/
theorem liesBelow_iff (h : s.Settled) (hx : s.HasEdOrg x) {a : ResourceId} :
    s.LiesBelow a x.id ↔ ∃ n ≤ depthLimit, s.Leads n x.id a := by
  constructor
  · rintro ⟨c, hc, row, hrow, ha, hd⟩
    obtain ⟨n, hn, b, hleads, rfl⟩ := (h.mem_closure_iff hc hx hd).1 hrow
    obtain rfl : b = a := IntCell.equals_int.1 ha
    exact ⟨n, hn, hleads⟩
  · rintro ⟨n, hn, hleads⟩
    obtain ⟨c, hc, -⟩ := h.sound.closure
    have hwalk : s.WalkRow x ⟨.int a, .int x.id, .int (Int64.ofNat n)⟩ := ⟨n, hn, a, hleads, rfl⟩
    exact ⟨c, hc, _, (h.mem_closure_iff hc hx rfl).2 hwalk, IntCell.equals_int.2 rfl, rfl⟩

end Settled

/-- What an organization contributes to reading organizations, in its tenant. -/
theorem contributes_edOrg_iff {o : Ods} {t : Tenant} {e : Environment} {n : ResourceId}
    (ho : s.OdsIn o t e) (htn : t.id = n) (hr : s.HasEdOrg r) (hro : r.ods = o.id) {d : Demand} :
    s.Contributes .edOrgRead (.tenant n) (.edOrg r.id) d ↔
      ∃ x, s.Reaches x (.edOrg r.id) ∧ d = .entry (.id x.id) := by
  constructor
  · intro hd
    cases hd with
    | edOrgs _ _ hreach _ => exact ⟨_, hreach, rfl⟩
    | applications _ _ _ _ hs => cases hs
    | odsAbove _ _ hs _ => cases hs
  · rintro ⟨x, hreach, rfl⟩
    exact htn ▸ .edOrgs ho ⟨r, hr, rfl, hro⟩ hreach rfl

/-- **Who owns an organization and nothing else may read**, in its tenant, the organizations that so
many parent links lead up from to it. -/
theorem Settled.gives_extract_edOrgRead_iff (h : s.Settled) {c : Cache} {o : Ods} {q : ScopeParams}
    {d : Demand} (hc : s.buildCache team = .ok c) (hr : s.HasEdOrg r)
    (hown : s.HoldsOnly team .edOrgRead (.edOrg r.id)) (ho : s.HasOds o) (hro : r.ods = o.id)
    (hq : q.tenant = some o.tenant) : (c.extract .edOrgRead q).Gives d ↔
      ∃ x n, s.HasEdOrg x ∧ n ≤ depthLimit ∧ s.Leads n x.id r.id ∧ d = .entry (.id x.id) := by
  obtain ⟨t, e, hin⟩ := h.sound.odsIn ho
  have hplace : q.place? Privilege.edOrgRead.shape = some (.tenant o.tenant) := by
    simp [ScopeParams.place?, Privilege.shape, Privilege.subject, Subject.shape, hq]
  have hreach : ∀ x, s.Reaches x (.edOrg r.id) ↔
      s.HasEdOrg x ∧ ∃ n ≤ depthLimit, s.Leads n x.id r.id := by
    intro x
    refine and_congr_right fun hx => ?_
    rw [h.liesBelow_iff hx]
    constructor
    · rintro (hid | hbelow)
      · exact ⟨0, Nat.zero_le _, hid ▸ .here _⟩
      · exact hbelow
    · exact .inr
  rw [gives_extract_of_place hc hplace]
  simp only [hown.holds_iff, exists_eq_left, contributes_edOrg_iff hin hin.eq.symm hr hro,
    hreach]
  constructor
  · rintro ⟨x, ⟨hx, n, hn, hlead⟩, rfl⟩
    exact ⟨x, n, hx, hn, hlead, rfl⟩
  · rintro ⟨x, n, hx, hn, hlead, rfl⟩
    exact ⟨x, ⟨hx, n, hn, hlead⟩, rfl⟩

end Store

namespace Service

open Store (HasOds HasEdOrg HoldsOnly Leads)

variable {v : Service} {n : Nat}

/-- **Who owns an organization reads what is at most 64 parent links below it.** Whatever has
happened to a service, a team that owns one organization with a role for reading organizations, and
owns nothing else, has in the tenant of that organization just those from which at most 64 parent
links lead up to it. -/
theorem extract_edOrgRead_iff {mode : CacheMode} {now : Timestamp} {es : List Event}
    (hv : v = (initial mode now).run es) {team : TeamId} {r : EdOrg} {o : Ods} {q : ScopeParams}
    (hr : v.store.HasEdOrg r) (hown : v.store.HoldsOnly team .edOrgRead (.edOrg r.id))
    (ho : v.store.HasOds o) (hro : r.ods = o.id) (hq : q.tenant = some o.tenant) :
    ∃ c, v.store.buildCache team = .ok c ∧ ∀ d, (c.extract .edOrgRead q).Gives d ↔
      ∃ x n, v.store.HasEdOrg x ∧ n ≤ 64 ∧ v.store.Leads n x.id r.id ∧ d = .entry (.id x.id) := by
  have hsettled : v.store.Settled := hv ▸ settled_run mode now es
  obtain ⟨c, hc⟩ := hsettled.sound.succeeds_buildCache team
  refine ⟨c, hc, fun d => ?_⟩
  exact hsettled.gives_extract_edOrgRead_iff hc hr hown ho hro hq

/-! ## A chain of organizations -/

/-- The organizations of a chain, each but the first below the one before it. -/
def link : Nat → EdOrg
  | 0 => ⟨0, 3, 0, "Link", none⟩
  | n + 1 => ⟨Int64.ofNat (n + 1), 3, Int64.ofNat (n + 1), "Link", some (Int64.ofNat n)⟩

/-- On the first grounds a team is given the first organization for reading, and the chain grows. -/
def chain : Nat → List Event
  | 0 => grounds ++ [.write (.addEdOrg (link 0)), .write (.addOwnership ⟨1, 3, .edOrg 0⟩)]
  | n + 1 => chain n ++ [.write (.addEdOrg (link (n + 1)))]

/-- The organizations are those of a chain so long, and the team owns the first. -/
structure Chained (s : Store) (n : Nat) : Prop where
  ods : s.HasOds ⟨3, 2, "Main", none⟩
  edOrgs : ∃ t, s.edOrgs = some t ∧ ∀ row, row ∈ t ↔ ∃ k ≤ n, row = (link k).row
  owned : s.HoldsOnly 1 .edOrgRead (.edOrg 0)

@[simp] theorem link_id (n : Nat) : (link n).id = Int64.ofNat n := by cases n <;> rfl

@[simp] theorem link_organization (n : Nat) : (link n).organization = Int64.ofNat n := by
  cases n <;> rfl

@[simp] theorem link_ods (n : Nat) : (link n).ods = 3 := by cases n <;> rfl

/-- Numbers of links stay apart as ids. -/
theorem ofNat_ne {k : Nat} (hk : k ≤ n) (hn : (n + 1 : Nat) ≤ Int64.maxValue.toInt) :
    Int64.ofNat k ≠ Int64.ofNat (n + 1) := by
  have hmax := Int64.toInt_maxValue
  intro he
  have htoInt := congrArg Int64.toInt he
  rw [Int64.toInt_ofNat_of_lt (by omega), Int64.toInt_ofNat_of_lt (by omega)] at htoInt
  omega

namespace Chained

variable {s : Store}

/-- The links are stored. -/
theorem hasEdOrg (h : Chained s n) {k : Nat} (hk : k ≤ n) : s.HasEdOrg (link k) := by
  obtain ⟨t, ht, hrows⟩ := h.edOrgs
  exact ⟨t, ht, (hrows _).2 ⟨k, hk, rfl⟩⟩

/-- From each link as many parent links lead to the first as its number says. -/
theorem leads (h : Chained s n) {k : Nat} (hk : k ≤ n) : s.Leads k (Int64.ofNat k) 0 := by
  induction k with
  | zero => exact .here 0
  | succ k ih => exact .up (h.hasEdOrg hk) (link_id _) rfl (ih (by omega))

/-- **The chain grows by a link.** -/
theorem next (h : Chained v.store n) (hsound : v.store.Sound)
    (hn : (n + 1 : Nat) ≤ Int64.maxValue.toInt) :
    Chained (v.step (.write (.addEdOrg (link (n + 1))))).store (n + 1) := by
  obtain ⟨t, ht, hrows⟩ := h.edOrgs
  have hparent : v.store.ParentIn (link (n + 1)) := by
    intro p hp
    have hpn : p = Int64.ofNat n := (Option.some.inj hp).symm
    exact ⟨link n, h.hasEdOrg (Nat.le_refl _), by rw [hpn, link_id], by simp⟩
  have hfree : t.hasKey (link (n + 1)).id = false := by
    rw [Index.hasKey_eq_false_iff]
    intro row hrow
    obtain ⟨k, hk, rfl⟩ := (hrows row).1 hrow
    rw [EdOrg.row_id, link_id, link_id]
    exact ofNat_ne hk hn
  have hnew : ∀ row ∈ t.rows, row.ods.equals (link (n + 1)).ods = true →
      row.organization.equals (link (n + 1)).organization = false := by
    intro row hrow _
    obtain ⟨k, hk, rfl⟩ := (hrows row).1 hrow
    rw [Bool.eq_false_iff, EdOrg.row, ne_eq, IntCell.equals_int, link_organization,
      link_organization]
    exact ofNat_ne hk hn
  obtain ⟨c, hok⟩ := addEdOrg_of_new hsound ht h.ods (link_ods (n + 1)).symm hparent hfree hnew
  rw [store_step_of_write (.addEdOrg _) hok]
  refine ⟨h.ods, ⟨_, rfl, fun row => ?_⟩, h.owned⟩
  rw [Index.mem_insert, hrows]
  constructor
  · rintro (rfl | ⟨⟨k, hk, rfl⟩, -⟩)
    · exact ⟨n + 1, Nat.le_refl _, rfl⟩
    · exact ⟨k, by omega, rfl⟩
  · rintro ⟨k, hk, rfl⟩
    by_cases hlast : k = n + 1
    · exact .inl (by rw [hlast])
    · refine .inr ⟨⟨k, by omega, rfl⟩, ?_⟩
      rw [EdOrg.row_id, EdOrg.row_id, link_id, link_id]
      exact ofNat_ne (by omega) hn

end Chained

/-- The chain begins with one organization that the team owns. -/
theorem chained_zero (hgrounds : Grounds v.store) (hsound : v.store.Sound) :
    Chained (v.run [.write (.addEdOrg (link 0)), .write (.addOwnership ⟨1, 3, .edOrg 0⟩)]).store
      0 := by
  have hods : v.store.HasOds ⟨3, 2, "Main", none⟩ :=
    ⟨_, hgrounds.odss, Index.mem_insert.2 (.inl rfl)⟩
  obtain ⟨v₁, h₁, c, hs₁⟩ : ∃ v₁, v.step (.write (.addEdOrg (link 0))) = v₁ ∧ ∃ c,
      v₁.store = { v.store with
        edOrgs := some (Index.empty.insert (link 0).row), closure := some c } := by
    have hparent : v.store.ParentIn (link 0) := Store.parentIn_of_none rfl
    obtain ⟨c, hok⟩ := addEdOrg_of_new hsound hgrounds.edOrgs hods rfl hparent rfl
      fun _ hrow => absurd hrow List.not_mem_nil
    exact ⟨_, rfl, c, store_step_of_write _ hok⟩
  have hfirst : v₁.store.HasEdOrg (link 0) := by
    rw [hs₁]
    exact ⟨_, rfl, Index.mem_insert.2 (.inl rfl)⟩
  have hteam : v₁.store.HasTeam ⟨1, "Wardens"⟩ := by
    rw [hs₁]
    exact hgrounds.team
  have hreader : v₁.store.HasRole (Store.stored .readOnly 3) := by
    rw [hs₁]
    exact hgrounds.reader
  have hnone : v₁.store.ownerships = some Numbered.empty := by rw [hs₁, hgrounds.ownerships]
  obtain ⟨t, -, hs₂, howns⟩ : ∃ t, t.next? = some 2 ∧
      (v₁.step (.write (.addOwnership ⟨1, 3, .edOrg 0⟩))).store =
        { v₁.store with ownerships := some t } ∧
        (v₁.step (.write (.addOwnership ⟨1, 3, .edOrg 0⟩))).store.OwnsOnly 1
          (Store.stored .readOnly 3) (.edOrg 0) :=
    step_addOwnership_first hnone hteam rfl hreader (resourceExists_edOrg hfirst rfl)
  have hrun : v.run [.write (.addEdOrg (link 0)), .write (.addOwnership ⟨1, 3, .edOrg 0⟩)] =
      v₁.step (.write (.addOwnership ⟨1, 3, .edOrg 0⟩)) := by
    rw [run, List.foldl_cons, h₁, List.foldl_cons, List.foldl_nil]
  rw [hrun]
  have howned := howns.holdsOnly (p := .edOrgRead) ((Store.lends_stored_iff howns.hasRole).2 rfl)
  refine ⟨by rw [hs₂, hs₁]; exact hods, ?_, howned⟩
  refine ⟨Index.empty.insert (link 0).row, by rw [hs₂, hs₁], fun row => ?_⟩
  simp

/-- **There are chains of every length** that ids can tell apart. -/
theorem chained_run (mode : CacheMode) (now : Timestamp) (hn : n ≤ Int64.maxValue.toInt) :
    Chained ((initial mode now).run (chain n)).store n := by
  induction n with
  | zero =>
    rw [chain, run_append]
    exact chained_zero (grounds_run mode now) (sound_run mode now grounds)
  | succ n ih =>
    rw [chain, run_append]
    exact (ih (by omega)).next (sound_run mode now (chain n)) hn

/-- A service with a chain so long. -/
def linked (n : Nat) : Service := (initial .shared .epoch).run (chain n)

/-- Its store is in order, and has the chain. -/
theorem linked_spec (hn : n ≤ Int64.maxValue.toInt) :
    (linked n).store.Settled ∧ Chained (linked n).store n :=
  ⟨settled_run .shared .epoch (chain n), chained_run .shared .epoch hn⟩

/-- **A chain outgrows the limit.** The team owns the first organization of the chain. From the last
one 65 parent links lead up to it, and yet the team may not read the last. -/
theorem chain_outgrows_extract : (linked 65).store.HasEdOrg (link 0) ∧
    (linked 65).store.HoldsOnly 1 .edOrgRead (.edOrg (link 0).id) ∧
    (linked 65).store.HasEdOrg (link 65) ∧
    (linked 65).store.Leads 65 (link 65).id (link 0).id ∧
    ∃ c, (linked 65).store.buildCache 1 = .ok c ∧
      ¬ (c.extract .edOrgRead ⟨none, some 2⟩).Gives (.entry (.id (link 65).id)) := by
  obtain ⟨hsettled, hchain⟩ : (linked 65).store.Settled ∧ Chained (linked 65).store 65 :=
    linked_spec (by decide)
  have hlead : (linked 65).store.Leads 65 (link 65).id (link 0).id := hchain.leads (Nat.le_refl _)
  have hfirst : (linked 65).store.HasEdOrg (link 0) := hchain.hasEdOrg (Nat.zero_le _)
  obtain ⟨c, hc⟩ := hsettled.sound.succeeds_buildCache 1
  refine ⟨hfirst, hchain.owned, hchain.hasEdOrg (Nat.le_refl _), hlead, c, hc, fun hgives => ?_⟩
  obtain ⟨x, n, -, hn, hshort, hid⟩ :=
    (hsettled.gives_extract_edOrgRead_iff hc hfirst hchain.owned hchain.ods rfl rfl).1 hgives
  -- A shorter way up would leave links that lead on from the first organization, which has none.
  have hx : (link 65).id = x.id := AccessKey.id.inj (Demand.entry.inj hid)
  have hsum : n + (65 - n) = 65 := Nat.add_sub_of_le (Nat.le_succ_of_le hn)
  have hlong : (linked 65).store.Leads (n + (65 - n)) (link 65).id (link 0).id := by rwa [hsum]
  rw [← hx] at hshort
  have hzero := ((hshort.rest hlong).eq_of_top hfirst rfl).1
  have hle : n ≤ 64 := hn
  omega

/-- With one link below the first organization, the team may read it. -/
theorem chain_one_extracted : (linked 1).store.HasEdOrg (link 0) ∧
    (linked 1).store.HoldsOnly 1 .edOrgRead (.edOrg (link 0).id) ∧
    (linked 1).store.HasOds ⟨3, 2, "Main", none⟩ ∧
    ∃ c, (linked 1).store.buildCache 1 = .ok c ∧
      (c.extract .edOrgRead ⟨none, some 2⟩).Gives (.entry (.id (link 1).id)) := by
  obtain ⟨-, hchain⟩ : (linked 1).store.Settled ∧ Chained (linked 1).store 1 :=
    linked_spec (by decide)
  have hfirst : (linked 1).store.HasEdOrg (link 0) := hchain.hasEdOrg (Nat.zero_le _)
  have hlead : (linked 1).store.Leads 1 (link 1).id (link 0).id := hchain.leads (Nat.le_refl _)
  have hq : (⟨none, some 2⟩ : ScopeParams).tenant = some 2 := rfl
  obtain ⟨c, hc, hgives⟩ :=
    extract_edOrgRead_iff (v := linked 1) rfl hfirst hchain.owned hchain.ods rfl hq
  refine ⟨hfirst, hchain.owned, hchain.ods, c, hc, (hgives _).2 ?_⟩
  exact ⟨link 1, 1, hchain.hasEdOrg (Nat.le_refl _), by omega, hlead, rfl⟩

end Service

end TeamAccess
