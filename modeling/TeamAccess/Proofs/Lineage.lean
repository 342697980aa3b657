import TeamAccess.Proofs.Climbing

/-!
# Lineage — where parent links lead

`Store.Leads` follows the parent links of stored organizations, with no bound and without a word on
the closure. On a sound store these are the links in the rows, which the bounded search follows that
the closure is made of (`Sound.climbs_iff`), and the search finds the same after an organization was
added (`Sound.ancestors_eq`). Links end above an organization that is `Rooted`, and nothing that is
rooted leads back to itself (`Rooted.not_leads_back`); this is what the absence of cycles rests on,
as no write ever looks for one.
-/

namespace TeamAccess.Store

variable {s s' : Store}

/-! ## Following parent links -/

/-- **So many parent links lead from the first organization to the second.** The links are those of
stored organizations. -/
inductive Leads (s : Store) : Nat → ResourceId → ResourceId → Prop
  | here (id : ResourceId) : Leads s 0 id id
  | up {n : Nat} {x : EdOrg} {d p a : ResourceId} : s.HasEdOrg x → x.id = d → x.parent = some p →
      Leads s n p a → Leads s (n + 1) d a

/-- The parent of an organization is one link away. -/
theorem leads_parent {x : EdOrg} {p : ResourceId} (hx : s.HasEdOrg x) (hp : x.parent = some p) :
    s.Leads 1 x.id p :=
  .up hx rfl hp (.here p)

namespace Leads

variable {n m : Nat} {d b a : ResourceId}

/-- Links that follow on links lead from the first organization to the last. -/
theorem trans (h : s.Leads n d b) (h' : s.Leads m b a) : s.Leads (n + m) d a := by
  induction h with
  | here => rwa [Nat.zero_add]
  | up hx hid hp _ ih =>
    rw [Nat.add_right_comm]
    exact .up hx hid hp (ih h')

/-- There is one way up: what is further along it is reached from where part of it leads. -/
theorem rest (h : s.Leads n d b) (h' : s.Leads (n + m) d a) : s.Leads m b a := by
  induction h with
  | here => rwa [Nat.zero_add] at h'
  | up hx hid hp _ ih =>
    rw [Nat.add_right_comm] at h'
    cases h' with
    | up hx' hid' hp' h' =>
      obtain rfl := hx.unique hx' (hid.trans hid'.symm)
      obtain rfl := Option.some.inj (hp.symm.trans hp')
      exact ih h'

/-- Links lead where they led while organizations are only added. -/
theorem mono (hgrows : ∀ y, s.HasEdOrg y → s'.HasEdOrg y) (h : s.Leads n d a) : s'.Leads n d a := by
  induction h with
  | here => exact .here _
  | up hx hid hp _ ih => exact .up (hgrows _ hx) hid hp ih

/-- From an organization without a parent no link leads away. -/
theorem eq_of_top {x : EdOrg} (hx : s.HasEdOrg x) (hp : x.parent = none)
    (h : s.Leads n x.id a) : n = 0 ∧ x.id = a := by
  cases h with
  | here => exact ⟨rfl, rfl⟩
  | up hx' hid hp' _ =>
    obtain rfl := hx'.unique hx hid
    rw [hp] at hp'
    cases hp'

end Leads

/-! ## No way back -/

/-- Following parent links up from the organization comes to an end. -/
inductive Rooted (s : Store) : EdOrg → Prop
  | top {x : EdOrg} : x.parent = none → Rooted s x
  | under {x y : EdOrg} : s.HasEdOrg y → x.parent = some y.id → Rooted s y → Rooted s x

namespace Rooted

variable {x : EdOrg}

/-- What is rooted stays so while organizations are only added. -/
theorem mono (hgrows : ∀ y, s.HasEdOrg y → s'.HasEdOrg y) (h : s.Rooted x) : s'.Rooted x := by
  induction h with
  | top hp => exact .top hp
  | under hy hp _ ih => exact .under (hgrows _ hy) hp ih

/-- **No links lead from a rooted organization back to it.** -/
theorem not_leads_back (h : s.Rooted x) (hx : s.HasEdOrg x) {n : Nat} :
    ¬ s.Leads (n + 1) x.id x.id := by
  intro hback
  -- A way back from the organization is a way back from its parent, one link further round.
  induction h generalizing n with
  | top hp =>
    have hzero := (hback.eq_of_top hx hp).1
    omega
  | under hy hp _ ih =>
    rw [Nat.add_comm] at hback
    have hround := ((leads_parent hx hp).rest hback).trans (leads_parent hx hp)
    exact ih hy hround

end Rooted

/-! ## The bounded search -/

namespace Sound

variable {t t' : Index EdOrgRow.id} {x : EdOrg} {n : Nat}

/-- **The links in the rows**, which the bounded search follows, are the links of the
organizations. -/
theorem climbs_iff (h : s.Sound) (ht : s.edOrgs = some t) {d a : ResourceId} :
    Climbs t n d a ↔ s.Leads n d a := by
  constructor
  · intro hclimbs
    induction hclimbs with
    | here id => exact .here id
    | up hrow hid hp _ ih =>
      obtain ⟨y, rfl, -⟩ := h.edOrgs.of_mem ht hrow
      rw [EdOrg.row_parent, Option.map_eq_some_iff] at hp
      obtain ⟨p, hp, hcell⟩ := hp
      exact .up ⟨t, ht, hrow⟩ hid (IntCell.int.inj hcell ▸ hp) ih
  · intro hleads
    induction hleads with
    | here id => exact .here id
    | up hy hid hp _ ih =>
      obtain ⟨t', ht', hrow⟩ := hy
      obtain rfl := Option.some.inj (ht.symm.trans ht')
      exact .up hrow hid (by rw [EdOrg.row_parent, hp]; rfl) ih

/-- Organizations that are added leave the ancestors of those before them. -/
theorem ancestors_eq (h : s.Sound) (ht : s.edOrgs = some t) (ht' : s'.edOrgs = some t')
    (hgrows : ∀ y, s.HasEdOrg y → s'.HasEdOrg y) (hx : s.HasEdOrg x) :
    ancestors t' n (.int x.id) = ancestors t n (.int x.id) := by
  induction n generalizing x with
  | zero => rfl
  | succ n ih =>
    rw [ancestors_succ ht hx, ancestors_succ ht' (hgrows x hx)]
    cases hp : x.parent with
    | none => rfl
    | some p =>
      obtain ⟨y, hy, rfl, -⟩ := h.parentIn hx p hp
      exact congrArg (IntCell.int x.id :: ·) (ih hy)

/-- Organizations that are added leave the closure rows of those before them. -/
theorem closureRows_eq (h : s.Sound) (ht : s.edOrgs = some t) (ht' : s'.edOrgs = some t')
    (hgrows : ∀ y, s.HasEdOrg y → s'.HasEdOrg y) (hx : s.HasEdOrg x) :
    closureRows t' x.id = closureRows t x.id := by
  rw [closureRows, closureRows, h.ancestors_eq ht ht' hgrows hx]

end Sound

end TeamAccess.Store
