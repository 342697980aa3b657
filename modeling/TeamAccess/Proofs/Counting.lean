import TeamAccess.Proofs.Naming
import TeamAccess.Proofs.Replacement

/-!
# Counting — ids that are handed out

Teams, roles and ownerships get their ids from the store, and whoever keeps an id relies on it to
mean one thing for good. Of a table this asks for no more than the largest id handed out and the
ids of the rows. From step to step the first does not fall, and no row comes under an id that
is not above it (`Tally.Follows`); an id that is handed out lies between the two. So the ids that a
run hands out rise, and an id that has gone, being below, does not come again
(`Service.ids_are_never_used_again`). A replacement adds before it removes, so it takes an id even
where it removes what it has just added; that id too is gone for good.
-/

namespace TeamAccess

/-! ## Tables by their ids -/

/-- What a table tells of its ids. -/
structure Tally where
  /-- The largest id handed out. -/
  last : Int64
  /-- A row has the id. -/
  names : Int64 → Prop

namespace Tally

variable {a b c : Tally}

/-- **Ids after a step**: none is taken back, and a row that comes has an id that was not handed out
before. -/
structure Follows (a b : Tally) : Prop where
  last_le : a.last ≤ b.last
  names : ∀ id, b.names id → a.names id ∨ a.last < id ∧ id ≤ b.last

theorem Follows.refl (a : Tally) : Follows a a := ⟨Int64.le_refl _, fun _ h => .inl h⟩

theorem Follows.trans (h : Follows a b) (h' : Follows b c) : Follows a c where
  last_le := Int64.le_trans h.last_le h'.last_le
  names id hid := by
    rcases h'.names id hid with hid | ⟨hlt, hle⟩
    · exact (h.names id hid).imp_right fun ⟨hlt, hle⟩ => ⟨hlt, Int64.le_trans hle h'.last_le⟩
    · exact .inr ⟨Int64.lt_of_le_of_lt h.last_le hlt, hle⟩

/-- The id was handed out, and no row has it any more. -/
def Spent (a : Tally) (id : Int64) : Prop := ¬ a.names id ∧ id ≤ a.last

/-- **An id that is spent stays so.** -/
theorem Spent.of_follows {id : Int64} (h : a.Spent id) (hf : Follows a b) : b.Spent id := by
  refine ⟨fun hid => ?_, Int64.le_trans h.2 hf.last_le⟩
  rcases hf.names id hid with hid | ⟨hlt, -⟩
  · exact h.1 hid
  · exact Int64.lt_irrefl (Int64.lt_of_lt_of_le hlt h.2)

/-- No row has an id that was not handed out. -/
def Counted (a : Tally) : Prop := ∀ id, a.names id → id ≤ a.last

theorem Counted.of_follows (h : a.Counted) (hf : Follows a b) : b.Counted := by
  intro id hid
  rcases hf.names id hid with hid | ⟨-, hle⟩
  · exact Int64.le_trans (h id hid) hf.last_le
  · exact hle

/-- **Ids after a step that may hand one out**: it is new, and from then on it counts as handed
out. -/
structure Advances (a b : Tally) (issued : Option Int64) : Prop extends Follows a b where
  issues : ∀ id, issued = some id → a.last < id ∧ id ≤ b.last

variable {issued : Option Int64}

/-- A step that hands out no id. -/
theorem Follows.advances (h : Follows a b) : Advances a b none :=
  ⟨h, fun _ hid => (nomatch hid)⟩

/-- What follows takes nothing from what was handed out. -/
theorem Advances.trans (h : Advances a b issued) (h' : Follows b c) : Advances a c issued where
  toFollows := h.toFollows.trans h'
  issues id hid :=
    (h.issues id hid).imp_right fun hle => Int64.le_trans hle h'.last_le

end Tally

namespace Numbered

variable {ρ : Type} {key : ρ → Int64} {t : Numbered key}

/-- What a table tells of its ids, if it is there. -/
def tally (t : Option (Numbered key)) : Tally where
  last := t.elim 0 Numbered.last
  names id := ∃ u, t = some u ∧ u.rows.hasKey id = true

/-- **A row takes the next id.** -/
theorem advances_push {r : ρ} (h : t.next? = some (key r)) :
    (tally (some t)).Advances (tally (some (t.push r))) (some (key r)) where
  last_le := Int64.le_of_lt (lt_of_next? h).1
  names id hid := by
    obtain ⟨_, hu, hkey⟩ := hid
    obtain rfl := Option.some.inj hu
    obtain ⟨r', hr', rfl⟩ := Index.hasKey_iff.1 hkey
    rcases Index.mem_insert.1 hr' with rfl | ⟨hr', -⟩
    · exact .inr ⟨(lt_of_next? h).1, Int64.le_refl _⟩
    · exact .inl ⟨t, rfl, Index.hasKey_iff.2 ⟨r', hr', rfl⟩⟩
  issues id hid := by
    obtain rfl := Option.some.inj hid
    exact ⟨(lt_of_next? h).1, Int64.le_refl _⟩

/-- A row that goes takes no id. -/
theorem follows_erase (id : Int64) :
    (tally (some t)).Follows (tally (some (t.withRows (t.rows.erase id)))) where
  last_le := Int64.le_refl _
  names n hn := by
    obtain ⟨_, hu, hkey⟩ := hn
    obtain rfl := Option.some.inj hu
    obtain ⟨r, hr, hrn⟩ := Index.hasKey_iff.1 hkey
    exact .inl ⟨t, rfl, Index.hasKey_iff.2 ⟨r, (Index.mem_erase.1 hr).1, hrn⟩⟩

/-- An id that was handed out and that no row has is spent. -/
theorem spent_of_forall_ne {id : Int64} (hrows : ∀ r ∈ t.rows, key r ≠ id) (hle : id ≤ t.last) :
    (tally (some t)).Spent id := by
  refine ⟨?_, hle⟩
  rintro ⟨_, hu, hkey⟩
  obtain rfl := Option.some.inj hu
  obtain ⟨r, hr, hid⟩ := Index.hasKey_iff.1 hkey
  exact hrows r hr hid

end Numbered

/-! ## The store -/

namespace Store

/-- The tables whose ids the store hands out. -/
inductive Counter where
  | team
  | role
  | ownership

/-- What one of these tables tells of its ids. -/
def tally (s : Store) : Counter → Tally
  | .team => Numbered.tally s.teams
  | .role => Numbered.tally s.roles
  | .ownership => Numbered.tally s.ownerships

/-- The id that an answer hands out. -/
def Reply.id? : Counter → Reply → Option Int64
  | .team, .team t => some t.id
  | .role, .role r => some r.id
  | .ownership, .ownership o => some o.id
  | _, _ => none

/-- The id that is handed out, if what was asked for succeeds. -/
def issued (k : Counter) (reply : Except Fault Reply) : Option Int64 :=
  reply.toOption.bind (Reply.id? k)

variable {s s' : Store} {k : Counter}

@[simp] theorem issued_done : issued k (.ok .done) = none := by cases k <;> rfl

@[simp] theorem issued_removed {found : Bool} : issued k (.ok (.removed found)) = none := by
  cases k <;> rfl

/-- Tables that are the same tell the same. -/
theorem SameTeams.tally_eq (h : SameTeams s s') (k : Counter) : s'.tally k = s.tally k := by
  cases k <;> simp only [tally, h.teams, h.roles, h.ownerships]

/-- A new team takes the next id of teams. -/
theorem advances_createTeam {name : String} {t : Team} (hok : s.createTeam name = .ok (t, s'))
    (k : Counter) : (s.tally k).Advances (s'.tally k) (issued k (.ok (.team t))) := by
  obtain ⟨u, hu, id, hid, -, rfl, rfl⟩ := createTeam_eq_ok_iff.1 hok
  cases k with
  | team =>
    simp only [tally, hu]
    exact Numbered.advances_push hid
  | role | ownership => exact (Tally.Follows.refl _).advances

/-- A new role takes the next id of roles. -/
theorem advances_createRole {name : String} {scope : RoleScope} {ps : KeySet Privilege} {r : Role}
    (hok : s.createRole name scope ps = .ok (r, s')) (k : Counter) :
    (s.tally k).Advances (s'.tally k) (issued k (.ok (.role r))) := by
  obtain ⟨t, ht, id, hid, rfl, rfl⟩ := createRole_eq_ok hok
  cases k with
  | role =>
    simp only [tally, ht]
    exact Numbered.advances_push hid
  | team | ownership => exact (Tally.Follows.refl _).advances

/-- A new ownership takes the next id of ownerships. -/
theorem advances_createOwnership {o : NewOwnership} {created : Ownership}
    (hok : s.createOwnership o = .ok (created, s')) (k : Counter) :
    (s.tally k).Advances (s'.tally k) (issued k (.ok (.ownership created))) := by
  obtain ⟨t, ht, -, -, -, -, id, hid, -, -, rfl, rfl⟩ := createOwnership_eq_ok_iff.1 hok
  cases k with
  | ownership =>
    simp only [tally, ht]
    exact Numbered.advances_push hid
  | team | role => exact (Tally.Follows.refl _).advances

/-- An ownership that goes leaves the ids handed out. -/
theorem follows_deleteOwnership {id : OwnershipId} {found : Bool}
    (hok : s.deleteOwnership id = .ok (found, s')) (k : Counter) :
    (s.tally k).Follows (s'.tally k) := by
  obtain ⟨t, ht, -, -, -, rfl⟩ := deleteOwnership_eq_ok_iff.1 hok
  cases k with
  | ownership =>
    simp only [tally, ht]
    exact Numbered.follows_erase id
  | team | role => exact .refl _

/-- **Ids after an operation**, whichever it is. -/
theorem Turn.advances (h : s.Registered) {reply : Except Fault Reply} (hturn : Turn s reply s')
    (k : Counter) : (s.tally k).Advances (s'.tally k) (issued k reply) := by
  cases hturn with
  | refused _ hsame =>
    rw [hsame.tally_eq]
    exact (Tally.Follows.refl _).advances
  | elsewhere hsame =>
    rw [hsame.tally_eq, issued_done]
    exact (Tally.Follows.refl _).advances
  | missing =>
    rw [issued_removed]
    exact (Tally.Follows.refl _).advances
  | setUp =>
    -- Roles are well kept, so there is none to add.
    have hreply : issued k (s.setUp.1.map fun _ => .done) = none := by
      rw [h.setUp_eq]
      exact issued_done
    rw [hreply, h.setUp_eq]
    exact (Tally.Follows.refl _).advances
  | team hok => exact advances_createTeam hok k
  | role hok => exact advances_createRole hok k
  | added hok => exact advances_createOwnership hok k
  | removed hok =>
    rw [issued_removed]
    exact (follows_deleteOwnership hok k).advances
  | replaced hok =>
    obtain ⟨s₁, hadd, hdelete⟩ := replaceOwnership_eq_ok_iff.1 hok
    exact (advances_createOwnership hadd k).trans (follows_deleteOwnership hdelete k)

/-- What fails happens elsewhere, if at all. -/
theorem Turn.sameTeams_of_error (h : s.Registered) {reply : Except Fault Reply} {fault : Fault}
    (hturn : Turn s reply s') (hfault : reply = .error fault) : SameTeams s s' := by
  cases hturn with
  | refused _ hsame => exact hsame
  | setUp =>
    rw [h.setUp_eq] at hfault
    cases hfault
  | _ => cases hfault

/-! ## Stores whose ids were counted -/

/-- The rows of ownerships are the store's own, so they can be read. -/
def Written (s : Store) : Prop :=
  ∀ t, s.ownerships = some t → ∀ r ∈ t.rows, ∃ o : NewOwnership, ∃ id stamp, r = o.row id stamp

namespace Written

theorem of_eq (h : s.Written) (hownerships : s'.ownerships = s.ownerships) : s'.Written := by
  rwa [Written, hownerships]

theorem createOwnership (h : s.Written) {o : NewOwnership} {created : Ownership}
    (hok : s.createOwnership o = .ok (created, s')) : s'.Written := by
  obtain ⟨t, ht, -, -, -, -, id, -, -, -, -, rfl⟩ := createOwnership_eq_ok_iff.1 hok
  intro t' ht' r hr
  obtain rfl := Option.some.inj ht'
  rcases Index.mem_insert.1 hr with rfl | ⟨hr, -⟩
  · exact ⟨o, id, s.now, rfl⟩
  · exact h t ht r hr

theorem deleteOwnership (h : s.Written) {id : OwnershipId} {found : Bool}
    (hok : s.deleteOwnership id = .ok (found, s')) : s'.Written := by
  obtain ⟨t, ht, -, -, -, rfl⟩ := deleteOwnership_eq_ok_iff.1 hok
  intro t' ht' r hr
  obtain rfl := Option.some.inj ht'
  exact h t ht r (Index.mem_erase.1 hr).1

/-- Rows of ownerships are the store's own whatever happens. -/
theorem turn (h : s.Written) (hregistered : s.Registered) {reply : Except Fault Reply}
    (hturn : Turn s reply s') : s'.Written := by
  cases hturn with
  | refused _ hsame | elsewhere hsame => exact h.of_eq hsame.ownerships
  | missing => exact h
  | setUp => rwa [hregistered.setUp_eq]
  | team hok =>
    obtain ⟨t, -, id, -, -, -, rfl⟩ := createTeam_eq_ok_iff.1 hok
    exact h.of_eq rfl
  | role hok =>
    obtain ⟨t, -, id, -, -, rfl⟩ := createRole_eq_ok hok
    exact h.of_eq rfl
  | added hok => exact h.createOwnership hok
  | removed hok => exact h.deleteOwnership hok
  | replaced hok =>
    obtain ⟨s₁, hadd, hdelete⟩ := replaceOwnership_eq_ok_iff.1 hok
    exact (h.createOwnership hadd).deleteOwnership hdelete

/-- An ownership is looked up, stored or not. -/
theorem ownership?_eq (h : s.Written) {t : Numbered OwnershipRow.id} (ht : s.ownerships = some t)
    (id : OwnershipId) :
    ∃ found, s.ownership? id = .ok found ∧ found.isSome = t.rows.hasKey id := by
  cases hfind : t.rows.find? id with
  | none =>
    refine ⟨none, ?_, ?_⟩
    · refine bind_eq_ok_iff.2 ⟨t, need_eq_ok_iff.2 ht, ?_⟩
      rw [lookUp, hfind]
      rfl
    · exact (Index.hasKey_eq_false_iff.2 (Index.find?_eq_none_iff.1 hfind)).symm
  | some r =>
    obtain ⟨hr, rfl⟩ := Index.find?_eq_some_iff.1 hfind
    obtain ⟨o, n, stamp, rfl⟩ := h t ht r hr
    obtain ⟨created, hload⟩ := o.load_row n stamp s.now
    refine ⟨some (o.stored n created), ?_, ?_⟩
    · exact bind_eq_ok_iff.2 ⟨t, need_eq_ok_iff.2 ht, lookUp_eq_some_iff.2 ⟨_, hr, rfl, hload⟩⟩
    · exact (Index.hasKey_iff.2 ⟨_, hr, rfl⟩).symm

end Written

/-- **An ownership that was removed has spent its id.** -/
theorem spent_of_deleteOwnership (h : (s.tally .ownership).Counted) {id : OwnershipId}
    (hok : s.deleteOwnership id = .ok (true, s')) : (s'.tally .ownership).Spent id := by
  obtain ⟨t, ht, -, -, hkey, rfl⟩ := deleteOwnership_eq_ok_iff.1 hok
  have hle : id ≤ (s.tally .ownership).last := h id ⟨t, ht, hkey⟩
  simp only [tally, ht] at hle ⊢
  exact Numbered.spent_of_forall_ne (fun r hr => (Index.mem_erase.1 hr).2) hle

/-- **Ids are well kept**: rows have ids that were handed out. -/
structure Tallied (s : Store) : Prop where
  registered : s.Registered
  written : s.Written
  counted : ∀ k, (s.tally k).Counted

namespace Tallied

/-- **Ids are well kept whatever happens.** -/
theorem turn (h : s.Tallied) {reply : Except Fault Reply} (hturn : Turn s reply s') :
    s'.Tallied where
  registered := h.registered.turn hturn
  written := h.written.turn h.registered hturn
  counted k := (h.counted k).of_follows (hturn.advances h.registered k).toFollows

/-- The ids of a new store are well kept. -/
theorem fresh (now : Timestamp) : (Store.fresh now).Tallied := by
  have hunfilled := unfilled_fresh now
  have hroles : (Store.fresh now).roles = some builtinRoles := (fresh_spec now).1.roles
  have hempty {ρ : Type} {key : ρ → Int64} :
      (Numbered.tally (some (Numbered.empty : Numbered key))).Counted := by
    rintro id ⟨_, ht, hkey⟩
    obtain rfl := Option.some.inj ht
    obtain ⟨r, hr, -⟩ := Index.hasKey_iff.1 hkey
    exact absurd hr Index.not_mem_empty
  refine ⟨.fresh now, fun t ht r hr => ?written, fun k => ?counted⟩
  case written =>
    obtain rfl := Option.some.inj (hunfilled.ownerships.symm.trans ht)
    exact absurd hr Index.not_mem_empty
  case counted =>
    cases k with
    | team => simpa only [tally, hunfilled.teams] using hempty
    | ownership => simpa only [tally, hunfilled.ownerships] using hempty
    | role =>
      have hbelow : ∀ r ∈ builtinRoles.rows.rows, r.id ≤ builtinRoles.last := by decide
      simp only [tally, hroles]
      rintro id ⟨_, ht, hkey⟩
      obtain rfl := Option.some.inj ht
      obtain ⟨r, hr, rfl⟩ := Index.hasKey_iff.1 hkey
      exact hbelow r hr

end Tallied

end Store

namespace Service

variable {v : Service} {k : Store.Counter}

/-- Ids are well kept as a service starts. -/
theorem tallied_initial (mode : CacheMode) (now : Timestamp) :
    (initial mode now).store.Tallied := by
  rw [initial, store_start]
  exact Store.Tallied.fresh now

/-- **In every run ids are well kept.** -/
theorem tallied_acts (h : v.store.Tallied) (as : List Act) : (v.acts as).store.Tallied :=
  acts_induction (fun _ _ _ h hturn => h.turn hturn) h as

/-- **Ids after a run.** -/
theorem follows_acts (h : v.store.Tallied) (as : List Act) :
    (v.store.tally k).Follows ((v.acts as).store.tally k) := by
  have hboth := acts_induction (P := fun s => s.Tallied ∧ (v.store.tally k).Follows (s.tally k))
    (fun _ _ _ h hturn => ⟨h.1.turn hturn, h.2.trans (hturn.advances h.1.registered k).toFollows⟩)
    ⟨h, .refl _⟩ as
  exact hboth.2

/-- The ids that answers hand out, in order. -/
def idsIn (k : Store.Counter) (replies : List (Except Fault Store.Reply)) : List Int64 :=
  replies.filterMap (Store.issued k)

/-- **The ids that a run hands out rise**, from above those handed out before. -/
theorem ascending_replies (h : v.store.Tallied) (as : List Act) :
    (∀ id ∈ idsIn k (v.replies as), (v.store.tally k).last < id) ∧
      (idsIn k (v.replies as)).Pairwise (· < ·) := by
  induction as generalizing v with
  | nil => exact ⟨fun id hid => absurd hid List.not_mem_nil, .nil⟩
  | cons a as ih =>
    have hturn := v.turn_act a
    have hadvances := hturn.advances h.registered k
    obtain ⟨habove, hrise⟩ := ih (h.turn hturn)
    rw [replies, idsIn, List.filterMap_cons, ← idsIn]
    cases hissued : Store.issued k (v.act a).1 with
    | none =>
      exact ⟨fun id hid => Int64.lt_of_le_of_lt hadvances.last_le (habove id hid), hrise⟩
    | some n =>
      obtain ⟨hlt, hle⟩ := hadvances.issues n hissued
      have hfirst : ∀ id ∈ idsIn k ((v.act a).2.replies as), n < id :=
        fun id hid => Int64.lt_of_le_of_lt hle (habove id hid)
      refine ⟨fun id hid => ?_, .cons hfirst hrise⟩
      rcases List.mem_cons.1 hid with rfl | hid
      · exact hlt
      · exact Int64.lt_trans hlt (hfirst id hid)

/-! ## Ids that go -/

/-- The act removes the ownership of an id, by the store or by its writer. -/
inductive Act.Removes (id : OwnershipId) : Act → Prop
  | store : Removes id (.call (.deleteOwnership id))
  | writer : Removes id (.write (.removeOwnership id))

/-- The act replaces the ownership of an id, by the store or by its writer. -/
inductive Act.Replaces (id : OwnershipId) : Act → Prop
  | store (o : NewOwnership) : Replaces id (.call (.replaceOwnership id o))
  | writer (o : NewOwnership) : Replaces id (.write (.replaceOwnership id o))

/-- The act succeeds and the ownership of the id is gone by it. -/
def Drops (v : Service) (a : Act) (id : OwnershipId) : Prop :=
  a.Removes id ∧ (v.act a).1 = .ok (.removed true) ∨
    a.Replaces id ∧ ∃ created, (v.act a).1 = .ok (.ownership created)

/-- To remove an ownership from the store tells whether it is there. -/
theorem deleteOwnership_eq (h : v.store.Registered) {t : Numbered OwnershipRow.id}
    (ht : v.store.ownerships = some t) (id : OwnershipId) : v.store.deleteOwnership id =
      .ok (t.rows.hasKey id,
        { v.store with ownerships := some (t.withRows (t.rows.erase id)) }) :=
  Store.deleteOwnership_eq_ok_iff.2 ⟨t, ht, Option.isSome_iff_exists.1 h.complete.teams,
    Option.isSome_iff_exists.1 h.complete.roles, rfl, rfl⟩

/-- **A removal**, by the store or by its writer, tells whether the ownership is there and removes
its row alone. -/
theorem act_of_removes (h : v.store.Tallied) {a : Act} {id : OwnershipId} (ha : a.Removes id) :
    ∃ t t', v.store.ownerships = some t ∧ (v.act a).1 = .ok (.removed (t.rows.hasKey id)) ∧
      (v.act a).2.store = { v.store with ownerships := some t' } ∧ t'.last = t.last ∧
      ∀ r, r ∈ t'.rows ↔ r ∈ t.rows ∧ r.id ≠ id := by
  obtain ⟨t, ht⟩ := Option.isSome_iff_exists.1 h.registered.complete.ownerships
  have hdelete := deleteOwnership_eq h.registered ht id
  have hrows : ∀ r, r ∈ (t.withRows (t.rows.erase id)).rows ↔ r ∈ t.rows ∧ r.id ≠ id :=
    fun r => Index.mem_erase
  cases ha with
  | store =>
    have hcall : v.store.call (.deleteOwnership id) = (.ok (.removed (t.rows.hasKey id)),
        { v.store with ownerships := some (t.withRows (t.rows.erase id)) }) := by
      rw [Store.call, Store.execute, Statements.run_one, hdelete]
      rfl
    refine ⟨t, t.withRows (t.rows.erase id), ht, ?_, ?_, rfl, hrows⟩ <;> rw [act, hcall]
  | writer =>
    obtain ⟨found, hfound, hkey⟩ := h.written.ownership?_eq ht id
    cases found with
    | none =>
      -- There is nothing to remove, and the writer does not ask the store to.
      have hmissing : ∀ r ∈ t.rows, r.id ≠ id := Index.hasKey_eq_false_iff.1 hkey.symm
      refine ⟨t, t, ht, ?_, ?_, rfl, fun r => ⟨fun hr => ⟨hr, hmissing r hr⟩, And.left⟩⟩
      · rw [act, replyOf, removeOwnership, hfound, ← hkey]
        rfl
      · rw [act, replyOf, removeOwnership, hfound, ← ht]
        rfl
    | some o =>
      have hremoved : v.removeOwnership id = (.ok true,
          ⟨{ v.store with ownerships := some (t.withRows (t.rows.erase id)) },
            v.registry.invalidate o.team⟩) := by
        rw [removeOwnership, hfound, hdelete, ← hkey]
        rfl
      refine ⟨t, t.withRows (t.rows.erase id), ht, ?_, ?_, rfl, hrows⟩
      · rw [act, replyOf, hremoved, ← hkey]
        rfl
      · rw [act, replyOf, hremoved]
        rfl

/-- A replacement that is reported was made in the store. -/
theorem act_of_replaces {a : Act} {id : OwnershipId} {created : Ownership} (ha : a.Replaces id)
    (hok : (v.act a).1 = .ok (.ownership created)) :
    ∃ o, v.store.replaceOwnership id o = .ok (created, (v.act a).2.store) := by
  cases ha with
  | store o =>
    obtain ⟨_, s', hreplace, hreply, hafter⟩ := Store.of_execute_eq_ok hok
    obtain rfl := Store.Reply.ownership.inj hreply
    have hstore : (v.act (.call (.replaceOwnership id o))).2.store = s' :=
      congrArg Prod.snd hafter
    exact ⟨o, hstore ▸ hreplace⟩
  | writer o =>
    obtain ⟨_, hreplace, hreply⟩ := map_eq_ok_iff.1 hok
    obtain rfl := Store.Reply.ownership.inj hreply
    exact ⟨o, replaceOwnership_of_ok hreplace⟩

/-- **The id of an ownership that goes is spent.** -/
theorem spent_of_drops (h : v.store.Tallied) {a : Act} {id : OwnershipId} (hdrops : v.Drops a id) :
    ((v.act a).2.store.tally .ownership).Spent id := by
  rcases hdrops with ⟨ha, hreply⟩ | ⟨ha, created, hreply⟩
  · obtain ⟨t, t', ht, hreply', hstore, hlast, hrows⟩ := act_of_removes h ha
    have hkey : t.rows.hasKey id = true :=
      Store.Reply.removed.inj (Except.ok.inj (hreply'.symm.trans hreply))
    have hle : id ≤ (v.store.tally .ownership).last := h.counted .ownership id ⟨t, ht, hkey⟩
    rw [hstore]
    simp only [Store.tally, ht] at hle ⊢
    exact Numbered.spent_of_forall_ne (fun r hr => ((hrows r).1 hr).2)
      (Int64.le_trans hle (Int64.le_of_eq hlast.symm))
  · obtain ⟨o, hreplace⟩ := act_of_replaces ha hreply
    obtain ⟨s₁, hadd, hdelete⟩ := Store.replaceOwnership_eq_ok_iff.1 hreplace
    have hcounted : (s₁.tally .ownership).Counted :=
      (h.counted .ownership).of_follows (Store.advances_createOwnership hadd .ownership).toFollows
    exact Store.spent_of_deleteOwnership hcounted hdelete

/-- **What can be relied on of ids.** -/
structure KeepsIds (v : Service) : Prop where
  /-- The ids that are handed out rise, whatever is done. -/
  ascending : ∀ k as, (idsIn k (v.replies as)).Pairwise (· < ·)
  /-- The id of an ownership that was removed or replaced names none ever after. -/
  gone : ∀ a id, v.Drops a id → ∀ as, ¬ (((v.act a).2.acts as).store.tally .ownership).names id
  /-- To remove an ownership tells whether it is stored, and removes its row alone. -/
  removal : ∀ a id, a.Removes id → ∃ t t', v.store.ownerships = some t ∧
    (v.act a).1 = .ok (.removed (t.rows.hasKey id)) ∧
    (v.act a).2.store = { v.store with ownerships := some t' } ∧ t'.last = t.last ∧
    ∀ r, r ∈ t'.rows ↔ r ∈ t.rows ∧ r.id ≠ id
  /-- What fails changes neither teams nor roles nor ownerships, and no id is used up. -/
  refused : ∀ a fault, (v.act a).1 = .error fault → (v.act a).2.store.teams = v.store.teams ∧
    (v.act a).2.store.roles = v.store.roles ∧
    (v.act a).2.store.privileges = v.store.privileges ∧
    (v.act a).2.store.ownerships = v.store.ownerships

/-- **Ids are never used again**, in any run of calls of the store and of its writers, from a new
store on. -/
theorem ids_are_never_used_again (mode : CacheMode) (now : Timestamp) (as : List Act) :
    ((initial mode now).acts as).KeepsIds := by
  have h := tallied_acts (tallied_initial mode now) as
  generalize (initial mode now).acts as = v at h
  refine ⟨fun k as => (ascending_replies h as).2, ?gone, fun a id ha => act_of_removes h ha,
    ?refused⟩
  case gone =>
    intro a id hdrops as
    have htallied := h.turn (v.turn_act a)
    exact ((spent_of_drops h hdrops).of_follows (follows_acts htallied as)).1
  case refused =>
    intro a fault hfault
    have hsame := (v.turn_act a).sameTeams_of_error h.registered hfault
    exact ⟨hsame.teams, hsame.roles, hsame.privileges, hsame.ownerships⟩

end Service

end TeamAccess
