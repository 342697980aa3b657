import TeamAccess.Proofs.Writes

/-!
# Replacement — one ownership in the place of another

Replacing an ownership adds the new one before it removes the old one, and takes from the removal
whether there was an old one. So the id that the new one gets counts as present: asked to replace
the very id that is handed out next, it removes what it has just added and reports success, though
no ownership had the id and none has it afterwards. For every other id, as long as ids have not run
out, the promise `Replaces` is kept (`replaces_iff_ne_next`).
-/

namespace TeamAccess.Store

/-- An ownership can be added: the tables that it touches are there, and so are its team and its
role. -/
structure Admits (s : Store) (t : Numbered OwnershipRow.id) (o : NewOwnership) : Prop where
  ownerships : s.ownerships = some t
  team : ∃ teams, s.teams = some teams ∧ teams.rows.hasKey o.team = true
  role : ∃ roles, s.roles = some roles ∧ roles.rows.hasKey o.role = true

/-- **What replacing an ownership promises.** -/
structure Replaces (s : Store) (t : Numbered OwnershipRow.id) (id : OwnershipId)
    (o : NewOwnership) : Prop where
  /-- It succeeds exactly if there is an ownership with the id. -/
  succeeds_iff : Succeeds (s.replaceOwnership id o) ↔ ∃ r, r ∈ t.rows ∧ r.id = id
  /-- The new ownership, under an id that no ownership had, is there instead of the old one, and
  nothing else is changed. -/
  written : ∀ created s', s.replaceOwnership id o = .ok (created, s') →
    created = o.stored created.id s.now ∧ (∀ r, r ∈ t.rows → r.id ≠ created.id) ∧
      ∃ t', s' = { s with ownerships := some t' } ∧
        ∀ r, r ∈ t'.rows ↔ r = o.row created.id s.now ∨ r ∈ t.rows ∧ r.id ≠ id
  /-- Without an ownership of the id it says so and leaves everything, the ids handed out too. -/
  refused : (∀ r, r ∈ t.rows → r.id ≠ id) →
    (replacingOwnership id o).run s = (.error .notFound, s)

variable {s : Store} {t : Numbered OwnershipRow.id} {id n : OwnershipId} {o : NewOwnership}

/-- The id of a new row is a key of the table, and so is every key from before. -/
theorem hasKey_push_iff {r : OwnershipRow} :
    (t.push r).rows.hasKey id = true ↔ r.id = id ∨ ∃ r', r' ∈ t.rows ∧ r'.id = id := by
  rw [Numbered.push, Index.hasKey_iff]
  constructor
  · rintro ⟨r', hr', hid⟩
    rcases Index.mem_insert.1 hr' with rfl | ⟨hr', -⟩
    · exact .inl hid
    · exact .inr ⟨r', hr', hid⟩
  · intro h
    by_cases hr : r.id = id
    · exact ⟨r, Index.mem_insert.2 (.inl rfl), hr⟩
    · obtain ⟨r', hr', hid⟩ := h.resolve_left hr
      exact ⟨r', Index.mem_insert.2 (.inr ⟨hr', fun he => hr (he.symm.trans hid)⟩), hid⟩

namespace Admits

/-- The addition succeeds, under the next id. -/
theorem createOwnership_eq (h : s.Admits t o) (hn : t.next? = some n) :
    s.createOwnership o =
      .ok (o.stored n s.now, { s with ownerships := some (t.push (o.row n s.now)) }) := by
  obtain ⟨teams, hteams, hteam⟩ := h.team
  obtain ⟨roles, hroles, hrole⟩ := h.role
  exact createOwnership_eq_ok_iff.2
    ⟨t, h.ownerships, teams, hteams, roles, hroles, n, hn, hteam, hrole, rfl, rfl⟩

/-- **What replacing does**: the id of the addition counts as present when the old one is
removed. -/
theorem replaceOwnership_eq (h : s.Admits t o) (hn : t.next? = some n) :
    s.replaceOwnership id o =
      if (t.push (o.row n s.now)).rows.hasKey id then
        .ok (o.stored n s.now,
          { s with ownerships := some ⟨(t.push (o.row n s.now)).rows.erase id, n⟩ })
      else .error .notFound := by
  obtain ⟨teams, hteams, -⟩ := h.team
  obtain ⟨roles, hroles, -⟩ := h.role
  rw [Store.replaceOwnership_eq, h.createOwnership_eq hn]
  simp only [deleteOwnership, hteams, hroles]
  rfl

/-- Once ids have run out nothing is replaced. -/
theorem replaceOwnership_of_exhausted (h : s.Admits t o) (hn : t.next? = none) :
    s.replaceOwnership id o = .error .storage := by
  obtain ⟨teams, hteams, -⟩ := h.team
  obtain ⟨roles, hroles, -⟩ := h.role
  have hrefused : s.insertOwnership o = .error .unavailable := by
    simp only [insertOwnership, h.ownerships, hteams, hroles, available, Option.elim_some, bind,
      Except.bind, hn, Option.elim_none]
  rw [Store.replaceOwnership_eq, createOwnership, hrefused]
  rfl

/-- **Any id but the next one is replaced as promised.** -/
theorem replaces_of_ne (h : s.Admits t o) (hn : t.next? = some n) (hne : n ≠ id) :
    s.Replaces t id o := by
  have hkey : (t.push (o.row n s.now)).rows.hasKey id = true ↔ ∃ r, r ∈ t.rows ∧ r.id = id :=
    hasKey_push_iff.trans (or_iff_right hne)
  have heq : s.replaceOwnership id o = _ := h.replaceOwnership_eq hn
  refine ⟨?succeeds_iff, ?written, ?refused⟩
  case succeeds_iff =>
    rw [heq, ← hkey]
    constructor
    · rintro ⟨_, hok⟩
      split at hok
      · assumption
      · cases hok
    · intro hpresent
      rw [if_pos hpresent]
      exact .ok _
  case written =>
    intro created s' hok
    rw [heq] at hok
    split at hok
    · cases hok
      refine ⟨rfl, fun r hr => Numbered.ne_of_next? hn hr, _, rfl, fun r => ?_⟩
      rw [Index.mem_erase, Numbered.push, Index.mem_insert]
      constructor
      · rintro ⟨rfl | ⟨hr, -⟩, hid⟩
        · exact .inl rfl
        · exact .inr ⟨hr, hid⟩
      · rintro (rfl | ⟨hr, hid⟩)
        · exact ⟨.inl rfl, hne⟩
        · exact ⟨.inr ⟨hr, Numbered.ne_of_next? hn hr⟩, hid⟩
    · cases hok
  case refused =>
    intro hmissing
    have hfault : s.replaceOwnership id o = .error .notFound := by
      rw [heq, if_neg]
      rintro hpresent
      obtain ⟨r, hr, hid⟩ := hkey.1 hpresent
      exact hmissing r hr hid
    exact (atomic_replacingOwnership id o).run_of_error hfault

/-- **The next id is replaced by nothing**: what was added is removed, and success is reported. -/
theorem replaceOwnership_next (h : s.Admits t o) (hn : t.next? = some n) :
    s.replaceOwnership n o =
      .ok (o.stored n s.now, { s with ownerships := some ⟨t.rows, n⟩ }) := by
  have hrows : (t.push (o.row n s.now)).rows.erase n = t.rows := by
    refine Index.ext_mem fun r => ?_
    rw [Index.mem_erase, Numbered.push, Index.mem_insert]
    constructor
    · rintro ⟨rfl | ⟨hr, -⟩, hid⟩
      · exact absurd rfl hid
      · exact hr
    · intro hr
      have hid := Numbered.ne_of_next? hn hr
      exact ⟨.inr ⟨hr, hid⟩, hid⟩
  have hpresent : (t.push (o.row n s.now)).rows.hasKey n = true := hasKey_push_iff.2 (.inl rfl)
  rw [h.replaceOwnership_eq hn, if_pos hpresent, hrows]

end Admits

/-- **Which ids are replaced as promised.** All but the one that is handed out next, unless ids
have run out. Of that one success is reported, with the ownership that was added and is gone again;
the rows are those from before, and the id is used up. Once ids have run out every replacement
fails. -/
theorem replaces_iff_ne_next (h : s.Admits t o) (id : OwnershipId) :
    (s.Replaces t id o ↔ ∃ n, t.next? = some n ∧ n ≠ id) ∧
      (t.next? = some id → s.replaceOwnership id o =
        .ok (o.stored id s.now, { s with ownerships := some ⟨t.rows, id⟩ })) ∧
      (t.next? = none → s.replaceOwnership id o = .error .storage) := by
  refine ⟨⟨fun hkept => ?_, ?_⟩, h.replaceOwnership_next, h.replaceOwnership_of_exhausted⟩
  · cases hn : t.next? with
    | none =>
      have hfault : s.replaceOwnership id o = .error .storage := h.replaceOwnership_of_exhausted hn
      -- There is no ownership of the id, for it was not replaced; but then another fault was due.
      have hmissing : ∀ r, r ∈ t.rows → r.id ≠ id := by
        intro r hr hid
        obtain ⟨_, hok⟩ := hkept.succeeds_iff.2 ⟨r, hr, hid⟩
        cases hfault.symm.trans hok
      have hnone := hkept.refused hmissing
      rw [(atomic_replacingOwnership id o).run_of_error hfault] at hnone
      cases hnone
    | some n =>
      refine ⟨n, rfl, ?_⟩
      rintro rfl
      obtain ⟨r, hr, hid⟩ := hkept.succeeds_iff.1 ⟨_, h.replaceOwnership_next hn⟩
      exact Numbered.ne_of_next? hn hr hid
  · rintro ⟨n, hn, hne⟩
    exact h.replaces_of_ne hn hne

/-- A store with one team, one role and some ownerships of theirs. -/
def wardens (ownerships : Numbered OwnershipRow.id) : Store :=
  { (blank .epoch).withTables with
    teams := some ⟨Index.single ⟨1, "Wardens"⟩, 1⟩
    roles := some ⟨Index.single ⟨3, "Read Only", none⟩, 3⟩
    ownerships := some ownerships }

/-- The ownership of everything that the team is to hold. -/
def everything : NewOwnership := ⟨1, 3, .global⟩

/-- An ownership is replaced under the tenth id; the tenth id is not. -/
theorem wardens_replaces :
    let t : Numbered OwnershipRow.id := ⟨Index.single (everything.row 7 .epoch), 9⟩
    (wardens t).Admits t everything ∧ (wardens t).Replaces t 7 everything ∧
      ¬ (wardens t).Replaces t 10 everything := by
  intro t
  have hadmits : (wardens t).Admits t everything :=
    ⟨rfl, ⟨_, rfl, by decide⟩, ⟨_, rfl, by decide⟩⟩
  have hnext : t.next? = some 10 := by decide
  refine ⟨hadmits, (replaces_iff_ne_next hadmits 7).1.2 ⟨10, hnext, by decide⟩, fun h => ?_⟩
  obtain ⟨n, hn, hne⟩ := (replaces_iff_ne_next hadmits 10).1.1 h
  exact hne (Option.some.inj (hn.symm.trans hnext))

/-- Without any ownership the first id is replaced all the same: success is reported. -/
theorem wardens_replaces_nothing :
    (wardens .empty).Admits .empty everything ∧
      ¬ (wardens .empty).Replaces .empty 1 everything := by
  refine ⟨⟨rfl, ⟨_, rfl, by decide⟩, ⟨_, rfl, by decide⟩⟩, fun h => ?_⟩
  obtain ⟨r, hr, -⟩ := h.succeeds_iff.1 ⟨_, rfl⟩
  exact Index.not_mem_empty hr

end TeamAccess.Store
