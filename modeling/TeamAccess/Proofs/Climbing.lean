import TeamAccess.Proofs.Integrity

/-!
# Climbing — what a rebuilt closure is, on any store

Parent links may run in cycles, from an organization to itself and into other ODSs; nothing is
assumed of them here. `Climbs` follows them through whatever rows there are. The search behind the
closure finds at each place just what that many links lead to (`getElem?_ancestors_iff`), and as the
first of several places counts, a closure row says the least number of links
(`mem_closureRows_iff`). A rebuild has these rows for the organizations of its ODS and leaves those
of all others (`mem_rebuiltClosure_iff`).
-/

namespace TeamAccess

variable {t : Index EdOrgRow.id} {c : Index ClosureRow.ends}

/-! ## Climbing parent links -/

/-- **So many parent links lead up from the first organization to the second.** Each link is the
one in a stored row, wherever the row lies. -/
inductive Climbs (t : Index EdOrgRow.id) : Nat → ResourceId → ResourceId → Prop
  | here (id : ResourceId) : Climbs t 0 id id
  | up {k : Nat} {r : EdOrgRow} {d p a : ResourceId} : r ∈ t → r.id = d →
      r.parent = some (.int p) → Climbs t k p a → Climbs t (k + 1) d a

/-- **The least number of parent links** that lead up from the first organization to the second. -/
structure Nearest (t : Index EdOrgRow.id) (k : Nat) (d a : ResourceId) : Prop where
  climbs : Climbs t k d a
  least : ∀ j, Climbs t j d a → k ≤ j

/-- The organization is one of the ODS's. -/
def MemberOf (t : Index EdOrgRow.id) (ods d : ResourceId) : Prop :=
  ∃ r, r ∈ t ∧ r.ods.equals ods = true ∧ r.id = d

namespace Climbs

variable {k : Nat} {d a : ResourceId}

/-- Without a link one gets nowhere else. -/
theorem zero_iff : Climbs t 0 d a ↔ d = a := by
  constructor
  · intro h
    cases h
    rfl
  · rintro rfl
    exact .here _

/-- Whoever climbs so many links climbs fewer of them. -/
theorem exists_of_le (h : Climbs t k d a) {j : Nat} (hj : j ≤ k) : ∃ b, Climbs t j d b := by
  induction h generalizing j with
  | here id => exact ⟨id, Nat.le_zero.1 hj ▸ .here id⟩
  | up hr hid hp _ ih =>
    cases j with
    | zero => exact ⟨_, .here _⟩
    | succ j =>
      obtain ⟨b, hb⟩ := ih (Nat.le_of_succ_le_succ hj)
      exact ⟨b, .up hr hid hp hb⟩

end Climbs

/-! ## The bounded search -/

/-- The search goes on from an organization with a parent. -/
theorem ancestors_of_parent {r : EdOrgRow} (hr : r ∈ t) {p : IntCell} (hp : r.parent = some p)
    (n : Nat) : ancestors t (n + 1) (.int r.id) = .int r.id :: ancestors t n p := by
  have hfind : t.find? r.id = some r := Index.find?_eq_some_iff.2 ⟨hr, rfl⟩
  simp only [ancestors, IntCell.int?, Option.bind_some, hfind, hp]

/-- The search ends where there is no parent. -/
theorem ancestors_of_no_parent {cell : IntCell}
    (h : ∀ r, r ∈ t → cell = .int r.id → r.parent = none) (n : Nat) :
    ancestors t n cell = [cell] := by
  cases n with
  | zero => rfl
  | succ n =>
    have hnone : (cell.int?.bind t.find?).bind EdOrgRow.parent = none := by
      refine Option.bind_eq_none_iff.2 fun r hr => ?_
      obtain ⟨d, hd, hfind⟩ := Option.bind_eq_some_iff.1 hr
      obtain ⟨hmem, hid⟩ := Index.find?_eq_some_iff.1 hfind
      exact h r hmem (by rw [hid]; exact IntCell.int?_eq_some_iff.1 hd)
    simp only [ancestors, hnone]

/-- **The search finds at each place what that many links lead to.** -/
theorem getElem?_ancestors_iff {n k : Nat} {d a : ResourceId} :
    (ancestors t n (.int d))[k]? = some (.int a) ↔ k ≤ n ∧ Climbs t k d a := by
  -- Link by link; a link to what is no id is found by the search, and no link leads on from it.
  induction n generalizing k d with
  | zero =>
    cases k with
    | zero =>
      simp only [ancestors, List.getElem?_cons_zero, Option.some.injEq, IntCell.int.injEq,
        Nat.le_refl, true_and, Climbs.zero_iff]
    | succ k => simp [ancestors]
  | succ n ih =>
    cases k with
    | zero =>
      have hhead : (ancestors t (n + 1) (.int d))[0]? = some (.int d) := by
        rw [ancestors]
        split
        · rfl
        · rfl
      simp only [hhead, Option.some.injEq, IntCell.int.injEq, Nat.zero_le, true_and,
        Climbs.zero_iff]
    | succ k =>
      by_cases hparent : ∃ r, r ∈ t ∧ r.id = d ∧ ∃ p, r.parent = some p
      · obtain ⟨r, hr, rfl, p, hp⟩ := hparent
        rw [ancestors_of_parent hr hp, List.getElem?_cons_succ, Nat.succ_le_succ_iff]
        cases p with
        | int p =>
          rw [ih]
          refine and_congr_right fun _ => ⟨.up hr rfl hp, fun h => ?_⟩
          cases h with
          | up hr' hid hp' h =>
            obtain rfl := Index.eq_of_key_eq hr hr' hid.symm
            obtain rfl := IntCell.int.inj (Option.some.inj (hp.symm.trans hp'))
            exact h
        | real _ | text _ | raw _ =>
          rw [ancestors_of_no_parent (by simp)]
          constructor
          · intro h
            cases k <;> simp at h
          · rintro ⟨-, h⟩
            cases h with
            | up hr' hid hp' _ =>
              obtain rfl := Index.eq_of_key_eq hr hr' hid.symm
              rw [hp] at hp'
              cases hp'
      · have hnone : ∀ r, r ∈ t → IntCell.int d = .int r.id → r.parent = none := by
          intro r hr hid
          refine Option.eq_none_iff_forall_ne_some.2 fun p hp => hparent ?_
          exact ⟨r, hr, (IntCell.int.inj hid).symm, p, hp⟩
        rw [ancestors_of_no_parent hnone]
        simp only [List.getElem?_cons_succ, List.getElem?_nil, reduceCtorEq, false_iff, not_and]
        intro _ h
        cases h with
        | up hr hid hp _ => exact hparent ⟨_, hr, hid, _, hp⟩

/-! ## Closure rows -/

/-- A closure row is made of the first place of an ancestor. -/
theorem mem_closureRows_iff_first {d : ResourceId} {r : ClosureRow} :
    r ∈ closureRows t d ↔ ∃ k, ∃ cell, (ancestors t depthLimit (.int d))[k]? = some cell ∧
      r = ⟨cell, .int d, .int (Int64.ofNat k)⟩ ∧ ∀ j cell', j < k →
        (ancestors t depthLimit (.int d))[j]? = some cell' → cell'.number ≠ cell.number := by
  simp only [closureRows, Index.mem_ofList_iff, List.getElem?_map, List.getElem?_zipIdx,
    Option.map_map, Option.map_eq_some_iff, Nat.zero_add]
  constructor
  · rintro ⟨k, ⟨cell, hcell, rfl⟩, hfirst⟩
    refine ⟨k, cell, hcell, rfl, fun j cell' hj hcell' hnumber => ?_⟩
    exact hfirst j _ hj ⟨cell', hcell', rfl⟩ (Prod.ext hnumber rfl)
  · rintro ⟨k, cell, hcell, rfl, hfirst⟩
    refine ⟨k, ⟨cell, hcell, rfl⟩, ?_⟩
    rintro j _ hj ⟨cell', hcell', rfl⟩ hends
    exact hfirst j cell' hj hcell' (congrArg Prod.fst hends)

/-- **A closure row says the least number of links** to an ancestor, if that many are followed. -/
theorem mem_closureRows_iff {a d : ResourceId} {r : ClosureRow} (hr : r.ancestor = .int a) :
    r ∈ closureRows t d ↔ ∃ k ≤ depthLimit, Nearest t k d a ∧
      r = ⟨.int a, .int d, .int (Int64.ofNat k)⟩ := by
  rw [mem_closureRows_iff_first]
  constructor
  · rintro ⟨k, cell, hcell, rfl, hfirst⟩
    obtain rfl : cell = .int a := hr
    obtain ⟨hk, hclimbs⟩ := getElem?_ancestors_iff.1 hcell
    refine ⟨k, hk, ⟨hclimbs, fun j hj => ?_⟩, rfl⟩
    by_contra hlt
    have hjk : j < k := Nat.lt_of_not_le hlt
    have hbefore : (ancestors t depthLimit (.int d))[j]? = some (.int a) :=
      getElem?_ancestors_iff.2 ⟨by omega, hj⟩
    exact hfirst j _ hjk hbefore rfl
  · rintro ⟨k, hk, hnearest, rfl⟩
    refine ⟨k, .int a, getElem?_ancestors_iff.2 ⟨hk, hnearest.climbs⟩, rfl, ?_⟩
    intro j cell hj hcell hnumber
    -- The search went on from that place, so an id is there, and it is the same one.
    obtain ⟨b, hb⟩ := hnearest.climbs.exists_of_le (Nat.le_of_lt hj)
    have hplace : (ancestors t depthLimit (.int d))[j]? = some (.int b) :=
      getElem?_ancestors_iff.2 ⟨by omega, hb⟩
    obtain rfl := Option.some.inj (hcell.symm.trans hplace)
    obtain rfl : b = a := IntCell.int.inj hnumber
    exact absurd (hnearest.least j hb) (Nat.not_le.2 hj)

/-- Closure rows under one key are of one organization. -/
theorem descendant_eq_of_ends_eq {a r : ClosureRow} {m n : ResourceId}
    (ha : a.descendant = .int m) (hr : r.descendant = .int n) (hends : a.ends = r.ends) :
    m = n := by
  have hnumber : a.descendant.number = r.descendant.number := congrArg Prod.snd hends
  rw [ha, hr] at hnumber
  exact IntCell.int.inj hnumber

namespace Store

variable {s s' : Store} {ods : ResourceId}

/-! ## Rebuilding -/

/-- The organizations of an ODS, by their ids. -/
theorem mem_membersOf_iff {d : ResourceId} : d ∈ membersOf t ods ↔ MemberOf t ods d := by
  simp only [membersOf, List.mem_map, List.mem_filter, ← Index.mem_def, MemberOf, and_assoc]

/-- **A rebuilt closure** has the rows that it had of organizations elsewhere, and those of the
organizations of the ODS computed anew. -/
theorem mem_rebuiltClosure_iff {r : ClosureRow} : r ∈ rebuiltClosure t c ods ↔
    r ∈ c ∧ (∀ d, MemberOf t ods d → r.descendant.equals d = false) ∨
      ∃ d, MemberOf t ods d ∧ r ∈ closureRows t d := by
  have hkept : ∀ a, a ∈ c.filter (fun r => !r.descendant.isOneOf (membersOf t ods)) ↔
      a ∈ c ∧ ∀ d, MemberOf t ods d → a.descendant.equals d = false := by
    intro a
    simp only [Index.mem_filter, IntCell.isOneOf, Bool.not_eq_true', List.any_eq_false,
      mem_membersOf_iff, Bool.not_eq_true]
  -- A row that was kept is of no organization of the ODS, so no new row has its key.
  have hapart : ∀ a b : ClosureRow, ∀ d ∈ membersOf t ods,
      a ∈ c.filter (fun r => !r.descendant.isOneOf (membersOf t ods)) →
      b ∈ closureRows t d → a.ends ≠ b.ends := by
    intro a b d hd ha hb hends
    have helse := ((hkept a).1 ha).2 d (mem_membersOf_iff.1 hd)
    have hnumber : a.descendant.number = b.descendant.number := congrArg Prod.snd hends
    rw [IntCell.equals, hnumber, (ends_of_mem_closureRows hb).2] at helse
    exact absurd (IntCell.equals_int.2 rfl) (Bool.eq_false_iff.1 helse)
  rw [← hkept]
  simp only [← mem_membersOf_iff]
  have hnew : ∀ a, (∃ rows ∈ (membersOf t ods).map (closureRows t), a ∈ rows) ↔
      ∃ d ∈ membersOf t ods, a ∈ closureRows t d := by
    simp only [List.mem_map, exists_exists_and_eq_and, implies_true]
  rw [← hnew, rebuiltClosure]
  refine ⟨Index.mem_of_mem_foldl_union, fun hr => Index.mem_foldl_union hr fun a ha hends => ?_⟩
  rw [hnew] at ha hr
  rcases ha with ha | ⟨m, hm, ha⟩ <;> rcases hr with hr | ⟨n, hn, hr⟩
  · exact Index.eq_of_key_eq ha hr hends
  · exact absurd hends (hapart a r n hn ha hr)
  · exact absurd hends.symm (hapart r a m hm hr ha)
  · obtain rfl := descendant_eq_of_ends_eq (ends_of_mem_closureRows ha).2
      (ends_of_mem_closureRows hr).2 hends
    exact Index.eq_of_key_eq ha hr hends

/-- **The second closure is the first, rebuilt.** -/
structure Rebuilt (t : Index EdOrgRow.id) (c c' : Index ClosureRow.ends) (ods : ResourceId) :
    Prop where
  /-- Below an organization of the ODS there is one row for each organization that at most
  `depthLimit` links lead up to, with the least number of them, and no other row. -/
  made : ∀ d, MemberOf t ods d → ∀ r : ClosureRow, r.descendant.equals d = true →
    (r ∈ c' ↔ ∃ a, ∃ k ≤ depthLimit, Nearest t k d a ∧
      r = ⟨.int a, .int d, .int (Int64.ofNat k)⟩)
  /-- All other rows are as they were. -/
  kept : ∀ r : ClosureRow, (∀ d, MemberOf t ods d → r.descendant.equals d = false) →
    (r ∈ c' ↔ r ∈ c)

/-- If every parent is stored, so is every ancestor. -/
theorem refersTo_of_mem_ancestors
    (hparents : ∀ r ∈ t.rows, r.parent.all (fun p => refersTo p t) = true) {n : Nat}
    {cell cell' : IntCell} (hcell : refersTo cell t = true) (h : cell' ∈ ancestors t n cell) :
    refersTo cell' t = true := by
  induction n generalizing cell with
  | zero => rwa [List.mem_singleton.1 h]
  | succ n ih =>
    rw [ancestors] at h
    split at h
    · rwa [List.mem_singleton.1 h]
    · rename_i p hp
      rcases List.mem_cons.1 h with rfl | h
      · exact hcell
      · obtain ⟨r, hr, hp⟩ := Option.bind_eq_some_iff.1 hp
        obtain ⟨d, -, hfind⟩ := Option.bind_eq_some_iff.1 hr
        have hstored := hparents r (Index.find?_eq_some_iff.1 hfind).1
        rw [hp] at hstored
        exact ih hstored h

/-- A rebuild succeeds if every parent is stored, wherever the parents lead. -/
theorem succeeds_rebuildClosure (ht : s.edOrgs = some t) (hc : s.closure = some c)
    (hparents : ∀ r ∈ t.rows, r.parent.all (fun p => refersTo p t) = true) (ods : ResourceId) :
    Succeeds (s.rebuildClosure ods) := by
  refine ⟨_, rebuildClosure_eq_ok_iff.2 ⟨t, ht, c, hc, fun d hd r hr => ?_, rfl⟩⟩
  obtain ⟨x, hx, -, rfl⟩ := mem_membersOf_iff.1 hd
  have hself : refersTo (.int x.id) t = true := Index.hasKey_iff.2 ⟨x, hx, rfl⟩
  exact refersTo_of_mem_ancestors hparents hself (ends_of_mem_closureRows hr).1

/-- What is referred to is referred to by its id. -/
theorem exists_int_of_refersTo {cell : IntCell} (h : refersTo cell t = true) :
    ∃ a, cell = .int a := by
  cases cell with
  | int a => exact ⟨a, rfl⟩
  | real _ | text _ | raw _ => cases h

/-- A rebuild that succeeds has rebuilt the closure. -/
theorem rebuilt_of_ancestors (hstored : ∀ d ∈ membersOf t ods, ∀ r ∈ (closureRows t d).rows,
    refersTo r.ancestor t = true) : Rebuilt t c (rebuiltClosure t c ods) ods where
  made d hd r hr := by
    rw [mem_rebuiltClosure_iff]
    constructor
    · rintro (⟨-, helse⟩ | ⟨d', hd', hrow⟩)
      · rw [helse d hd] at hr
        cases hr
      · obtain ⟨a, ha⟩ := exists_int_of_refersTo (hstored d' (mem_membersOf_iff.2 hd') r hrow)
        rw [(ends_of_mem_closureRows hrow).2, IntCell.equals_int] at hr
        obtain ⟨k, hk, hnearest, rfl⟩ := (mem_closureRows_iff ha).1 (hr ▸ hrow)
        exact ⟨a, k, hk, hnearest, rfl⟩
    · rintro ⟨a, k, hk, hnearest, rfl⟩
      exact .inr ⟨d, hd, (mem_closureRows_iff rfl).2 ⟨k, hk, hnearest, rfl⟩⟩
  kept r hr := by
    rw [mem_rebuiltClosure_iff]
    constructor
    · rintro (⟨hmem, -⟩ | ⟨d, hd, hrow⟩)
      · exact hmem
      · have helse := hr d hd
        rw [(ends_of_mem_closureRows hrow).2] at helse
        exact absurd (IntCell.equals_int.2 rfl) (Bool.eq_false_iff.1 helse)
    · intro hmem
      exact .inl ⟨hmem, hr⟩

/-- **What a rebuild of the closure does**, on any store: wherever parent links lead, if each parent
is stored it succeeds; if it succeeds, the closure is rebuilt and nothing else is changed; if it
fails, nothing is. -/
theorem rebuildClosure_exact (s : Store) (ods : ResourceId) :
    (∀ t c, s.edOrgs = some t → s.closure = some c →
      (∀ r ∈ t.rows, r.parent.all (fun p => refersTo p t) = true) →
      Succeeds (s.rebuildClosure ods)) ∧
    (∀ s', s.rebuildClosure ods = .ok s' → ∃ t, s.edOrgs = some t ∧ ∃ c, s.closure = some c ∧
      ∃ c', s' = { s with closure := some c' } ∧ Rebuilt t c c' ods) ∧
    ∀ fault, s.rebuildClosure ods = .error fault →
      (rebuildingClosure ods).run s = (.error fault, s) := by
  refine ⟨fun t c ht hc hparents => succeeds_rebuildClosure ht hc hparents ods, ?_, ?_⟩
  · intro s' hok
    obtain ⟨t, ht, c, hc, hstored, rfl⟩ := rebuildClosure_eq_ok_iff.1 hok
    exact ⟨t, ht, c, hc, _, rfl, rebuilt_of_ancestors hstored⟩
  · intro fault hfault
    exact run_rebuildingClosure_of_error hfault

/-- An organization that has one of another ODS as its parent and is that one's parent, and one that
is its own parent. -/
def loops : Index EdOrgRow.id :=
  Index.ofList [⟨5, .int 3, .int 100, "There", some (.int 6)⟩,
    ⟨6, .int 4, .int 100, "Back", some (.int 5)⟩, ⟨7, .int 3, .int 101, "Self", some (.int 7)⟩]

/-- A store with looping parent links, whose closure counts too many links between two of the
organizations and says nothing of the third. -/
def looped : Store :=
  { (blank .epoch).withTables with
    edOrgs := some loops
    closure := some (Index.ofList [⟨.int 6, .int 5, .int 3⟩, ⟨.int 6, .int 6, .int 9⟩]) }

/-- The loops are climbed once: the links between the two are counted anew, each organization lies
below itself at no distance, and what the closure said of the other ODS stays. -/
theorem looped_rebuilds : ∃ s' c', looped.rebuildClosure 3 = .ok s' ∧ s'.closure = some c' ∧
    ⟨.int 6, .int 5, .int 1⟩ ∈ c' ∧ ¬ ⟨.int 6, .int 5, .int 3⟩ ∈ c' ∧
    ⟨.int 7, .int 7, .int 0⟩ ∈ c' ∧ ⟨.int 6, .int 6, .int 9⟩ ∈ c' := by
  obtain ⟨hsucceeds, hwritten, -⟩ := rebuildClosure_exact looped 3
  obtain ⟨s', hs'⟩ := hsucceeds loops _ rfl rfl (by decide)
  obtain ⟨t, ht, c, hc, c', rfl, hrebuilt⟩ := hwritten s' hs'
  obtain rfl : loops = t := Option.some.inj ht
  have hthere : ⟨5, .int 3, .int 100, "There", some (.int 6)⟩ ∈ loops := by decide
  have hself : ⟨7, .int 3, .int 101, "Self", some (.int 7)⟩ ∈ loops := by decide
  have hmade := hrebuilt.made 5 ⟨_, hthere, rfl, rfl⟩
  have hnext : Nearest loops 1 5 6 := by
    refine ⟨.up hthere rfl rfl (.here 6), fun j hj => ?_⟩
    cases j with
    | zero => exact absurd (Climbs.zero_iff.1 hj) (by decide)
    | succ j => omega
  refine ⟨_, c', hs', rfl, ?counted, ?stale, ?itself, ?elsewhere⟩
  case counted => exact (hmade _ rfl).2 ⟨6, 1, by decide, hnext, rfl⟩
  case stale =>
    intro hstale
    obtain ⟨a, k, -, hnearest, hrow⟩ := (hmade _ rfl).1 hstale
    simp only [ClosureRow.mk.injEq, IntCell.int.injEq] at hrow
    obtain ⟨rfl, -, hdepth⟩ := hrow
    have hk : k ≤ 1 := hnearest.least 1 hnext.climbs
    obtain rfl | rfl : k = 0 ∨ k = 1 := by omega
    · exact absurd hdepth (by decide)
    · exact absurd hdepth (by decide)
  case itself =>
    have hhere : Nearest loops 0 7 7 := ⟨.here 7, fun j _ => Nat.zero_le j⟩
    exact (hrebuilt.made 7 ⟨_, hself, rfl, rfl⟩ _ rfl).2 ⟨7, 0, by decide, hhere, rfl⟩
  case elsewhere =>
    have helse : ∀ r ∈ loops.rows, r.ods.equals 3 = true →
        (IntCell.int 6).equals r.id = false := by decide
    obtain rfl := Option.some.inj hc
    refine (hrebuilt.kept _ ?_).2 (by decide)
    rintro _ ⟨r, hr, hods, rfl⟩
    exact helse r hr hods

end Store

end TeamAccess
