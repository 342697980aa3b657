import TeamAccess.Index

/-!
# Indexes by their rows

What the operations on indexes do, said by membership: `find?` and `hasKey` look for the row of a
key, `union` keeps the rows of its first index and adds those of the second whose keys the first
lacks (`Index.mem_union`), and two indexes with the same members are equal (`Index.ext_mem`). With
these nobody needs to know how rows are merged.
-/

namespace TeamAccess.Index

variable {ρ κ : Type} [Ord κ] {key : ρ → κ}

/-! ## Membership -/

@[simp] theorem not_mem_empty {r : ρ} : ¬ r ∈ (empty : Index key) := List.not_mem_nil

@[simp] theorem mem_single {r s : ρ} : r ∈ (single s : Index key) ↔ r = s := List.mem_singleton

@[simp] theorem mem_filter {p : ρ → Bool} {t : Index key} {r : ρ} :
    r ∈ t.filter p ↔ r ∈ t ∧ p r = true := List.mem_filter

theorem isEmpty_iff {t : Index key} : t.isEmpty = true ↔ ∀ r, ¬ r ∈ t := by
  simp [isEmpty, mem_def, List.eq_nil_iff_forall_not_mem]

/-! ## Keys -/

section LawfulEq

variable [Std.LawfulEqOrd κ]

theorem hasKey_iff {t : Index key} {k : κ} : t.hasKey k = true ↔ ∃ r, r ∈ t ∧ key r = k := by
  simp [hasKey, mem_def, List.any_eq_true]

theorem hasKey_eq_false_iff {t : Index key} {k : κ} :
    t.hasKey k = false ↔ ∀ r, r ∈ t → key r ≠ k := by
  rw [← Bool.not_eq_true, hasKey_iff]
  exact ⟨fun h r hr he => h ⟨r, hr, he⟩, fun h ⟨r, hr, he⟩ => h r hr he⟩

theorem find?_eq_none_iff {t : Index key} {k : κ} :
    t.find? k = none ↔ ∀ r, r ∈ t → key r ≠ k := by
  simp [find?, mem_def]

@[simp] theorem mem_erase {t : Index key} {k : κ} {r : ρ} :
    r ∈ t.erase k ↔ r ∈ t ∧ key r ≠ k := by
  simp [erase]

/-- Keys in ascending order differ. -/
theorem ne_of_compare_lt {a b : κ} (h : compare a b = .lt) : a ≠ b := fun he => by
  rw [he, Std.ReflOrd.compare_self] at h
  cases h

/-- Of two rows in ascending lists one key means one row. -/
theorem eq_of_key_eq_of_pairwise {rows : List ρ}
    (h : rows.Pairwise fun a b => compare (key a) (key b) = .lt) {r s : ρ} (hr : r ∈ rows)
    (hs : s ∈ rows) (he : key r = key s) : r = s := by
  induction rows with
  | nil => cases hr
  | cons x xs ih =>
    have below {y : ρ} (hy : y ∈ xs) : key x ≠ key y :=
      ne_of_compare_lt (List.rel_of_pairwise_cons h hy)
    rcases List.mem_cons.1 hr with rfl | hr' <;> rcases List.mem_cons.1 hs with rfl | hs'
    · rfl
    · exact absurd he (below hs')
    · exact absurd he.symm (below hr')
    · exact ih h.of_cons hr' hs'

/-- A row is known by its key. -/
theorem eq_of_key_eq {t : Index key} {r s : ρ} (hr : r ∈ t) (hs : s ∈ t) (h : key r = key s) :
    r = s :=
  eq_of_key_eq_of_pairwise t.ascending hr hs h

/-- **What is found is the row of the key.** -/
theorem find?_eq_some_iff {t : Index key} {k : κ} {r : ρ} :
    t.find? k = some r ↔ r ∈ t ∧ key r = k := by
  constructor
  · intro h
    have hk := List.find?_some h
    exact ⟨List.mem_of_find?_eq_some h, by simpa using hk⟩
  · rintro ⟨hr, rfl⟩
    cases hf : t.find? (key r) with
    | none => exact absurd rfl (find?_eq_none_iff.1 hf r hr)
    | some s =>
      have hk := List.find?_some hf
      rw [eq_of_key_eq (List.mem_of_find?_eq_some hf) hr (by simpa using hk)]

end LawfulEq

/-! ## Unions -/

/-- A row above a key is among the rows from the first such on. -/
theorem mem_dropWhile_of_gt {ys : List ρ} {k : κ} {r : ρ} (h : r ∈ ys)
    (hr : compare (key r) k = .gt) : r ∈ ys.dropWhile fun y => compare (key y) k != .gt := by
  induction ys with
  | nil => cases h
  | cons y ys ih =>
    rw [List.dropWhile_cons]
    split
    · rename_i hy
      rcases List.mem_cons.1 h with rfl | h
      · simp [hr] at hy
      · exact ih h
    · exact h

section Trans

variable [Std.TransOrd κ]

/-- A row below a key is among the rows before the first one that is not. -/
theorem mem_takeWhile_of_lt {ys : List ρ} {k : κ}
    (hy : ys.Pairwise fun a b => compare (key a) (key b) = .lt) {r : ρ} (h : r ∈ ys)
    (hr : compare (key r) k = .lt) : r ∈ ys.takeWhile fun y => compare (key y) k == .lt := by
  induction ys with
  | nil => cases h
  | cons y ys ih =>
    rcases List.mem_cons.1 h with rfl | h
    · simp [hr]
    · have hlt := Std.TransCmp.lt_trans (List.rel_of_pairwise_cons hy h) hr
      simp [hlt, ih hy.of_cons h]

end Trans

section Lawful

variable [Std.TransOrd κ] [Std.LawfulEqOrd κ]

/-- A merge has the rows of the first list, and those of the second without a namesake there. -/
theorem mem_merge {xs ys : List ρ}
    (hx : xs.Pairwise fun a b => compare (key a) (key b) = .lt)
    (hy : ys.Pairwise fun a b => compare (key a) (key b) = .lt) {r : ρ} :
    r ∈ merge key xs ys ↔ r ∈ xs ∨ r ∈ ys ∧ ∀ x ∈ xs, key x ≠ key r := by
  induction xs generalizing ys with
  | nil => simp [merge]
  | cons x xs ih =>
    have hd := hy.sublist (List.dropWhile_sublist fun y => compare (key y) (key x) != .gt)
    rw [merge, List.mem_append, List.mem_cons, ih hx.of_cons hd]
    constructor
    · rintro (h | rfl | h | ⟨h, hne⟩)
      · have hlt : compare (key r) (key x) = .lt := by
          simpa using List.all_eq_true.1 List.all_takeWhile r h
        refine .inr ⟨List.takeWhile_subset _ h, fun z hz => ?_⟩
        rcases List.mem_cons.1 hz with rfl | hz
        · exact (ne_of_compare_lt hlt).symm
        · exact (ne_of_compare_lt
            (Std.TransCmp.lt_trans hlt (List.rel_of_pairwise_cons hx hz))).symm
      · exact .inl (by simp)
      · exact .inl (List.mem_cons_of_mem _ h)
      · refine .inr ⟨List.dropWhile_subset _ h, fun z hz => ?_⟩
        rcases List.mem_cons.1 hz with rfl | hz
        · exact ne_of_compare_lt (above_of_mem_dropWhile hy h)
        · exact hne z hz
    · rintro (h | ⟨h, hne⟩)
      · rcases List.mem_cons.1 h with rfl | h
        · exact .inr (.inl rfl)
        · exact .inr (.inr (.inl h))
      · have hrest : ∀ z ∈ xs, key z ≠ key r := fun z hz => hne z (List.mem_cons_of_mem _ hz)
        cases hc : compare (key r) (key x) with
        | lt => exact .inl (mem_takeWhile_of_lt hy h hc)
        | eq => exact absurd (Std.LawfulEqOrd.eq_of_compare hc).symm (hne x (by simp))
        | gt => exact .inr (.inr (.inr ⟨mem_dropWhile_of_gt h hc, hrest⟩))

/-- **A union prefers its first index.** -/
theorem mem_union {a b : Index key} {r : ρ} :
    r ∈ a.union b ↔ r ∈ a ∨ r ∈ b ∧ a.hasKey (key r) = false := by
  rw [hasKey_eq_false_iff]
  exact mem_merge a.ascending b.ascending

@[simp] theorem mem_insert {t : Index key} {r s : ρ} :
    s ∈ t.insert r ↔ s = r ∨ s ∈ t ∧ key s ≠ key r := by
  rw [insert, mem_union, hasKey_eq_false_iff, mem_single]
  simp only [mem_single, forall_eq, ne_comm]

theorem hasKey_union {a b : Index key} {k : κ} :
    (a.union b).hasKey k = (a.hasKey k || b.hasKey k) := by
  rw [Bool.eq_iff_iff, Bool.or_eq_true, hasKey_iff, hasKey_iff, hasKey_iff]
  constructor
  · rintro ⟨r, hr, rfl⟩
    exact (mem_union.1 hr).imp (⟨r, ·, rfl⟩) (⟨r, ·.1, rfl⟩)
  · rintro (⟨r, hr, rfl⟩ | ⟨r, hr, rfl⟩)
    · exact ⟨r, mem_union.2 (.inl hr), rfl⟩
    · cases ha : a.hasKey (key r) with
      | false => exact ⟨r, mem_union.2 (.inr ⟨hr, ha⟩), rfl⟩
      | true =>
        obtain ⟨s, hs, he⟩ := hasKey_iff.1 ha
        exact ⟨s, mem_union.2 (.inl hs), he⟩

/-- A row whose key is not among those inserted is there if it was. -/
theorem mem_foldr_insert_of_ne {rs : List ρ} {t : Index key} {r : ρ}
    (h : ∀ r' ∈ rs, key r ≠ key r') : r ∈ rs.foldr (fun r' rows => rows.insert r') t ↔ r ∈ t := by
  induction rs with
  | nil => rfl
  | cons s rs ih =>
    rw [List.foldr_cons, mem_insert, ih fun r' hr' => h r' (List.mem_cons_of_mem _ hr')]
    have hne : key r ≠ key s := h s List.mem_cons_self
    constructor
    · rintro (rfl | ⟨hr, -⟩)
      · exact absurd rfl hne
      · exact hr
    · intro hr
      exact .inr ⟨hr, hne⟩

/-- A row that is inserted is there, if none of the others has its key. -/
theorem mem_foldr_insert_of_mem {rs : List ρ} {t : Index key} {r : ρ} (hr : r ∈ rs)
    (hagree : ∀ r' ∈ rs, key r' = key r → r' = r) :
    r ∈ rs.foldr (fun r' rows => rows.insert r') t := by
  induction rs with
  | nil => cases hr
  | cons s rs ih =>
    rw [List.foldr_cons, mem_insert]
    by_cases hs : s = r
    · exact .inl hs.symm
    · have hne : key r ≠ key s := fun he => hs (hagree s List.mem_cons_self he.symm)
      have hmem : r ∈ rs := (List.mem_cons.1 hr).resolve_left fun he => hs he.symm
      exact .inr ⟨ih hmem fun r' hr' => hagree r' (List.mem_cons_of_mem _ hr'), hne⟩

/-- What is in a union of many was in one of them. -/
theorem mem_of_mem_foldr_union {α : Type} {f : α → Index key} {xs : List α} {t : Index key} {r : ρ}
    (h : r ∈ xs.foldr (fun x rows => (f x).union rows) t) : r ∈ t ∨ ∃ x ∈ xs, r ∈ f x := by
  induction xs with
  | nil => exact .inl h
  | cons x xs ih =>
    rcases mem_union.1 h with h | ⟨h, -⟩
    · exact .inr ⟨x, List.mem_cons_self, h⟩
    · rcases ih h with h | ⟨y, hy, h⟩
      · exact .inl h
      · exact .inr ⟨y, List.mem_cons_of_mem _ hy, h⟩

/-- What is in a union of many, one after the other, was in one of them. -/
theorem mem_of_mem_foldl_union {xs : List (Index key)} {t : Index key} {r : ρ}
    (h : r ∈ xs.foldl union t) : r ∈ t ∨ ∃ x ∈ xs, r ∈ x := by
  induction xs generalizing t with
  | nil => exact .inl h
  | cons x xs ih =>
    rcases ih h with h | ⟨y, hy, h⟩
    · exact (mem_union.1 h).imp id fun ⟨h, _⟩ => ⟨x, List.mem_cons_self, h⟩
    · exact .inr ⟨y, List.mem_cons_of_mem _ hy, h⟩

/-- What is in one of many is in their union, if none of them has another row under its key. -/
theorem mem_foldl_union {xs : List (Index key)} {t : Index key} {r : ρ}
    (h : r ∈ t ∨ ∃ x ∈ xs, r ∈ x)
    (hagree : ∀ a, (a ∈ t ∨ ∃ x ∈ xs, a ∈ x) → key a = key r → a = r) : r ∈ xs.foldl union t := by
  induction xs generalizing t with
  | nil => simpa using h
  | cons x xs ih =>
    refine ih ?_ fun a ha => hagree a ?_
    · by_cases ht : r ∈ t
      · exact .inl (mem_union.2 (.inl ht))
      · rcases h with h | ⟨y, hy, h⟩
        · exact absurd h ht
        rcases List.mem_cons.1 hy with rfl | hy
        · -- A namesake before it would be the row itself.
          refine .inl (mem_union.2 (.inr ⟨h, hasKey_eq_false_iff.2 fun a ha hkey => ht ?_⟩))
          rwa [← hagree a (.inl ha) hkey]
        · exact .inr ⟨y, hy, h⟩
    · rcases ha with ha | ⟨y, hy, ha⟩
      · exact (mem_union.1 ha).imp id fun ⟨ha, _⟩ => ⟨x, List.mem_cons_self, ha⟩
      · exact .inr ⟨y, List.mem_cons_of_mem _ hy, ha⟩

/-- An index of a list has rows of the list only. -/
theorem mem_of_mem_ofList {rs : List ρ} {r : ρ} (h : r ∈ (ofList rs : Index key)) : r ∈ rs := by
  rcases mem_of_mem_foldr_union (f := single) h with h | ⟨s, hs, h⟩
  · exact absurd h not_mem_empty
  · exact mem_single.1 h ▸ hs

/-- **An index of a list has a row if none before it in the list has its key.** -/
theorem mem_ofList_iff {rs : List ρ} {r : ρ} :
    r ∈ (ofList rs : Index key) ↔
      ∃ i : Nat, rs[i]? = some r ∧ ∀ j x, j < i → rs[j]? = some x → key x ≠ key r := by
  induction rs with
  | nil => simp [ofList]
  | cons y rs ih =>
    rw [ofList, List.foldr_cons, ← ofList, mem_insert, ih]
    constructor
    · rintro (rfl | ⟨⟨i, hi, hfirst⟩, hne⟩)
      · exact ⟨0, rfl, fun j _ hj => absurd hj (Nat.not_lt_zero j)⟩
      · refine ⟨i + 1, hi, fun j x hj hx => ?_⟩
        cases j with
        | zero =>
          obtain rfl := Option.some.inj hx
          exact hne.symm
        | succ j => exact hfirst j x (Nat.lt_of_succ_lt_succ hj) hx
    · rintro ⟨i, hi, hfirst⟩
      cases i with
      | zero => exact .inl (Option.some.inj hi).symm
      | succ i =>
        refine .inr ⟨⟨i, hi, fun j x hj hx => ?_⟩, ?_⟩
        · exact hfirst (j + 1) x (Nat.succ_lt_succ hj) hx
        · exact (hfirst 0 y (Nat.succ_pos i) rfl).symm

/-! ## Extensionality -/

/-- Ascending lists with the same members are equal. -/
theorem eq_of_pairwise_of_mem_iff {xs ys : List ρ}
    (hx : xs.Pairwise fun a b => compare (key a) (key b) = .lt)
    (hy : ys.Pairwise fun a b => compare (key a) (key b) = .lt) (h : ∀ r, r ∈ xs ↔ r ∈ ys) :
    xs = ys := by
  induction xs generalizing ys with
  | nil => exact (List.eq_nil_iff_forall_not_mem.2 fun r hr => by simpa using (h r).2 hr).symm
  | cons x xs ih =>
    cases ys with
    | nil => exact absurd ((h x).1 (by simp)) List.not_mem_nil
    | cons y ys =>
      have hxy : x = y := by
        rcases List.mem_cons.1 ((h x).1 (by simp)) with he | hx'
        · exact he
        rcases List.mem_cons.1 ((h y).2 (by simp)) with he | hy'
        · exact he.symm
        have := Std.TransCmp.lt_trans (List.rel_of_pairwise_cons hx hy')
          (List.rel_of_pairwise_cons hy hx')
        exact absurd rfl (ne_of_compare_lt this)
      subst hxy
      congr 1
      refine ih hx.of_cons hy.of_cons fun r => ⟨fun hr => ?_, fun hr => ?_⟩
      · rcases List.mem_cons.1 ((h r).1 (List.mem_cons_of_mem _ hr)) with rfl | hr'
        · exact absurd rfl (ne_of_compare_lt (List.rel_of_pairwise_cons hx hr))
        · exact hr'
      · rcases List.mem_cons.1 ((h r).2 (List.mem_cons_of_mem _ hr)) with rfl | hr'
        · exact absurd rfl (ne_of_compare_lt (List.rel_of_pairwise_cons hy hr))
        · exact hr'

/-- **An index is its members.** -/
theorem ext_mem {a b : Index key} (h : ∀ r, r ∈ a ↔ r ∈ b) : a = b :=
  ext (eq_of_pairwise_of_mem_iff a.ascending b.ascending h)

/-- A new row that fails a test leaves those that pass. -/
theorem filter_insert {p : ρ → Bool} {t : Index key} {r : ρ} (hp : p r = false)
    (hnew : ∀ s, s ∈ t → key s ≠ key r) : (t.insert r).filter p = t.filter p := by
  refine ext_mem fun s => ?_
  rw [mem_filter, mem_filter, mem_insert]
  constructor
  · rintro ⟨rfl | ⟨hs, -⟩, hps⟩
    · rw [hp] at hps
      cases hps
    · exact ⟨hs, hps⟩
  · rintro ⟨hs, hps⟩
    exact ⟨.inr ⟨hs, hnew s hs⟩, hps⟩

/-- To erase a row that fails a test leaves those that pass. -/
theorem filter_erase {p : ρ → Bool} {t : Index key} {k : κ}
    (hp : ∀ r, r ∈ t → key r = k → p r = false) : (t.erase k).filter p = t.filter p := by
  refine ext_mem fun s => ?_
  rw [mem_filter, mem_filter, mem_erase]
  constructor
  · rintro ⟨⟨hs, -⟩, hps⟩
    exact ⟨hs, hps⟩
  · rintro ⟨hs, hps⟩
    refine ⟨⟨hs, fun hk => ?_⟩, hps⟩
    rw [hp s hs hk] at hps
    cases hps

end Lawful

end TeamAccess.Index

/-! ## Sets -/

namespace TeamAccess.KeySet

variable {κ : Type} [Ord κ] [Std.TransOrd κ] [Std.LawfulEqOrd κ] {ks : List κ} {k : κ}

/-- A set of a list has the members of the list. -/
@[simp] theorem mem_ofList : k ∈ (Index.ofList ks : KeySet κ) ↔ k ∈ ks := by
  refine ⟨Index.mem_of_mem_ofList, fun h => ?_⟩
  induction ks with
  | nil => cases h
  | cons j ks ih =>
    rw [Index.ofList, List.foldr_cons, ← Index.ofList, Index.mem_insert]
    by_cases hjk : k = j
    · exact .inl hjk
    · exact .inr ⟨ih ((List.mem_cons.1 h).resolve_left hjk), hjk⟩

omit [Std.TransOrd κ] in
/-- Asking whether a key is in the set is membership. -/
@[simp] theorem contains_iff {s : KeySet κ} : s.contains k = true ↔ k ∈ s := by
  simp [contains, Index.hasKey_iff]

end TeamAccess.KeySet

/-! ## Maps -/

namespace TeamAccess.KeyMap

variable {κ ν : Type} [Ord κ] [Std.LawfulEqOrd κ] {m : KeyMap κ ν} {k k' : κ} {v : ν}

/-- The value at a key is that of the key's row. -/
theorem get?_eq_some_iff : m.get? k = some v ↔ (k, v) ∈ m := by
  simp only [get?, Option.map_eq_some_iff, Index.find?_eq_some_iff]
  constructor
  · rintro ⟨⟨k', v'⟩, ⟨h, rfl⟩, rfl⟩
    exact h
  · intro h
    exact ⟨(k, v), ⟨h, rfl⟩, rfl⟩

/-- The keys of a map are those that have a value. -/
theorem mem_keys_iff : k ∈ m.keys ↔ ∃ v, m.get? k = some v := by
  constructor
  · intro hk
    obtain ⟨⟨k, v⟩, hrow, rfl⟩ := List.mem_map.1 hk
    exact ⟨v, get?_eq_some_iff.2 hrow⟩
  · rintro ⟨v, hv⟩
    exact List.mem_map.2 ⟨(k, v), get?_eq_some_iff.1 hv, rfl⟩

omit [Std.LawfulEqOrd κ] in
@[simp] theorem get?_empty : get? (Index.empty : KeyMap κ ν) k = none := rfl

/-- Erasing a key hides it alone. -/
theorem get?_erase [DecidableEq κ] :
    get? (Index.erase m k) k' = if k' = k then none else m.get? k' := by
  ext v
  rw [get?_eq_some_iff, Index.mem_erase]
  split
  · simp_all
  · simp_all [get?_eq_some_iff]

/-- **A value that is put at a key is found there, and all others are found as before.** -/
theorem get?_put [Std.TransOrd κ] [DecidableEq κ] :
    (m.put k v).get? k' = if k' = k then some v else m.get? k' := by
  ext w
  rw [get?_eq_some_iff, put, Index.mem_insert, Prod.mk.injEq]
  split
  · simp_all [eq_comm]
  · simp_all [get?_eq_some_iff]

/-- **A map is what it has at each key.** -/
theorem ext_get? {m' : KeyMap κ ν} [Std.TransOrd κ] (h : ∀ k, m.get? k = m'.get? k) : m = m' := by
  refine Index.ext_mem fun ⟨k, v⟩ => ?_
  rw [← get?_eq_some_iff, ← get?_eq_some_iff, h]

end TeamAccess.KeyMap
