/-!
# Index — rows in ascending key order

An `Index key` is a list of rows whose keys strictly ascend, so a key occurs at most once and one
content has one list. Tables of the store, sets of ids and maps from scopes to ids are all indexes,
with a different `key` each.

The one builder is `Index.union`, a left-biased merge; `insert` and `ofList` are made of it.
`Index/Lemmas` says of all of these which rows they have.
-/

namespace TeamAccess

/-- Pairs are ordered by their first parts, and by the second where those are equal. -/
instance pairOrd {α β : Type} [Ord α] [Ord β] : Ord (α × β) := lexOrd

/-- Pairs of ordered things are ordered. -/
instance pairTransOrd {α β : Type} [Ord α] [Ord β] [Std.TransOrd α] [Std.TransOrd β] :
    Std.TransOrd (α × β) :=
  inferInstanceAs (@Std.TransOrd (α × β) lexOrd)

/-- Pairs of which neither is above the other are equal. -/
instance pairLawfulEqOrd {α β : Type} [Ord α] [Ord β] [Std.LawfulEqOrd α] [Std.LawfulEqOrd β] :
    Std.LawfulEqOrd (α × β) :=
  inferInstanceAs (@Std.LawfulEqOrd (α × β) lexOrd)

variable {ρ κ : Type} [Ord κ]

/-- Rows in strictly ascending order of their keys. -/
structure Index (key : ρ → κ) where
  /-- The rows, smallest key first. -/
  rows : List ρ
  /-- Every row's key is below the keys of the rows after it. -/
  ascending : rows.Pairwise fun a b => compare (key a) (key b) = .lt

/-- A set of keys. -/
abbrev KeySet (κ : Type) [Ord κ] := Index (ρ := κ) (fun k => k)

/-- A map from keys to values. -/
abbrev KeyMap (κ ν : Type) [Ord κ] := Index (ρ := κ × ν) Prod.fst

namespace Index

variable {key : ρ → κ}

/-- An index is determined by its list of rows. -/
@[ext] theorem ext {a b : Index key} (h : a.rows = b.rows) : a = b := by
  cases a; cases b; cases h; rfl

instance [DecidableEq ρ] : DecidableEq (Index key) := fun _ _ =>
  decidable_of_iff _ ⟨Index.ext, congrArg Index.rows⟩

/-- The index with no rows. -/
def empty : Index key := ⟨[], .nil⟩

instance : Inhabited (Index key) := ⟨empty⟩

/-- The index with one row. -/
def single (r : ρ) : Index key := ⟨[r], List.pairwise_singleton ..⟩

instance : Membership ρ (Index key) := ⟨fun t r => r ∈ t.rows⟩

/-- Membership in an index is membership in its rows. -/
theorem mem_def {t : Index key} {r : ρ} : r ∈ t ↔ r ∈ t.rows := Iff.rfl

instance [DecidableEq ρ] (r : ρ) (t : Index key) : Decidable (r ∈ t) :=
  inferInstanceAs (Decidable (r ∈ t.rows))

/-- The row with a key. -/
def find? (t : Index key) (k : κ) : Option ρ :=
  t.rows.find? fun r => compare (key r) k == .eq

/-- Whether some row has the key. -/
def hasKey (t : Index key) (k : κ) : Bool :=
  t.rows.any fun r => compare (key r) k == .eq

/-- Whether there are no rows. -/
def isEmpty (t : Index key) : Bool := t.rows.isEmpty

/-- How many rows there are. -/
def size (t : Index key) : Nat := t.rows.length

/-- The rows that pass a test. -/
def filter (p : ρ → Bool) (t : Index key) : Index key :=
  ⟨t.rows.filter p, t.ascending.filter p⟩

/-- All rows but the one with the key. -/
def erase (t : Index key) (k : κ) : Index key :=
  t.filter fun r => compare (key r) k != .eq

/-- Every row changed by a function that leaves keys alone. -/
def mapRows (f : ρ → ρ) (hf : ∀ r, key (f r) = key r) (t : Index key) : Index key :=
  ⟨t.rows.map f, List.pairwise_map.2 (t.ascending.imp fun h => by rwa [hf, hf])⟩

/-- The rows of the first list, and those of the second whose keys the first lacks, in order. -/
def merge (key : ρ → κ) : List ρ → List ρ → List ρ
  | [], ys => ys
  | x :: xs, ys =>
    ys.takeWhile (fun y => compare (key y) (key x) == .lt) ++
      x :: merge key xs (ys.dropWhile fun y => compare (key y) (key x) != .gt)

/-- A row of a merge comes from one of the two lists. -/
theorem mem_of_mem_merge {xs ys : List ρ} {r : ρ} (h : r ∈ merge key xs ys) :
    r ∈ xs ∨ r ∈ ys := by
  induction xs generalizing ys with
  | nil => exact .inr h
  | cons x xs ih =>
    rw [merge, List.mem_append, List.mem_cons] at h
    rcases h with h | rfl | h
    · exact .inr (List.takeWhile_subset _ h)
    · exact .inl (by simp)
    · rcases ih h with h | h
      · exact .inl (List.mem_cons_of_mem _ h)
      · exact .inr (List.dropWhile_subset _ h)

section Lawful

variable [Std.TransOrd κ]

/-- What follows the rows up to a key lies above it. -/
theorem above_of_mem_dropWhile {ys : List ρ} {k : κ}
    (hy : ys.Pairwise fun a b => compare (key a) (key b) = .lt) {r : ρ}
    (h : r ∈ ys.dropWhile fun y => compare (key y) k != .gt) : compare k (key r) = .lt := by
  induction ys with
  | nil => simp at h
  | cons y ys ih =>
    rw [List.dropWhile_cons] at h
    split at h
    · exact ih hy.of_cons h
    · rename_i hgt
      have hgt : compare k (key y) = .lt := by
        simpa [Std.OrientedCmp.gt_iff_lt] using hgt
      rcases List.mem_cons.1 h with rfl | h
      · exact hgt
      · exact Std.TransCmp.lt_trans hgt (List.rel_of_pairwise_cons hy h)

/-- Merging ascending lists gives an ascending list. -/
theorem ascending_merge {xs ys : List ρ}
    (hx : xs.Pairwise fun a b => compare (key a) (key b) = .lt)
    (hy : ys.Pairwise fun a b => compare (key a) (key b) = .lt) :
    (merge key xs ys).Pairwise fun a b => compare (key a) (key b) = .lt := by
  induction xs generalizing ys with
  | nil => exact hy
  | cons x xs ih =>
    have hd := hy.sublist (List.dropWhile_sublist fun y => compare (key y) (key x) != .gt)
    have below : ∀ r ∈ merge key xs (ys.dropWhile fun y => compare (key y) (key x) != .gt),
        compare (key x) (key r) = .lt := fun r hr =>
      (mem_of_mem_merge hr).elim (List.rel_of_pairwise_cons hx)
        (above_of_mem_dropWhile hy)
    rw [merge, List.pairwise_append]
    refine ⟨hy.sublist (List.takeWhile_sublist _),
      List.pairwise_cons.2 ⟨below, ih hx.of_cons hd⟩, ?_⟩
    intro a ha b hb
    have hax : compare (key a) (key x) = .lt := by
      simpa using List.all_eq_true.1 List.all_takeWhile a ha
    rcases List.mem_cons.1 hb with rfl | hb
    · exact hax
    · exact Std.TransCmp.lt_trans hax (below b hb)

/-- All rows of the first index, and those of the second whose keys the first lacks. -/
def union (a b : Index key) : Index key :=
  ⟨merge key a.rows b.rows, ascending_merge a.ascending b.ascending⟩

/-- The index with one more row, which replaces a row of the same key. -/
def insert (t : Index key) (r : ρ) : Index key := (single r).union t

/-- The index of a list of rows; of rows with one key the first counts. -/
def ofList (rs : List ρ) : Index key := rs.foldr (fun r t => t.insert r) empty

end Lawful

end Index

namespace KeySet

variable [Std.TransOrd κ]

/-- Whether a key is in the set. -/
def contains (s : KeySet κ) (k : κ) : Bool := Index.hasKey s k

end KeySet

namespace KeyMap

variable {ν : Type}

/-- The value at a key. -/
def get? (m : KeyMap κ ν) (k : κ) : Option ν := (Index.find? m k).map Prod.snd

/-- The keys that have a value, in order. -/
def keys (m : KeyMap κ ν) : List κ := m.rows.map Prod.fst

/-- The map with a value put at a key. -/
def put [Std.TransOrd κ] (m : KeyMap κ ν) (k : κ) (v : ν) : KeyMap κ ν := Index.insert m (k, v)

end KeyMap

end TeamAccess
