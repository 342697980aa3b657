import TeamAccess.Proofs.Digits
import TeamAccess.Proofs.Listing

/-!
# Passing — filters beside sets of ids

A set of ids is asked for an id in memory, and as a filter it is a condition on a column of ids. The
two do not always agree. In memory a key of an organization is no id; in a condition it is a text,
which in a column of integers counts as the number that it is the numeral of. The text of a
version 2 key has a hyphen inside and is no numeral, but that of a version 1 key is the
organization's own number, so that a row with this number as its id passes
(`EdOrgKey.text_eq_iff`). Each list under a filter is told exactly, and with it when it has just the
rows whose ids the set contains (`Store.Readable.filtered_lists`).
-/

namespace TeamAccess

/-! ## Texts of keys -/

/-- A 64-bit integer is read from its text, up to where a hyphen follows or the text ends. -/
theorem Numeral.read_ofInt64 (n : Int64) {rest : List Char} (h : Ends rest) :
    read (Decimal.ofInt64 n ++ rest) = some (.int n.toInt, rest) := by
  have hlower := n.le_toInt
  have hupper := n.toInt_lt
  exact read_ofInt (by omega) h

/-- **The text of a number tells where it ends**: texts that begin with numbers are one text only if
the numbers are one and so is the rest. -/
theorem Decimal.ofInt64_append_inj {m n : Int64} {rest rest' : List Char} (h : Numeral.Ends rest)
    (h' : Numeral.Ends rest') :
    ofInt64 m ++ rest = ofInt64 n ++ rest' ↔ m = n ∧ rest = rest' := by
  constructor
  · intro htext
    have hread := Numeral.read_ofInt64 m h
    rw [htext, Numeral.read_ofInt64 n h'] at hread
    obtain ⟨hnumber, hrest⟩ := Prod.mk.inj (Option.some.inj hread)
    obtain rfl : n = m := Int64.toInt_inj.1 (Numeral.int.inj hnumber)
    exact ⟨rfl, hrest.symm⟩
  · rintro ⟨rfl, rfl⟩
    rfl

theorem Numeral.ends_nil : Ends [] := by simp [Ends]

theorem Decimal.ofInt64_inj {m n : Int64} : ofInt64 m = ofInt64 n ↔ m = n := by
  have hends := Numeral.ends_nil
  rw [← List.append_nil (ofInt64 m), ← List.append_nil (ofInt64 n), ofInt64_append_inj hends hends]
  simp

/-- Numbers are known by their texts. -/
theorem Decimal.text_inj {m n : Int64} : text m = text n ↔ m = n := by
  constructor
  · intro htext
    exact ofInt64_inj.1 (String.ofList_injective htext)
  · rintro rfl
    rfl

/-- **A key is known by its text**, also where its numbers are negative: the instance is read up to
the hyphen that is no sign, and the text of a version 1 key has no such hyphen. -/
theorem EdOrgKey.text_inj {k k' : EdOrgKey} : k.text = k'.text ↔ k = k' := by
  have hend := Numeral.ends_nil
  have hhyphen (n : Int64) : Numeral.Ends ('-' :: Decimal.ofInt64 n) := by
    simp [Numeral.Ends]
  have hmixed (m i n : Int64) :
      Decimal.ofInt64 m ≠ Decimal.ofInt64 i ++ '-' :: Decimal.ofInt64 n := by
    intro htext
    rw [← List.append_nil (Decimal.ofInt64 m),
      Decimal.ofInt64_append_inj hend (hhyphen n)] at htext
    cases htext.2
  constructor
  · intro htext
    have hchars : k.chars = k'.chars := String.ofList_injective htext
    obtain ⟨_ | i, m⟩ := k <;> obtain ⟨_ | j, n⟩ := k'
    · obtain rfl : m = n := Decimal.ofInt64_inj.1 hchars
      rfl
    · exact absurd hchars (hmixed m j n)
    · exact absurd hchars.symm (hmixed n i m)
    · obtain ⟨rfl, hrest⟩ := (Decimal.ofInt64_append_inj (hhyphen m) (hhyphen n)).1 hchars
      obtain rfl : m = n := Decimal.ofInt64_inj.1 (List.tail_eq_of_cons_eq hrest)
      rfl
  · rintro rfl
    rfl

/-- A key has the text of a number if it is the version 1 key of that number. -/
theorem EdOrgKey.text_eq_iff {k : EdOrgKey} {n : Int64} :
    k.text = Decimal.text n ↔ k = .v1 n := by
  rw [← text_inj]
  rfl

/-! ## Filters -/

/-- The row of an id passes: the set has the id, or the version 1 key of that number. -/
def IdSet.Passes (ids : IdSet) (n : ResourceId) : Prop :=
  ids.contains n = true ∨ ids.has (.edOrg (.v1 n)) = true

/-- **A set's filter admits the rows that pass.** -/
theorem IdSet.admits_toFilter_iff_passes {ids : IdSet} {n : ResourceId} :
    ids.toFilter.admits n = true ↔ ids.Passes n := by
  cases ids with
  | all => simp [toFilter, RowFilter.admits, Passes, contains, has]
  | only ks =>
    simp only [toFilter, RowFilter.admits, Passes, contains, has, KeySet.contains_iff,
      List.any_eq_true, ← Index.mem_def]
    constructor
    · rintro ⟨k, hk, hequals⟩
      cases k with
      | id m =>
        obtain rfl : m = n := by simpa [AccessKey.bound, BoundValue.equals] using hequals
        exact .inl hk
      | edOrg k =>
        obtain rfl := EdOrgKey.text_eq_iff.1 (of_decide_eq_true hequals)
        exact .inr hk
    · rintro (hk | hk)
      · exact ⟨_, hk, by simp [AccessKey.bound, BoundValue.equals]⟩
      · exact ⟨_, hk, decide_eq_true (EdOrgKey.text_eq_iff.2 rfl)⟩

/-- **What a list under a set's filter is**, of things of which some are in its scope. -/
structure ListsPassing {α : Type} (list : RowFilter → Except Fault (List α)) (id : α → ResourceId)
    (InScope : α → Prop) (ids : IdSet) : Prop where
  /-- It has a result, which is those in scope whose rows pass. -/
  passing : ∃ rows, list ids.toFilter = .ok rows ∧
    Enumerates id (fun a => InScope a ∧ ids.Passes (id a)) rows
  /-- It is those in scope that the set contains, just when none passes as a key alone. -/
  contained_iff : (∃ rows, list ids.toFilter = .ok rows ∧
      Enumerates id (fun a => InScope a ∧ ids.contains (id a) = true) rows) ↔
    ∀ a, InScope a → ids.has (.edOrg (.v1 (id a))) = true → ids.contains (id a) = true

/-- It suffices to know that the list is what its filter admits. -/
theorem ListsPassing.of_admits {α : Type} {list : RowFilter → Except Fault (List α)}
    {id : α → ResourceId} {InScope : α → Prop} {ids : IdSet}
    (h : ∃ rows, list ids.toFilter = .ok rows ∧
      Enumerates id (fun a => InScope a ∧ ids.toFilter.admits (id a) = true) rows) :
    ListsPassing list id InScope ids := by
  obtain ⟨rows, hrows, hadmitted⟩ := h
  have hpassing : Enumerates id (fun a => InScope a ∧ ids.Passes (id a)) rows :=
    hadmitted.congr fun a => and_congr_right fun _ => IdSet.admits_toFilter_iff_passes
  refine ⟨⟨rows, hrows, hpassing⟩, ?_, fun halone => ?_⟩
  · rintro ⟨rows', hrows', hcontained⟩ a ha hkey
    obtain rfl := Except.ok.inj (hrows.symm.trans hrows')
    exact ((hcontained.mem_iff a).1 ((hpassing.mem_iff a).2 ⟨ha, .inr hkey⟩)).2
  · refine ⟨rows, hrows, hpassing.congr fun a => and_congr_right fun ha => ?_⟩
    exact ⟨fun hpass => hpass.elim (fun hid => hid) (halone a ha), .inl⟩

namespace Store.Readable

variable {s : Store}

/-- **Which rows pass a set's filter.** Where the hierarchy can be read, each of its lists has, once
each and in ascending order, the rows of its scope whose ids the set contains, and those whose ids
are the organizations of version 1 keys of the set. So it agrees with the set just when no row of
the scope is among the latter only. -/
theorem filtered_lists (h : s.Readable) (ids : IdSet) (scope : ResourceId) :
    ListsPassing s.listEnvironments Environment.id s.HasEnvironment ids ∧
    ListsPassing (s.listTenants scope) Tenant.id
      (fun t => s.HasTenant t ∧ t.environment = scope) ids ∧
    ListsPassing (s.listOdss scope) Ods.id (fun o => s.HasOds o ∧ o.tenant = scope) ids ∧
    ListsPassing (s.listEdOrgs scope) EdOrg.id
      (fun x => s.HasEdOrg x ∧ ∃ o, s.HasOds o ∧ o.id = x.ods ∧ o.tenant = scope) ids := by
  refine ⟨.of_admits (h.listEnvironments _), .of_admits ?tenants, .of_admits ?odss,
    .of_admits ?edOrgs⟩
  case tenants => simpa only [and_assoc] using h.listTenants scope ids.toFilter
  case odss => simpa only [and_assoc] using h.listOdss scope ids.toFilter
  case edOrgs => simpa only [and_assoc] using h.listEdOrgs scope ids.toFilter

end Store.Readable

/-- A store with two tenants, one of which has an ODS with an organization. -/
def district : Store :=
  { (Store.blank .epoch).withTables with
    environments := some (Index.single (Environment.row ⟨1, "East", .v1⟩))
    tenants := some (Index.ofList [Tenant.row ⟨2, 1, "North"⟩, Tenant.row ⟨255, 1, "South"⟩])
    odss := some (Index.single (Ods.row ⟨3, 2, "Schools", none⟩))
    edOrgs := some (Index.single (EdOrg.row ⟨4, 3, 100, "First", none⟩)) }

/-- A set of an id, a version 1 key and a version 2 key. -/
def mixedKeys : IdSet := .ofKeys [.id 2, .edOrg (.v1 255), .edOrg (.v2 2 4)]

/-- The organization does not pass by the version 2 key, and its list is what the set contains; the
second tenant passes by the version 1 key, and its list is not. -/
theorem district_passes : district.Readable ∧
    (∃ rows, district.listEdOrgs 2 mixedKeys.toFilter = .ok rows ∧ Enumerates EdOrg.id
      (fun x => (district.HasEdOrg x ∧ ∃ o, district.HasOds o ∧ o.id = x.ods ∧ o.tenant = 2) ∧
        mixedKeys.contains x.id = true) rows) ∧
    ¬ ∃ rows, district.listTenants 1 mixedKeys.toFilter = .ok rows ∧ Enumerates Tenant.id
      (fun t => (district.HasTenant t ∧ t.environment = 1) ∧ mixedKeys.contains t.id = true)
        rows := by
  have hreadable : district.Readable := by
    refine ⟨⟨_, rfl, ?_⟩, ⟨_, rfl, ?_⟩, ⟨_, rfl, ?_⟩, ⟨_, rfl, ?_⟩⟩
    · intro r hr
      exact ⟨_, EnvironmentRow.load_eq_ok_iff.2 (Index.mem_single.1 hr)⟩
    · intro r hr
      rcases List.mem_cons.1 (Index.mem_of_mem_ofList hr) with rfl | hr
      · exact ⟨_, TenantRow.load_eq_ok_iff.2 rfl⟩
      · exact ⟨_, TenantRow.load_eq_ok_iff.2 (List.mem_singleton.1 hr)⟩
    · intro r hr
      exact ⟨_, OdsRow.load_eq_ok_iff.2 (Index.mem_single.1 hr)⟩
    · intro r hr
      exact ⟨_, EdOrgRow.load_eq_ok_iff.2 (Index.mem_single.1 hr)⟩
  refine ⟨hreadable, ?_, fun hcontained => ?_⟩
  · refine (hreadable.filtered_lists mixedKeys 2).2.2.2.contained_iff.2 ?_
    rintro x ⟨⟨t, ht, hx⟩, -⟩ hkey
    obtain rfl := Option.some.inj ht
    obtain rfl := EdOrg.row_inj (Index.mem_single.1 hx)
    exact absurd hkey (by decide)
  · have halone := (hreadable.filtered_lists mixedKeys 1).2.1.contained_iff.1 hcontained
    have hsouth : district.HasTenant ⟨255, 1, "South"⟩ := ⟨_, rfl, by decide⟩
    exact absurd (halone _ ⟨hsouth, rfl⟩ (by decide)) (by decide)

/-- A set that has no id lets the environment pass whose id is the organization of its key. -/
theorem district_listed_by_key : ¬ ∃ rows,
    district.listEnvironments (IdSet.ofKeys [.edOrg (.v1 1)]).toFilter = .ok rows ∧
      Enumerates Environment.id (fun e => district.HasEnvironment e ∧
        (IdSet.ofKeys [.edOrg (.v1 1)]).contains e.id = true) rows := by
  rintro ⟨rows, hrows, hcontained⟩
  have hlisted : ⟨1, "East", .v1⟩ ∈ rows := by
    have hone : district.listEnvironments (IdSet.ofKeys [.edOrg (.v1 1)]).toFilter =
        .ok [⟨1, "East", .v1⟩] := rfl
    obtain rfl := Except.ok.inj (hone.symm.trans hrows)
    exact List.mem_cons_self
  exact absurd ((hcontained.mem_iff _).1 hlisted).2 (by decide)

end TeamAccess
