import TeamAccess.Proofs.Cover
import TeamAccess.Proofs.Totality

/-!
# Listings — the rows that a team is shown

Lists of the store are scans of tables in id order: where tables can be read, each list under a
filter has a result, and its rows are those of its place that pass, each once and in ascending order
(`Store.Readable`). A filter for reading lets pass just what the team may read, so on a sound store
the rows of each list under the team's own filter are those of its place that the team may read.
-/

namespace TeamAccess

/-- **The rows are just those with the property**, each once and in ascending order of their ids. -/
structure Enumerates {α : Type} (id : α → ResourceId) (P : α → Prop) (rows : List α) : Prop where
  ascending : rows.Pairwise fun a b => id a < id b
  mem_iff : ∀ a, a ∈ rows ↔ P a

/-- The same property in other words. -/
theorem Enumerates.congr {α : Type} {id : α → ResourceId} {P Q : α → Prop} {rows : List α}
    (h : Enumerates id P rows) (hPQ : ∀ a, P a ↔ Q a) : Enumerates id Q rows :=
  ⟨h.ascending, fun a => (h.mem_iff a).trans (hPQ a)⟩

/-- Where one thing has the property, it alone is listed. -/
theorem Enumerates.eq_singleton {α : Type} {id : α → ResourceId} {P : α → Prop} {rows : List α}
    (h : Enumerates id P rows) {a : α} (ha : ∀ b, P b ↔ b = a) : rows = [a] := by
  have hmem (b : α) : b ∈ rows ↔ b = a := (h.mem_iff b).trans (ha b)
  match rows, h.ascending with
  | [], _ => exact absurd ((hmem a).2 rfl) List.not_mem_nil
  | [b], _ => rw [(hmem b).1 List.mem_cons_self]
  | b :: c :: _, hascending =>
    obtain rfl := (hmem b).1 List.mem_cons_self
    obtain rfl := (hmem c).1 (List.mem_cons_of_mem _ List.mem_cons_self)
    exact absurd (List.rel_of_pairwise_cons hascending List.mem_cons_self) Int64.lt_irrefl

namespace Store

variable {s : Store}

/-! ## Scans -/

/-- What is read from the rows of a table that pass is in ascending order, if ids are read as they
are. -/
theorem ascending_of_mapM {ρ α : Type} {key : ρ → Int64} {id : α → Int64} {t : Index key}
    {f : ρ → Bool} {load : ρ → Except Fault α} (hload : ∀ r a, load r = .ok a → key r = id a)
    {rows : List α} (h : (t.rows.filter f).mapM load = .ok rows) :
    rows.Pairwise fun a b => id a < id b := by
  refine pairwise_of_mapM_eq_ok (fun {r r' a a'} ha ha' hlt => ?_) h (t.ascending.filter f)
  -- Rows are in order of their keys, which are the ids of what is read from them.
  rw [← hload r a ha, ← hload r' a' ha']
  exact Std.compare_eq_lt.1 hlt

/-- A list of a tenant's organizations has what is held in its ODSs and passes. An organization that
can be read names its ODS by an integer, so it is of no account how ODSs are looked up. -/
theorem mem_of_listEdOrgs (hodss : Filled s.odss fun r => Succeeds r.load) {id : ResourceId}
    {f : RowFilter} {xs : List EdOrg} (hxs : s.listEdOrgs id f = .ok xs) {x : EdOrg} :
    x ∈ xs ↔ s.HasEdOrg x ∧
      (∃ o, s.HasOds o ∧ o.id = x.ods ∧ o.tenant = id) ∧ f.admits x.id = true := by
  simp only [listEdOrgs, bind_eq_ok_iff, need_eq_ok_iff] at hxs
  obtain ⟨t, ht, u, hu, hxs⟩ := hxs
  have howner : (u.find? x.ods).any (fun o => o.tenant.equals id) = true ↔
      ∃ o, s.HasOds o ∧ o.id = x.ods ∧ o.tenant = id := by
    rw [Option.any_eq_true]
    constructor
    · rintro ⟨r, hr, htenant⟩
      obtain ⟨hmem, hid⟩ := Index.find?_eq_some_iff.1 hr
      obtain ⟨o, ho⟩ := hodss.of_mem hu hmem
      obtain rfl := OdsRow.load_eq_ok_iff.1 ho
      exact ⟨o, ⟨u, hu, hmem⟩, hid, by simpa using htenant⟩
    · rintro ⟨o, ⟨u', hu', hmem⟩, hid, htenant⟩
      obtain rfl := Option.some.inj (hu.symm.trans hu')
      exact ⟨o.row, Index.find?_eq_some_iff.2 ⟨hmem, hid⟩, by simpa using htenant⟩
  rw [mem_iff_of_mapM_eq_ok hxs]
  simp only [List.mem_filter, EdOrgRow.load_eq_ok_iff, Bool.and_eq_true, ← howner, HasEdOrg, ht,
    Option.some.injEq, exists_eq_left', ← Index.mem_def]
  constructor
  · rintro ⟨r, ⟨hr, hods, hadmits⟩, rfl⟩
    exact ⟨hr, by simpa [IntCell.int?] using hods, hadmits⟩
  · rintro ⟨hr, hods, hadmits⟩
    exact ⟨x.row, ⟨hr, by simpa [IntCell.int?] using hods, hadmits⟩, rfl⟩

/-! ## Lists under a filter -/

namespace Readable

/-- The environments that pass. -/
theorem listEnvironments (h : s.Readable) (f : RowFilter) :
    ∃ rows, s.listEnvironments f = .ok rows ∧
      Enumerates Environment.id (fun e => s.HasEnvironment e ∧ f.admits e.id = true) rows := by
  obtain ⟨rows, hrows⟩ := h.succeeds_listEnvironments f
  refine ⟨rows, hrows, ?_, fun e => mem_of_listEnvironments hrows⟩
  obtain ⟨t, -, hrows⟩ := bind_eq_ok_iff.1 hrows
  exact ascending_of_mapM (fun r e he => by simp [EnvironmentRow.load_eq_ok_iff.1 he]) hrows

/-- The tenants of an environment that pass. -/
theorem listTenants (h : s.Readable) (id : ResourceId) (f : RowFilter) :
    ∃ rows, s.listTenants id f = .ok rows ∧
      Enumerates Tenant.id (fun t => s.HasTenant t ∧ t.environment = id ∧ f.admits t.id = true)
        rows := by
  obtain ⟨rows, hrows⟩ := h.succeeds_listTenants id f
  refine ⟨rows, hrows, ?_, fun t => mem_of_listTenants hrows⟩
  obtain ⟨u, -, hrows⟩ := bind_eq_ok_iff.1 hrows
  exact ascending_of_mapM (fun r t ht => by simp [TenantRow.load_eq_ok_iff.1 ht]) hrows

/-- The ODSs of a tenant that pass. -/
theorem listOdss (h : s.Readable) (id : ResourceId) (f : RowFilter) :
    ∃ rows, s.listOdss id f = .ok rows ∧
      Enumerates Ods.id (fun o => s.HasOds o ∧ o.tenant = id ∧ f.admits o.id = true) rows := by
  obtain ⟨rows, hrows⟩ := h.succeeds_listOdss id f
  refine ⟨rows, hrows, ?_, fun o => mem_of_listOdss hrows⟩
  obtain ⟨t, -, hrows⟩ := bind_eq_ok_iff.1 hrows
  exact ascending_of_mapM (fun r o ho => by simp [OdsRow.load_eq_ok_iff.1 ho]) hrows

/-- The organizations of a tenant that pass. -/
theorem listEdOrgs (h : s.Readable) (id : ResourceId) (f : RowFilter) :
    ∃ rows, s.listEdOrgs id f = .ok rows ∧
      Enumerates EdOrg.id (fun x => s.HasEdOrg x ∧
        (∃ o, s.HasOds o ∧ o.id = x.ods ∧ o.tenant = id) ∧ f.admits x.id = true) rows := by
  obtain ⟨rows, hrows⟩ := h.succeeds_listEdOrgs id f
  refine ⟨rows, hrows, ?_, fun x => mem_of_listEdOrgs h.odss hrows⟩
  obtain ⟨_, -, hrows⟩ := bind_eq_ok_iff.1 hrows
  obtain ⟨_, -, hrows⟩ := bind_eq_ok_iff.1 hrows
  exact ascending_of_mapM (fun r x hx => by simp [EdOrgRow.load_eq_ok_iff.1 hx]) hrows

end Readable

/-! ## Lists under a team's filter -/

section Shown

variable {team : TeamId} {c : Cache} {q : ScopeParams}

/-- The environments that a team is shown. -/
theorem enumerates_listEnvironments (h : s.Sound) (hc : s.buildCache team = .ok c) :
    ∃ rows, s.listEnvironments (c.extract .environmentRead q).toFilter = .ok rows ∧
      Enumerates Environment.id (fun e => s.HasEnvironment e ∧
        s.MayRead team .environmentRead (.environment e.id)) rows := by
  obtain ⟨rows, hrows, hpass⟩ :=
    h.readable.listEnvironments (c.extract .environmentRead q).toFilter
  refine ⟨rows, hrows, hpass.congr fun e => and_congr_right fun he => ?_⟩
  exact admits_toFilter_extract_iff h hc rfl rfl (.environment he rfl)

/-- The tenants of an environment that a team is shown. -/
theorem enumerates_listTenants (h : s.Sound) (hc : s.buildCache team = .ok c) {id : ResourceId}
    (hq : q.environment = some id) :
    ∃ rows, s.listTenants id (c.extract .tenantRead q).toFilter = .ok rows ∧
      Enumerates Tenant.id (fun t => s.HasTenant t ∧ t.environment = id ∧
        s.MayRead team .tenantRead (.tenant t.id)) rows := by
  obtain ⟨rows, hrows, hpass⟩ := h.readable.listTenants id (c.extract .tenantRead q).toFilter
  refine ⟨rows, hrows, hpass.congr fun t => ?_⟩
  refine and_congr_right fun ht => and_congr_right fun hid => ?_
  obtain ⟨e, hin⟩ := h.tenantIn ht
  have hplace : q.place? Privilege.tenantRead.shape = some (.environment id) :=
    congrArg (Option.map Place.environment) hq
  exact admits_toFilter_extract_iff h hc rfl hplace (.tenant hin (hin.eq.symm.trans hid) rfl)

/-- The ODSs of a tenant that a team is shown. -/
theorem enumerates_listOdss (h : s.Sound) (hc : s.buildCache team = .ok c) {id : ResourceId}
    (hq : q.tenant = some id) :
    ∃ rows, s.listOdss id (c.extract .odsRead q).toFilter = .ok rows ∧
      Enumerates Ods.id (fun o => s.HasOds o ∧ o.tenant = id ∧
        s.MayRead team .odsRead (.ods o.id)) rows := by
  obtain ⟨rows, hrows, hpass⟩ := h.readable.listOdss id (c.extract .odsRead q).toFilter
  refine ⟨rows, hrows, hpass.congr fun o => ?_⟩
  refine and_congr_right fun ho => and_congr_right fun hid => ?_
  obtain ⟨t, e, hin⟩ := h.odsIn ho
  have hplace : q.place? Privilege.odsRead.shape = some (.tenant id) :=
    congrArg (Option.map Place.tenant) hq
  exact admits_toFilter_extract_iff h hc rfl hplace (.ods hin (hin.eq.symm.trans hid) rfl)

/-- The organizations of a tenant that a team is shown. -/
theorem enumerates_listEdOrgs (h : s.Sound) (hc : s.buildCache team = .ok c) {id : ResourceId}
    (hq : q.tenant = some id) :
    ∃ rows, s.listEdOrgs id (c.extract .edOrgRead q).toFilter = .ok rows ∧
      Enumerates EdOrg.id (fun x => s.HasEdOrg x ∧
        (∃ o, s.HasOds o ∧ o.id = x.ods ∧ o.tenant = id) ∧
        s.MayRead team .edOrgRead (.edOrg x.id)) rows := by
  obtain ⟨rows, hrows, hpass⟩ := h.readable.listEdOrgs id (c.extract .edOrgRead q).toFilter
  refine ⟨rows, hrows, hpass.congr fun x => ?_⟩
  refine and_congr_right fun hx => and_congr_right fun ⟨o, ho, hid, htenant⟩ => ?_
  obtain ⟨t, e, hin⟩ := h.odsIn ho
  have hplace : q.place? Privilege.edOrgRead.shape = some (.tenant id) :=
    congrArg (Option.map Place.tenant) hq
  exact admits_toFilter_extract_iff h hc rfl hplace
    (.edOrg hin hx hid.symm (hin.eq.symm.trans htenant) rfl)

end Shown

end Store

end TeamAccess
