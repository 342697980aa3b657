import TeamAccess.Proofs.Holding
import TeamAccess.Proofs.RoundTrip
import TeamAccess.Proofs.Totality
import TeamAccess.Store.Edit

/-!
# Gates — where a kind and an id become a reference

Three places decide whether a kind, which may be any text, and an id, which may be missing, are
those of a resource reference: `ResourceRef.ofParts`, which rebuilds it from the columns of a row,
the constraints that the table of ownerships puts on these columns, and the reader of references
in JSON. The first two come to one condition on the catalog of kinds: the kind has to be known, and
the id has to be missing exactly if the kind is that of everything (`ResourceKind.Suits`). The
reader gives what is rebuilt. So the three agree (`ResourceRef.gates_agree`), and no row that the
constraints let in is refused for its kind and its id when a team's ownerships are read for a build.
-/

namespace TeamAccess

/-! ## The catalog of kinds -/

namespace ResourceKind

/-- The catalog has the names of all kinds. -/
theorem mem_names_iff {s : String} :
    s ∈ ["global", "environment", "tenant", "ods", "edorg"] ↔
      ∃ kind : ResourceKind, kind.name = s := by
  constructor
  · intro h
    simp only [List.mem_cons, List.not_mem_nil, or_false] at h
    rcases h with rfl | rfl | rfl | rfl | rfl
    exacts [⟨.global, rfl⟩, ⟨.environment, rfl⟩, ⟨.tenant, rfl⟩, ⟨.ods, rfl⟩, ⟨.edOrg, rfl⟩]
  · rintro ⟨kind, rfl⟩
    cases kind <;> simp [name]

/-- The name of everything is that of no single resource. -/
theorem name_eq_global_iff {kind : ResourceKind} : kind.name = "global" ↔ kind = .global := by
  cases kind <;> simp [name]

/-- **The kind and the id are those of a reference**: the kind is known, and an id is missing just
if the kind is that of everything. -/
def Suits (kind : String) (unnamed : Prop) : Prop :=
  ∃ k : ResourceKind, k.name = kind ∧ (k = .global ↔ unnamed)

end ResourceKind

/-! ## From parts -/

namespace ResourceRef

variable {kind : String} {id : Option ResourceId}

/-- **The reference that is rebuilt from a kind and an id is the one that has them.** -/
theorem ofParts_eq_ok_iff {r : ResourceRef} :
    ofParts kind id = .ok r ↔ r.kind.name = kind ∧ r.id? = id := by
  constructor
  · intro h
    cases hkind : ResourceKind.ofName? kind with
    | none => simp [ofParts, hkind] at h
    | some k =>
      obtain rfl := ResourceKind.ofName?_eq_some_iff.1 hkind
      cases k <;> cases id <;> simp [ofParts, hkind] at h <;> exact h ▸ ⟨rfl, rfl⟩
  · rintro ⟨rfl, rfl⟩
    exact ofParts_kind r

/-- There is a reference with a kind and an id if they suit each other. -/
theorem succeeds_ofParts_iff :
    Succeeds (ofParts kind id) ↔ ResourceKind.Suits kind (id = none) := by
  constructor
  · rintro ⟨r, hr⟩
    obtain ⟨hkind, hid⟩ := ofParts_eq_ok_iff.1 hr
    refine ⟨r.kind, hkind, ?_⟩
    rw [← hid]
    cases r <;> simp [ResourceRef.kind, id?]
  · rintro ⟨k, rfl, hid⟩
    have hparts : ∃ r : ResourceRef, r.kind = k ∧ r.id? = id := by
      cases id with
      | none =>
        obtain rfl := hid.2 rfl
        exact ⟨.global, rfl, rfl⟩
      | some n =>
        cases k with
        | global => cases hid.1 rfl
        | environment => exact ⟨.environment n, rfl, rfl⟩
        | tenant => exact ⟨.tenant n, rfl, rfl⟩
        | ods => exact ⟨.ods n, rfl, rfl⟩
        | edOrg => exact ⟨.edOrg n, rfl, rfl⟩
    obtain ⟨r, rfl, rfl⟩ := hparts
    exact ⟨r, ofParts_kind r⟩

end ResourceRef

/-! ## The constraints of the table -/

namespace OwnershipRow

variable {row : OwnershipRow} {kind : String} {id : Option ResourceId}

/-- The constraints ask that the kind is a text, and that it and the resource suit each other. -/
theorem isReference_iff : row.isReference = true ↔
    ∃ kind, row.kind = .text kind ∧ ResourceKind.Suits kind (row.resource = none) := by
  have hknown : (["global", "environment", "tenant", "ods", "edorg"].map TextCell.text).contains
      row.kind = true ↔ ∃ k : ResourceKind, row.kind = .text k.name := by
    simp only [List.contains_iff_mem, List.mem_map, ResourceKind.mem_names_iff]
    constructor
    · rintro ⟨_, ⟨k, rfl⟩, hk⟩
      exact ⟨k, hk.symm⟩
    · rintro ⟨k, hk⟩
      exact ⟨k.name, ⟨k, rfl⟩, hk.symm⟩
  have hmatch : ((row.kind == .text "global") == row.resource.isNone) = true ↔
      (row.kind = .text "global" ↔ row.resource = none) := by
    rw [beq_iff_eq, Bool.eq_iff_iff, beq_iff_eq, Option.isNone_iff_eq_none]
  unfold isReference
  rw [Bool.and_eq_true, hknown, hmatch]
  constructor
  · rintro ⟨⟨k, hk⟩, hid⟩
    rw [hk, TextCell.text.injEq, ResourceKind.name_eq_global_iff] at hid
    exact ⟨_, hk, k, rfl, hid⟩
  · rintro ⟨_, hkind, k, rfl, hid⟩
    rw [hkind, TextCell.text.injEq, ResourceKind.name_eq_global_iff]
    exact ⟨⟨k, rfl⟩, hid⟩

/-- A row whose columns can be read is an ownership of the reference with its kind and id. -/
theorem load_of_isReadable (hreadable : row.isReadable = true) (hkind : row.kind = .text kind)
    (hid : row.resource = id.map .int) (now : Timestamp) (r : ResourceRef) :
    (∃ o, row.load now = .ok o ∧ o.resource = r) ↔ ResourceRef.ofParts kind id = .ok r := by
  simp only [isReadable, Bool.and_eq_true, Option.isSome_iff_exists, Option.any_eq_true]
    at hreadable
  obtain ⟨⟨⟨⟨⟨team, hteam⟩, role, hrole⟩, -⟩, -⟩, cell, hcell, created, hcreated⟩ := hreadable
  have hload : IntCell.load? row.resource = .ok id := IntCell.load?_eq_ok_iff.2 hid
  have htime : row.time now = .ok ((Timestamp.ofRow? created).getD now) := by
    simp [time, hcell, TextCell.load, hcreated]
  simp only [load, IntCell.load, hteam, hrole, hkind, TextCell.load, TextCell.text?, hload, htime,
    Option.elim, bind, Except.bind]
  cases hparts : ResourceRef.ofParts kind id with
  | error e => simp
  | ok r' => simp

end OwnershipRow

/-- The value with which a column is set to an id, or left empty. -/
def Cell.ofId? (id : Option ResourceId) : Cell := id.elim .null .int

theorem Cell.int?_ofId? (id : Option ResourceId) : (ofId? id).int? = id.map .int := by
  cases id <;> rfl

namespace Store

variable {s s' : Store} {team role : Cell} {kind : String} {time : Option TextCell}

/-- A table that is only asked for has to be there. -/
theorem exists_discard_need_iff {α : Type} {a : Option α} :
    (∃ u, discard (need a) = .ok u) ↔ ∃ b, a = some b := by
  cases a with
  | none => exact ⟨fun ⟨_, h⟩ => (nomatch h), fun ⟨_, h⟩ => (nomatch h)⟩
  | some b => exact ⟨fun _ => ⟨b, rfl⟩, fun _ => ⟨(), rfl⟩⟩

/-- **A row is added to the table** if the table has an id left for it, if its team and its role are
stored and if it is the row of a reference. -/
theorem addOwnership_eq_ok_iff {resource : Cell} {n : Nat} :
    s.addOwnership true team role (.text kind) resource time = .ok (n, s') ↔
      ∃ t, s.ownerships = some t ∧ (∃ teams, s.teams = some teams) ∧
        (∃ roles, s.roles = some roles) ∧ ∃ id, t.next? = some id ∧
        ∃ a, team.int? = some a ∧ ∃ b, role.int? = some b ∧ ∃ row : OwnershipRow,
          row = ⟨id, a, b, .text kind, resource.int?, some (time.getD (.text s.now.rowText))⟩ ∧
          row.isReference = true ∧ refersIn (rowsOf s.teams) a = true ∧
          refersIn (rowsOf s.roles) b = true ∧
          n = 1 ∧ { s with ownerships := some (t.push row) } = s' := by
  have hcheck (r : OwnershipRow) (a b : Bool) (x : Nat × Store) :
      (if true && !(r.isReference && a && b) then .error .storage else pure x) =
        (.ok (n, s') : Edited) ↔ r.isReference = true ∧ a = true ∧ b = true ∧ x = (n, s') := by
    cases r.isReference <;> cases a <;> cases b <;> simp
  -- Each step of the chain asks for one thing, and the last one checks the row.
  simp only [addOwnership, if_true, Cell.text?, bind_eq_ok_iff, need_eq_ok_iff, hcheck,
    exists_and_right, exists_discard_need_iff, Option.some.injEq, exists_eq_left']
  constructor
  · rintro ⟨t, ht, hteams, hroles, id, hid, a, ha, b, hb, hrow, hteam, hrole, hadd⟩
    obtain ⟨rfl, hs⟩ := Prod.mk.inj hadd
    exact ⟨t, ht, hteams, hroles, id, hid, a, ha, b, hb, _, rfl, hrow, hteam, hrole, rfl, hs⟩
  · rintro ⟨t, ht, hteams, hroles, id, hid, a, ha, b, hb, _, rfl, hrow, hteam, hrole, rfl, hs⟩
    exact ⟨t, ht, hteams, hroles, id, hid, a, ha, b, hb, hrow, hteam, hrole,
      congrArg (Prod.mk 1) hs⟩

/-- **Where a row about everything is let in, just the rows of references are.** Whether the rest of
a row can be stored does not depend on its kind and its resource. -/
theorem succeeds_addOwnership_iff {id : Option ResourceId}
    (h : Succeeds (s.addOwnership true team role (.text "global") .null time)) :
    Succeeds (s.addOwnership true team role (.text kind) (.ofId? id) time) ↔
      ResourceKind.Suits kind (id = none) := by
  have hnone : (Cell.ofId? id).int? = none ↔ id = none := by
    rw [Cell.int?_ofId?, Option.map_eq_none_iff]
  constructor
  · rintro ⟨⟨n, s'⟩, hadd⟩
    obtain ⟨_, -, -, -, _, -, _, -, _, -, _, rfl, hrow, -⟩ := addOwnership_eq_ok_iff.1 hadd
    obtain ⟨_, hkind, hsuits⟩ := OwnershipRow.isReference_iff.1 hrow
    obtain rfl := TextCell.text.inj hkind
    simpa only [hnone] using hsuits
  · intro hsuits
    obtain ⟨⟨n, s'⟩, hadd⟩ := h
    obtain ⟨t, ht, hteams, hroles, new, hnew, a, ha, b, hb, _, -, -, hteam, hrole, -⟩ :=
      addOwnership_eq_ok_iff.1 hadd
    refine ⟨_, addOwnership_eq_ok_iff.2 ⟨t, ht, hteams, hroles, new, hnew, a, ha, b, hb, _, rfl,
      ?_, hteam, hrole, rfl, rfl⟩⟩
    refine OwnershipRow.isReference_iff.2 ⟨kind, rfl, ?_⟩
    simpa only [hnone] using hsuits

/-- An ownership that is added has its row in the table. -/
theorem row_mem_createOwnership {o : NewOwnership} {created : Ownership}
    (hok : s.createOwnership o = .ok (created, s')) :
    ∃ t, s'.ownerships = some t ∧ o.row created.id s'.now ∈ t.rows := by
  obtain ⟨t, -, -, -, -, -, id, -, -, -, rfl, rfl⟩ := createOwnership_eq_ok_iff.1 hok
  exact ⟨_, rfl, Index.mem_insert.2 (.inl rfl)⟩

/-- **An ownership that is added is found again with its reference.** -/
theorem ownership?_createOwnership {o : NewOwnership} {created : Ownership}
    (hok : s.createOwnership o = .ok (created, s')) :
    ∃ found, s'.ownership? created.id = .ok (some found) ∧ found.resource = o.resource := by
  obtain ⟨t, ht, hrow⟩ := row_mem_createOwnership hok
  obtain ⟨stamp, hload⟩ := o.load_row created.id s'.now s'.now
  exact ⟨_, ownership?_eq_some_iff.2 ⟨⟨t, ht, _, hrow, hload⟩, rfl⟩, rfl⟩

end Store

/-! ## Agreement -/

namespace ResourceRef

open Store Json

variable {kind : String} {id : Option ResourceId} {ms : List (String × Json)}

/-- What says a kind and an id has numbers of 64 bits. -/
theorem Says.fits (h : Says kind id ms) : (Json.obj ms).Fits := by
  have hid (id : Option ResourceId) : (Json.int64? id).Fits := by
    cases id <;> simp [Json.int64?, Json.Fits]
  cases h <;> simp [hid]

/-- **What the gates say of one kind and one id.** -/
structure GatesAgree (kind : String) (id : Option ResourceId) : Prop where
  /-- The reference that is rebuilt has this kind and this id, and it is rebuilt if there is one. -/
  parts : ∀ r : ResourceRef, ofParts kind id = .ok r ↔ r.kind.name = kind ∧ r.id? = id
  /-- The constraints hold of a row with this kind and this id if the reference can be rebuilt. -/
  constraints : ∀ row : OwnershipRow, row.kind = kind → row.resource = id.map .int →
    (row.isReference = true ↔ Succeeds (ofParts kind id))
  /-- Where a row about everything is let into the table, one with this kind and this id is if the
  reference can be rebuilt. -/
  insertion : ∀ (s : Store) (team role : Cell) (time : Option TextCell),
    Succeeds (s.addOwnership true team role (.text "global") .null time) →
      (Succeeds (s.addOwnership true team role (.text kind) (.ofId? id) time) ↔
        Succeeds (ofParts kind id))
  /-- An object that says this kind and this id, in any text that is read as it, is decoded as the
  reference that is rebuilt. -/
  decoded : ∀ ms, Says kind id ms → ∀ t rest, Draft.ofText t = ((Json.obj ms).draft, rest) →
    Draft.skipBlank rest = [] → ∀ r, Decode.text decode t = .ok r ↔ ofParts kind id = .ok r
  /-- Both texts that are written for the object are read as it. -/
  written : ∀ ms, Says kind id ms → ∀ layout ∈ [compact, pretty],
    Draft.ofText (layout (.obj ms)) = ((Json.obj ms).draft, [])
  /-- A row with this kind and this id whose columns can be read is one of the reference that is
  rebuilt. -/
  loaded : ∀ (row : OwnershipRow) (now : Timestamp), row.kind = kind →
    row.resource = id.map .int → row.isReadable = true →
      ∀ r, (∃ o, row.load now = .ok o ∧ o.resource = r) ↔ ofParts kind id = .ok r
  /-- What is stored for the reference has this kind and this id in its row, and it is found again
  with the reference. -/
  stored : ∀ (s s' : Store) (o : NewOwnership) (created : Ownership),
    ofParts kind id = .ok o.resource → s.createOwnership o = .ok (created, s') →
      (∃ t, s'.ownerships = some t ∧ ∃ row ∈ t.rows,
        row.id = created.id ∧ row.kind = kind ∧ row.resource = id.map .int) ∧
      ∃ found, s'.ownership? created.id = .ok (some found) ∧ found.resource = o.resource

/-- **The gates agree on every kind and every id.** -/
theorem gates_agree (kind : String) (id : Option ResourceId) : GatesAgree kind id where
  parts r := ofParts_eq_ok_iff
  constraints row hkind hid := by
    rw [OwnershipRow.isReference_iff, succeeds_ofParts_iff, hkind, hid, Option.map_eq_none_iff]
    constructor
    · rintro ⟨_, hsame, hsuits⟩
      rwa [TextCell.text.inj hsame]
    · exact fun hsuits => ⟨kind, rfl, hsuits⟩
  insertion s team role time h := by
    rw [succeeds_addOwnership_iff h, succeeds_ofParts_iff]
  decoded ms hsays t rest hread hrest r := by
    rw [Decode.text_eq hread hrest, hsays.decode_eq, mapError_eq_ok_iff]
  written ms hsays layout hlayout := (reads_layout hlayout hsays.fits).ofText_eq
  loaded row now hkind hid hreadable r :=
    OwnershipRow.load_of_isReadable hreadable hkind hid now r
  stored s s' o created hparts hok := by
    obtain ⟨rfl, rfl⟩ := ofParts_eq_ok_iff.1 hparts
    obtain ⟨t, ht, hrow⟩ := row_mem_createOwnership hok
    exact ⟨⟨t, ht, _, hrow, rfl, rfl, rfl⟩, ownership?_createOwnership hok⟩

/-- ODS 7, said with its id first, passes every gate, and no tenant without an id passes any. -/
theorem oneTenant_gates_agree :
    Succeeds (oneTenant.addOwnership true (.int 3) (.int 4) (.text "global") .null none) ∧
      Succeeds (oneTenant.addOwnership true (.int 3) (.int 4) (.text "ods") (.int 7) none) ∧
      ¬ Succeeds (oneTenant.addOwnership true (.int 3) (.int 4) (.text "tenant") .null none) ∧
      Decode.text decode (compact (.obj [("id", int64 7), ("type", .str "ods")])) = .ok (.ods 7) ∧
      ∃ created s' found, oneTenant.createOwnership ⟨3, 4, .ods 7⟩ = .ok (created, s') ∧
        s'.ownership? created.id = .ok (some found) ∧ found.resource = .ods 7 := by
  have hglobal :
      Succeeds (oneTenant.addOwnership true (.int 3) (.int 4) (.text "global") .null none) :=
    ⟨_, rfl⟩
  have hods : ofParts "ods" (some 7) = .ok (.ods 7) := rfl
  have htenant : ¬ Succeeds (ofParts "tenant" none) := fun ⟨_, h⟩ => nomatch h
  have hyes := gates_agree "ods" (some 7)
  have hno := gates_agree "tenant" none
  have hwritten := hyes.written _ (.idFirst _) compact (by simp)
  obtain ⟨-, found, hfound, hresource⟩ := hyes.stored oneTenant _ ⟨3, 4, .ods 7⟩ _ hods rfl
  exact ⟨hglobal, (hyes.insertion _ _ _ _ hglobal).2 ⟨_, hods⟩,
    fun h => htenant ((hno.insertion _ _ _ _ hglobal).1 h),
    (hyes.decoded _ (.idFirst _) _ _ hwritten rfl _).2 hods,
    _, _, found, rfl, hfound, hresource⟩

end ResourceRef

end TeamAccess
