import Mathlib.Data.List.Nodup
import TeamAccess.Proofs.Drafts
import TeamAccess.Proofs.Totality
import TeamAccess.Hierarchy.Form
import TeamAccess.Team.Form

/-!
# Records — decoders of what is written

A record is decoded from members that give each field a draft which its decoder takes, in the order
of the fields, those that may be absent left out (`Record.Takes`). Such readers are put together as
records are, field by field, so each row is read back from the draft of what is written for it. A
reference is no record: its kind says what stands beside it, before or after it, and what is decoded
is the reference with these parts or nothing (`ResourceRef.Says.decode_eq`).
-/

namespace TeamAccess

open Decode

variable {α β : Type}

namespace Decode

/-! ## Records -/

namespace Record

/-- **The record is read from the members**, which are those of fields, in the order of the fields,
whatever else the object that they are looked up in has. -/
structure Takes (r : Record α) (ms : List (String × Draft)) (a : α) : Prop where
  /-- No two fields have one name. -/
  distinct : (r.slots.map Slot.name).Nodup
  named : (ms.map Prod.fst).Sublist (r.slots.map Slot.name)
  checked : ∀ m ∈ ms, ∀ slot ∈ r.slots, slot.name = m.1 → slot.check m.2 = .ok ()
  built : ∀ look, (∀ slot ∈ r.slots, look slot.name = ms.lookup slot.name) → r.build look = .ok a

@[simp] theorem slots_required (name : String) (dec : Decoder α) :
    (required name dec).slots = [⟨name, fun d => discard (dec d), false⟩] := rfl

@[simp] theorem slots_optional (name : String) (dec : Decoder α) :
    (optional name dec).slots = [⟨name, fun d => discard (option dec d), false⟩] := rfl

@[simp] theorem slots_map (f : α → β) (r : Record α) : (f <$> r).slots = r.slots := rfl

@[simp] theorem slots_seq (r : Record (α → β)) (r' : Record α) :
    (r <*> r').slots = r.slots ++ r'.slots := rfl

namespace Takes

variable {dec : Decoder α} {d : Draft} {a : α} {ms ms' : List (String × Draft)}

/-- What is decoded will do. -/
theorem discard_eq {dec : Decoder α} (h : dec d = .ok a) : discard (dec d) = .ok () := by
  rw [h]
  rfl

/-- Every member is of a field. -/
theorem exists_slot {r : Record α} (h : r.Takes ms a) {m : String × Draft} (hm : m ∈ ms) :
    ∃ slot ∈ r.slots, slot.name = m.1 := by
  have hmem : m.1 ∈ r.slots.map Slot.name :=
    h.named.subset (List.mem_map_of_mem hm)
  simpa using hmem

/-- Nothing is there under a name that no field has. -/
theorem lookup_eq_none {r : Record α} (h : r.Takes ms a) {k : String}
    (hk : ∀ slot ∈ r.slots, slot.name ≠ k) : ms.lookup k = none := by
  rw [List.lookup_eq_none_iff]
  intro m hm
  obtain ⟨slot, hslot, hname⟩ := h.exists_slot hm
  have hne : k ≠ m.1 := fun heq => hk slot hslot (hname.trans heq.symm)
  simpa using hne

theorem required (name : String) (h : dec d = .ok a) : (required name dec).Takes [(name, d)] a where
  distinct := by simp
  named := by simp
  checked := by simp [discard_eq h]
  built look hlook := by
    have hname : look name = some d := by simpa using hlook
    simp [Record.required, hname, h]

/-- A field that may be absent is left out where there is no value. -/
theorem optional (name : String) {dec : Decoder β} {toJson : β → Json}
    (h : ∀ b, option dec (toJson b).draft = .ok (some b)) (x : Option β) :
    (Record.optional name dec).Takes
      ((Json.member? name toJson x).map fun m => (m.1, m.2.draft)) x where
  distinct := by simp
  named := by cases x <;> simp [Json.member?]
  checked := by cases x <;> simp [Json.member?, Record.optional, discard_eq (h _)]
  built look hlook := by
    have hname := hlook _ (List.mem_singleton_self _)
    cases x with
    | none => simp [Record.optional, hname, Json.member?]
    | some b => simp [Record.optional, hname, Json.member?, h]

theorem map (f : α → β) {r : Record α} (h : r.Takes ms a) : (f <$> r).Takes ms (f a) where
  distinct := h.distinct
  named := h.named
  checked := h.checked
  built look hlook := by
    have hbuild := h.built look hlook
    simp [Functor.map, hbuild, Except.map]

/-- **Fields of other names are added** after those that there are. -/
theorem seq {r : Record (α → β)} {r' : Record α} {f : α → β} (h : r.Takes ms f)
    (h' : r'.Takes ms' a) (hother : ∀ slot ∈ r.slots, ∀ slot' ∈ r'.slots, slot.name ≠ slot'.name) :
    (r <*> r').Takes (ms ++ ms') (f a) where
  distinct := by
    rw [slots_seq, List.map_append]
    refine List.nodup_append.2 ⟨h.distinct, h'.distinct, ?_⟩
    simpa using hother
  named := by
    rw [slots_seq, List.map_append, List.map_append]
    exact h.named.append h'.named
  checked := by
    intro m hm slot hslot hname
    rcases List.mem_append.1 hm with hm | hm
    · rcases List.mem_append.1 hslot with hslot | hslot
      · exact h.checked m hm slot hslot hname
      · obtain ⟨field, hfield, hsame⟩ := h.exists_slot hm
        exact absurd (hsame.trans hname.symm) (hother field hfield slot hslot)
    · rcases List.mem_append.1 hslot with hslot | hslot
      · obtain ⟨field, hfield, hsame⟩ := h'.exists_slot hm
        exact absurd (hname.trans hsame.symm) (hother slot hslot field hfield)
      · exact h'.checked m hm slot hslot hname
  built look hlook := by
    -- Neither reader looks up what is there for the other.
    have hf : r.build look = .ok f := by
      refine h.built look fun slot hslot => ?_
      have hnone : ms'.lookup slot.name = none :=
        h'.lookup_eq_none fun field hfield => (hother slot hslot field hfield).symm
      rw [hlook slot (List.mem_append_left _ hslot), List.lookup_append, hnone, Option.or_none]
    have ha : r'.build look = .ok a := by
      refine h'.built look fun slot hslot => ?_
      have hnone : ms.lookup slot.name = none :=
        h.lookup_eq_none fun field hfield => hother field hfield slot hslot
      rw [hlook slot (List.mem_append_right _ hslot), List.lookup_append, hnone, Option.none_or]
    have hbuild : (r <*> r').build look = r.build look <*> r'.build look := rfl
    rw [hbuild, hf, ha]
    rfl

/-- A field of another name is added after those that there are. -/
theorem field {r : Record (α → β)} {f : α → β} (h : r.Takes ms f) (name : String)
    (hdec : dec d = .ok a) (hnew : ∀ slot ∈ r.slots, slot.name ≠ name) :
    (r <*> .required name dec).Takes (ms ++ [(name, d)]) (f a) :=
  h.seq (.required name hdec) (by simpa using hnew)

/-- Members that are read one after the other are all found. -/
theorem walk_eq {slots : List Slot} {found : List (String × Draft)}
    (hdistinct : (slots.map Slot.name).Nodup)
    (hnames : (found.map Prod.fst ++ ms.map Prod.fst).Nodup)
    (hslots : ∀ m ∈ ms, ∃ slot ∈ slots, slot.name = m.1 ∧ slot.check m.2 = .ok ()) :
    walk slots found (ms.map fun m => (some m.1, m.2)) true = .ok (found ++ ms) := by
  induction ms generalizing found with
  | nil => simp [walk]
  | cons m ms ih =>
    obtain ⟨slot, hslot, hname, hcheck⟩ := hslots m List.mem_cons_self
    have hfind : slots.find? (fun field => decide (field.name = m.1)) = some slot := by
      cases hfound : slots.find? (fun field => decide (field.name = m.1)) with
      | none =>
        have hnone := List.find?_eq_none.1 hfound slot hslot
        simp [hname] at hnone
      | some field =>
        have hfield : field.name = m.1 := by simpa using List.find?_some hfound
        exact congrArg some (List.inj_on_of_nodup_map hdistinct (List.mem_of_find?_eq_some hfound)
          hslot (hfield.trans hname.symm))
    have hnew : found.any (fun p => decide (p.1 = m.1)) = false := by
      have hdisjoint := (List.nodup_append.1 hnames).2.2
      rw [List.any_eq_false]
      intro p hp hsame
      exact hdisjoint p.1 (List.mem_map_of_mem hp) m.1 (by simp) (by simpa using hsame)
    have hrest : walk slots (found ++ [m]) (ms.map fun m => (some m.1, m.2)) true =
        .ok (found ++ m :: ms) := by
      rw [List.append_cons found m ms]
      exact ih (by simpa using hnames) fun m' hm' => hslots m' (List.mem_cons_of_mem _ hm')
    rw [List.map_cons, walk, hfind]
    dsimp only
    rw [hnew, hcheck]
    exact hrest

/-- **The record is decoded from an object of the members.** -/
theorem read_eq {r : Record α} (h : r.Takes ms a) :
    r.read (.obj (ms.map fun m => (some m.1, m.2)) true) = .ok a := by
  have hwalk : walk r.slots [] (ms.map fun m => (some m.1, m.2)) true = .ok ms := by
    refine walk_eq h.distinct (h.named.nodup h.distinct) fun m hm => ?_
    obtain ⟨slot, hslot, hname⟩ := h.exists_slot hm
    exact ⟨slot, hslot, hname, h.checked m hm slot hslot hname⟩
  have hbuild := h.built (fun k => ms.lookup k) fun _ _ => rfl
  rw [read, hwalk]
  exact hbuild

end Takes

end Record

/-! ## Tagged values -/

section Tagged

variable {tag content name : String} {ofName? : String → Option β} {body : β → Decoder α}
variable {bare : β → Option α} {d : Draft}

/-- A name alone is decoded as the variant that it names, if that needs no value. -/
theorem tagged_name :
    tagged tag content ofName? body bare (.obj [(some tag, .str (some name))] true) =
    (ofName? name).elim (.error .form) fun b => (bare b).elim (.error .form) .ok := by
  cases hname : ofName? name <;> simp [tagged, relevant, enum, hname, bind, Except.bind]

/-- A name and a value beside it are decoded as the variant that it names decodes the value. -/
theorem tagged_name_value (hne : tag ≠ content) : tagged tag content ofName? body bare
    (.obj [(some tag, .str (some name)), (some content, d)] true) =
    (ofName? name).elim (.error .form) fun b => body b d := by
  cases hname : ofName? name with
  | none => simp [tagged, relevant, enum, hname, bind, Except.bind]
  | some b =>
    cases hbody : body b d <;>
      simp [tagged, relevant, unrepeated, enum, hname, hne.symm, hbody, bind, Except.bind]

/-- It is all the same if the value comes first, as long as it can be held until then. -/
theorem tagged_value_name (hne : tag ≠ content) (hd : d.holdable heldDepth = true) :
    tagged tag content ofName? body bare
      (.obj [(some content, d), (some tag, .str (some name))] true) =
    (ofName? name).elim (.error .form) fun b => body b d := by
  cases hname : ofName? name with
  | none => simp [tagged, relevant, enum, hname, hne.symm, hd, bind, Except.bind]
  | some b =>
    cases hbody : body b d <;>
      simp [tagged, relevant, unrepeated, enum, hname, hne.symm, hd, hbody, bind, Except.bind]

end Tagged

end Decode

/-! ## Members -/

namespace Json

theorem draftMembers_eq (ms : List (String × Json)) :
    draftMembers ms = ms.map fun m => (some m.1, m.2.draft) := by
  induction ms with
  | nil => rfl
  | cons m ms ih => rw [draftMembers, ih, List.map_cons]

theorem draftItems_eq (vs : List Json) : draftItems vs = vs.map draft := by
  induction vs with
  | nil => rfl
  | cons v vs ih => rw [draftItems, ih, List.map_cons]

end Json

/-- **A record is decoded from the object that is written for it**, if its members are such as the
reader of the record takes. -/
theorem Decode.Record.Takes.decode_eq {r : Record α} {ms : List (String × Json)} {a : α}
    (h : r.Takes (ms.map fun m => (m.1, m.2.draft)) a) : r.read (Json.obj ms).draft = .ok a := by
  have hread := h.read_eq
  rw [List.map_map] at hread
  rw [Json.draft, Json.draftMembers_eq]
  exact hread

open Decode.Record (Takes)

/-- A 64-bit integer is decoded from its number. -/
theorem Decode.int64_draft (n : Int64) : int64 (Json.int64 n).draft = .ok n := by
  have hle := n.le_toInt
  have hlt := n.toInt_lt
  have hn : Decimal.int64? n.toInt = some n := by
    rw [Decimal.int64?, if_pos (by omega), Int64.ofInt_toInt]
  simp [Json.int64, Json.draft, int64, hn]

theorem Decode.map_int64_draft (f : Int64 → α) (n : Int64) :
    f <$> int64 (Json.int64 n).draft = .ok (f n) := by
  rw [int64_draft]
  rfl

theorem Decode.option_int64_draft (n : Int64) :
    option int64 (Json.int64 n).draft = .ok (some n) := by
  have hn := int64_draft n
  simp only [Json.int64, Json.draft] at hn ⊢
  simp [option, hn]

theorem Decode.string_draft (s : String) : string (Json.str s).draft = .ok s := rfl

/-- A name is decoded if it is known. -/
theorem Decode.named_draft {ofName? : String → Option α} {s : String} {a : α}
    (h : ofName? s = some a) : named ofName? (Json.str s).draft = .ok a := by
  simp [named, Json.draft, string, h, bind, Except.bind]

/-- A list is decoded item by item. -/
theorem Decode.list_draft {dec : Decoder α} {toJson : α → Json}
    (h : ∀ a, dec (toJson a).draft = .ok a) (as : List α) :
    list dec (Json.arr (as.map toJson)).draft = .ok as := by
  have hitems : ((as.map toJson).map Json.draft).mapM dec = .ok as := by
    rw [mapM_eq_ok_iff, List.forall₂_map_left_iff, List.forall₂_map_left_iff, List.forall₂_same]
    exact fun a _ => h a
  rw [Json.draft, Json.draftItems_eq, list, hitems]
  rfl

/-! ## Rows of the hierarchy, teams, roles and ownerships -/

theorem ApiVersion.decode_draft (v : ApiVersion) : ApiVersion.decode v.toJson.draft = .ok v := by
  cases v <;> rfl

/-- A version has the same name in JSON as in rows. -/
theorem ApiVersion.tag_eq_name (v : ApiVersion) : v.tag = v.name := by
  cases v <;> rfl

/-- **The names of versions in JSON are those in rows**, and each is that of the same version. -/
theorem ApiVersion.ofTag?_eq_ofName? (s : String) : ofTag? s = ofName? s := by
  refine Option.ext fun v => ?_
  rw [ofName?_eq_some_iff, ← tag_eq_name]
  constructor
  · intro h
    have hfound := List.find?_some h
    exact (of_decide_eq_true hfound).symm
  · rintro rfl
    cases v <;> rfl

theorem Environment.decode_draft (e : Environment) :
    Environment.decode e.toJson.draft = .ok e := by
  have hid := (Takes.required "id" (int64_draft e.id)).map Environment.mk
  have hname := hid.field "name" (string_draft e.name) (by simp)
  have hall := hname.field "version" (ApiVersion.decode_draft e.version) (by simp)
  exact hall.decode_eq

theorem Tenant.decode_draft (t : Tenant) : Tenant.decode t.toJson.draft = .ok t := by
  have hid := (Takes.required "id" (int64_draft t.id)).map Tenant.mk
  have henvironment := hid.field "environment_id" (int64_draft t.environment) (by simp)
  have hall := henvironment.field "name" (string_draft t.name) (by simp)
  exact hall.decode_eq

theorem Ods.decode_draft (o : Ods) : Ods.decode o.toJson.draft = .ok o := by
  have hid := (Takes.required "id" (int64_draft o.id)).map Ods.mk
  have htenant := hid.field "tenant_id" (int64_draft o.tenant) (by simp)
  have hname := htenant.field "name" (string_draft o.name) (by simp)
  have hall := hname.seq (.optional "ods_instance_id" option_int64_draft o.instanceId) (by simp)
  exact hall.decode_eq

theorem EdOrg.decode_draft (x : EdOrg) : EdOrg.decode x.toJson.draft = .ok x := by
  have hid := (Takes.required "id" (int64_draft x.id)).map EdOrg.mk
  have hods := hid.field "ods_id" (int64_draft x.ods) (by simp)
  have horganization :=
    hods.field "education_organization_id" (int64_draft x.organization) (by simp)
  have hname := horganization.field "name" (string_draft x.name) (by simp)
  have hall := hname.seq (.optional "parent_id" option_int64_draft x.parent) (by simp)
  exact hall.decode_eq

theorem Team.decode_draft (t : Team) : Team.decode t.toJson.draft = .ok t := by
  have hid := (Takes.required "id" (int64_draft t.id)).map Team.mk
  have hall := hid.field "name" (string_draft t.name) (by simp)
  exact hall.decode_eq

theorem RoleScope.decode_draft (scope : RoleScope) :
    RoleScope.decode scope.toJson.draft = .ok scope := by
  cases scope with
  | global => exact tagged_name
  | team id =>
    have hne : "kind" ≠ "team_id" := by decide
    have hid : decodeTeam true (Json.int64 id).draft = .ok (team id) := map_int64_draft team id
    have hname : ofTeam "team" = some true := by decide
    refine (tagged_name_value hne).trans ?_
    rw [hname]
    exact hid

theorem Privilege.decode_draft (p : Privilege) : Privilege.decode p.toJson.draft = .ok p :=
  named_draft (ofCode?_code p)

/-- A set of privileges is decoded from its members, in whatever order they come. -/
theorem decodePrivileges_draft (ps : KeySet Privilege) :
    decodePrivileges (privilegesJson ps).draft = .ok ps := by
  have hset : (Index.ofList ps.rows : KeySet Privilege) = ps :=
    Index.ext_mem fun p => by rw [KeySet.mem_ofList, Index.mem_def]
  rw [decodePrivileges, privilegesJson, list_draft Privilege.decode_draft]
  exact congrArg Except.ok hset

theorem Role.decode_draft (r : Role) : Role.decode r.toJson.draft = .ok r := by
  have hid := (Takes.required "id" (int64_draft r.id)).map Role.mk
  have hname := hid.field "name" (string_draft r.name) (by simp)
  have hscope := hname.field "scope" (RoleScope.decode_draft r.scope) (by simp)
  have hall := hscope.field "privileges" (decodePrivileges_draft r.privileges) (by simp)
  exact hall.decode_eq

theorem ResourceKind.ofName?_name (kind : ResourceKind) : ofName? kind.name = some kind := by
  cases kind <;> rfl

/-- A kind is found by its name and by no other. -/
theorem ResourceKind.ofName?_eq_some_iff {s : String} {kind : ResourceKind} :
    ofName? s = some kind ↔ kind.name = s := by
  constructor
  · fun_cases ofName? s <;> rintro ⟨⟩ <;> rfl
  · rintro rfl
    exact ofName?_name kind

/-- A kind has the same name in JSON as in rows. -/
theorem ResourceKind.tag_eq_name (kind : ResourceKind) : kind.tag = kind.name := by
  cases kind <;> rfl

/-- **The names of kinds in JSON are those in rows**, and each is that of the same kind. -/
theorem ResourceKind.ofTag?_eq_ofName? (s : String) : ofTag? s = ofName? s := by
  refine Option.ext fun kind => ?_
  rw [ofName?_eq_some_iff, ← tag_eq_name]
  constructor
  · intro h
    have hfound := List.find?_some h
    exact of_decide_eq_true hfound
  · rintro rfl
    cases kind <;> rfl

namespace ResourceRef

variable {kind : String} {id : Option ResourceId} {ms : List (String × Json)}

/-- **The members of an object that says a kind and an id**, in either order. A missing id is said
by null or by saying nothing. -/
inductive Says (kind : String) : Option ResourceId → List (String × Json) → Prop
  | bare : Says kind none [("type", .str kind)]
  | kindFirst (id : Option ResourceId) : Says kind id [("type", .str kind), ("id", .int64? id)]
  | idFirst (id : Option ResourceId) : Says kind id [("id", .int64? id), ("type", .str kind)]

/-- What stands beside a known kind is decoded as the reference that has it as its id. -/
theorem decodeId_int64? (k : ResourceKind) (id : Option ResourceId) :
    decodeId k (Json.int64? id).draft = (ofParts k.name id).mapError fun _ => .form := by
  cases id with
  | none => cases k <;> rfl
  | some n =>
    cases k with
    | global => rfl
    | environment => exact Decode.map_int64_draft environment n
    | tenant => exact Decode.map_int64_draft tenant n
    | ods => exact Decode.map_int64_draft ods n
    | edOrg => exact Decode.map_int64_draft edOrg n

/-- A kind by its name and an id are decoded as the reference with these parts. -/
theorem decodeId_ofTag? (kind : String) (id : Option ResourceId) :
    ((ResourceKind.ofTag? kind).elim (.error .form) fun k => decodeId k (Json.int64? id).draft) =
      (ofParts kind id).mapError fun _ => .form := by
  rw [ResourceKind.ofTag?_eq_ofName?]
  cases hkind : ResourceKind.ofName? kind with
  | none =>
    rw [ofParts, hkind]
    rfl
  | some k =>
    obtain rfl := ResourceKind.ofName?_eq_some_iff.1 hkind
    exact decodeId_int64? k id

/-- **What says a kind and an id is decoded as the reference with these parts**, and not decoded if
there is none. -/
theorem Says.decode_eq (h : Says kind id ms) :
    decode (Json.obj ms).draft = (ofParts kind id).mapError fun _ => .form := by
  have hne : "type" ≠ "id" := by decide
  cases h with
  | bare =>
    have hbare (k : ResourceKind) :
        (bare? k).elim (.error .form) .ok = decodeId k (Json.int64? none).draft := by
      cases k <;> rfl
    rw [← decodeId_ofTag?, ← funext hbare]
    exact Decode.tagged_name
  | kindFirst id => exact (Decode.tagged_name_value hne).trans (decodeId_ofTag? kind id)
  | idFirst id =>
    -- An id that comes first is held until the kind is known; it nests no deeper than that allows.
    have hheld : (Json.int64? id).draft.holdable Decode.heldDepth = true := by
      cases id <;> rfl
    exact (Decode.tagged_value_name hne hheld).trans (decodeId_ofTag? kind id)

/-- What is written for a reference says its kind and its id. -/
theorem says_toJson (r : ResourceRef) :
    Says r.kind.name r.id? (("type", .str r.kind.tag) :: Json.member? "id" .int64 r.id?) := by
  rw [ResourceKind.tag_eq_name]
  cases r with
  | global => exact .bare
  | environment n | tenant n | ods n | edOrg n => exact .kindFirst (some n)

theorem decode_draft (r : ResourceRef) : decode r.toJson.draft = .ok r := by
  rw [toJson, r.says_toJson.decode_eq, ofParts_kind]
  rfl

end ResourceRef

theorem NewOwnership.decode_draft (o : NewOwnership) :
    NewOwnership.decode o.toJson.draft = .ok o := by
  have hteam := (Takes.required "team_id" (int64_draft o.team)).map NewOwnership.mk
  have hrole := hteam.field "role_id" (int64_draft o.role) (by simp)
  have hall := hrole.field "resource" (ResourceRef.decode_draft o.resource) (by simp)
  exact hall.decode_eq

/-- An ownership is decoded if its time is read back. -/
theorem Ownership.decode_draft (o : Ownership)
    (htime : Timestamp.ofText? o.createdAt.text = some o.createdAt) :
    Ownership.decode o.toJson.draft = .ok o := by
  have hstamp : Timestamp.decode (Json.str o.createdAt.text).draft = .ok o.createdAt :=
    named_draft htime
  have hid := (Takes.required "id" (int64_draft o.id)).map Ownership.mk
  have hteam := hid.field "team_id" (int64_draft o.team) (by simp)
  have hrole := hteam.field "role_id" (int64_draft o.role) (by simp)
  have hresource := hrole.field "resource" (ResourceRef.decode_draft o.resource) (by simp)
  have hall := hresource.field "created_at" hstamp (by simp)
  exact hall.decode_eq

end TeamAccess
