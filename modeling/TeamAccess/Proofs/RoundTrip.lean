import TeamAccess.Proofs.Moments
import TeamAccess.Proofs.Records

/-!
# RoundTrip — rows read back from the text that is written for them

A row's value has integers of 64 bits only, so its text is read as the draft that says all of it
(`Json.reads_compact`, `Json.reads_prettyAt`), whether or not it is laid out in lines, and the
decoder makes the row of that draft. So nothing is lost by writing: rows that differ have different
texts, and a row that is read and written again has the same one. Only the time of an ownership has
a condition, that its year has four digits.
-/

namespace TeamAccess

/-! ## Numbers of 64 bits -/

namespace Json

@[simp] theorem fits_str (s : String) : (str s).Fits := trivial

@[simp] theorem fits_int64 (n : Int64) : (int64 n).Fits := by
  have hlow := n.le_toInt
  have hhigh := n.toInt_lt
  simp only [int64, Fits]
  omega

@[simp] theorem fits_obj {ms : List (String × Json)} : (obj ms).Fits ↔ FitsMembers ms := Iff.rfl

@[simp] theorem fitsMembers_nil : FitsMembers [] := trivial

@[simp] theorem fitsMembers_cons {k : String} {v : Json} {ms : List (String × Json)} :
    FitsMembers ((k, v) :: ms) ↔ v.Fits ∧ FitsMembers ms := Iff.rfl

@[simp] theorem fitsMembers_member? (k : String) (n : Option Int64) :
    FitsMembers (member? k int64 n) := by
  cases n <;> simp [member?]

theorem fits_arr {vs : List Json} (h : ∀ v ∈ vs, v.Fits) : (arr vs).Fits := by
  induction vs with
  | nil => trivial
  | cons v vs ih => exact ⟨h v (by simp), ih fun v' hv' => h v' (by simp [hv'])⟩

theorem fits_members {ms : List (String × Json)} (h : ∀ m ∈ ms, m.2.Fits) : (obj ms).Fits := by
  induction ms with
  | nil => trivial
  | cons m ms ih => exact ⟨h m (by simp), ih fun m' hm' => h m' (by simp [hm'])⟩

end Json

/-! ## Reading back -/

/-- Either text of the value, compact or laid out in lines, is read as the value, and what is read
has the same text when it is written again. -/
def ReadsBack {α : Type} (dec : Decoder α) (toJson : α → Json) (a : α) : Prop :=
  ∀ layout ∈ [Json.compact, Json.pretty],
    Decode.text dec (layout (toJson a)) = .ok a ∧
      (Decode.text dec (layout (toJson a))).map (fun b => layout (toJson b)) =
        .ok (layout (toJson a))

/-- A value is read back if the decoder makes it of the draft of what is written. -/
theorem ReadsBack.of_draft {α : Type} {dec : Decoder α} {toJson : α → Json} {a : α}
    (hfits : (toJson a).Fits) (ha : dec (toJson a).draft = .ok a) : ReadsBack dec toJson a := by
  intro layout hlayout
  have hread := (Decode.text_eq (Json.reads_layout hlayout hfits).ofText_eq rfl).trans ha
  exact ⟨hread, by rw [hread]; rfl⟩

/-! ## Rows -/

theorem Environment.readsBack (e : Environment) :
    ReadsBack Environment.decode Environment.toJson e :=
  .of_draft (by simp [toJson, ApiVersion.toJson]) e.decode_draft

theorem Tenant.readsBack (t : Tenant) : ReadsBack Tenant.decode Tenant.toJson t :=
  .of_draft (by simp [toJson]) t.decode_draft

theorem Ods.readsBack (o : Ods) : ReadsBack Ods.decode Ods.toJson o :=
  .of_draft (by simp [toJson]) o.decode_draft

theorem EdOrg.readsBack (x : EdOrg) : ReadsBack EdOrg.decode EdOrg.toJson x :=
  .of_draft (by simp [toJson]) x.decode_draft

theorem Team.readsBack (t : Team) : ReadsBack Team.decode Team.toJson t :=
  .of_draft (by simp [toJson]) t.decode_draft

theorem RoleScope.fits_toJson (scope : RoleScope) : scope.toJson.Fits := by
  cases scope <;> simp [toJson]

theorem RoleScope.readsBack (scope : RoleScope) :
    ReadsBack RoleScope.decode RoleScope.toJson scope :=
  .of_draft scope.fits_toJson scope.decode_draft

theorem fits_privilegesJson (ps : KeySet Privilege) : (privilegesJson ps).Fits := by
  refine Json.fits_arr fun v hv => ?_
  obtain ⟨p, -, rfl⟩ := List.mem_map.1 hv
  exact Json.fits_str p.code

theorem Role.readsBack (r : Role) : ReadsBack Role.decode Role.toJson r :=
  .of_draft (by simp [toJson, r.scope.fits_toJson, fits_privilegesJson]) r.decode_draft

theorem ResourceRef.fits_toJson (r : ResourceRef) : r.toJson.Fits := by simp [toJson]

theorem ResourceRef.readsBack (r : ResourceRef) :
    ReadsBack ResourceRef.decode ResourceRef.toJson r :=
  .of_draft r.fits_toJson r.decode_draft

theorem NewOwnership.readsBack (o : NewOwnership) :
    ReadsBack NewOwnership.decode NewOwnership.toJson o :=
  .of_draft (by simp [toJson, o.resource.fits_toJson]) o.decode_draft

theorem Ownership.readsBack (o : Ownership) (hfirst : 0 ≤ o.createdAt.civil.year)
    (hlast : o.createdAt.civil.year ≤ 9999) : ReadsBack Ownership.decode Ownership.toJson o :=
  .of_draft (by simp [toJson, o.resource.fits_toJson])
    (o.decode_draft (o.createdAt.ofText?_text hfirst hlast))

/-- **Every row is read back from the text that is written for it**: all rows of the hierarchy,
teams, roles with their scopes and privileges, what is owned, and ownerships, new ones and those
whose time is in a year of four digits. -/
theorem rows_read_back :
    (∀ e, ReadsBack Environment.decode Environment.toJson e) ∧
      (∀ t, ReadsBack Tenant.decode Tenant.toJson t) ∧
      (∀ o, ReadsBack Ods.decode Ods.toJson o) ∧
      (∀ x, ReadsBack EdOrg.decode EdOrg.toJson x) ∧
      (∀ t, ReadsBack Team.decode Team.toJson t) ∧
      (∀ scope, ReadsBack RoleScope.decode RoleScope.toJson scope) ∧
      (∀ r, ReadsBack Role.decode Role.toJson r) ∧
      (∀ r, ReadsBack ResourceRef.decode ResourceRef.toJson r) ∧
      (∀ o, ReadsBack NewOwnership.decode NewOwnership.toJson o) ∧
      ∀ o : Ownership, 0 ≤ o.createdAt.civil.year → o.createdAt.civil.year ≤ 9999 →
        ReadsBack Ownership.decode Ownership.toJson o :=
  ⟨Environment.readsBack, Tenant.readsBack, Ods.readsBack, EdOrg.readsBack, Team.readsBack,
    RoleScope.readsBack, Role.readsBack, ResourceRef.readsBack, NewOwnership.readsBack,
    Ownership.readsBack⟩

/-- An ownership made within a leap second, with the least and the greatest ids that there are. -/
def leapOwnership : Ownership :=
  ⟨Int64.minValue, 1, Int64.maxValue, .ods (-1),
    ⟨⟨2016, 12, 31, 23, 59, 59, 1000000500⟩, by decide⟩⟩

/-- Second 60 with nine digits of a fraction is read back. -/
theorem leapOwnership_reads_back :
    leapOwnership.createdAt.text = "2016-12-31T23:59:60.000000500Z" ∧
      0 ≤ leapOwnership.createdAt.civil.year ∧ leapOwnership.createdAt.civil.year ≤ 9999 ∧
      ReadsBack Ownership.decode Ownership.toJson leapOwnership := by
  obtain ⟨-, -, -, -, -, -, -, -, -, hownerships⟩ := rows_read_back
  have hfirst : 0 ≤ leapOwnership.createdAt.civil.year := by decide
  have hlast : leapOwnership.createdAt.civil.year ≤ 9999 := by decide
  exact ⟨by decide +kernel, hfirst, hlast, hownerships leapOwnership hfirst hlast⟩

end TeamAccess
