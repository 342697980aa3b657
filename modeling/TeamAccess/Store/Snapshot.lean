import TeamAccess.Json.Decode
import TeamAccess.Store.Basic

/-!
# Snapshots — the store as a text

A snapshot is a JSON object with a member for each table that is there: its rows and, where the
store hands out the ids, the largest one handed out. Reading a snapshot gives the tables back; the
clock is not part of it.
-/

namespace TeamAccess

open Decode

/-- Bytes as a JSON value: an array of whether they are held as a text, and of the bytes. -/
def RawBytes.toJson (b : RawBytes) : Json :=
  .arr [.int64 (if b.asText then 1 else 0), .arr (b.bytes.map fun byte => .int byte.toNat)]

/-- The reader of bytes, from the two items. -/
def RawBytes.decode (kind bytes : Draft) : Except Flaw RawBytes := do
  let asText := (← int64 kind) = 1
  let bytes := (← list int64 bytes).map Int64.toUInt64 |>.map UInt64.toUInt8
  if h : decide asText = true → ¬ bytes.toByteArray.IsValidUTF8 then .ok ⟨bytes, asText, h⟩
  else .error .form

/-- The cell as a JSON value: a text or bytes. -/
def TextCell.toJson : TextCell → Json
  | text s => .str s
  | raw b => b.toJson

/-- The reader of cells with texts. -/
def TextCell.decode : Decoder TextCell
  | .arr [kind, bytes] true => .raw <$> RawBytes.decode kind bytes
  | d => .text <$> string d

/-- The cell as a JSON value: an integer, a text, an array of the bits of a double, or bytes. -/
def IntCell.toJson : IntCell → Json
  | int n => .int64 n
  | real bits => .arr [.int64 bits.toInt64]
  | text s => .str s
  | raw b => b.toJson

/-- The reader of cells with integers. -/
def IntCell.decode : Decoder IntCell
  | .str (some s) => .ok (.text s)
  | .arr [d] true => (fun bits => .real bits.toUInt64) <$> int64 d
  | .arr [kind, bytes] true => .raw <$> RawBytes.decode kind bytes
  | d => .int <$> int64 d

/-- The row as a JSON value. -/
def EnvironmentRow.toJson (r : EnvironmentRow) : Json :=
  .obj [("id", .int64 r.id), ("name", r.name.toJson), ("version", r.version.toJson)]

/-- The reader of environment rows. -/
def EnvironmentRow.decode : Decoder EnvironmentRow :=
  (EnvironmentRow.mk <$> .required "id" int64 <*> .required "name" TextCell.decode <*>
    .required "version" TextCell.decode : Record EnvironmentRow).read

/-- The row as a JSON value. -/
def TenantRow.toJson (r : TenantRow) : Json :=
  .obj [("id", .int64 r.id), ("environment", r.environment.toJson), ("name", r.name.toJson)]

/-- The reader of tenant rows. -/
def TenantRow.decode : Decoder TenantRow :=
  (TenantRow.mk <$> .required "id" int64 <*> .required "environment" IntCell.decode <*>
    .required "name" TextCell.decode : Record TenantRow).read

/-- The row as a JSON value. -/
def OdsRow.toJson (r : OdsRow) : Json :=
  .obj ([("id", .int64 r.id), ("tenant", r.tenant.toJson), ("name", r.name.toJson)] ++
    Json.member? "instance" IntCell.toJson r.instanceId)

/-- The reader of ODS rows. -/
def OdsRow.decode : Decoder OdsRow :=
  (OdsRow.mk <$> .required "id" int64 <*> .required "tenant" IntCell.decode <*>
    .required "name" TextCell.decode <*> .optional "instance" IntCell.decode :
      Record OdsRow).read

/-- The row as a JSON value. -/
def EdOrgRow.toJson (r : EdOrgRow) : Json :=
  .obj ([("id", .int64 r.id), ("ods", r.ods.toJson), ("organization", r.organization.toJson),
      ("name", r.name.toJson)] ++ Json.member? "parent" IntCell.toJson r.parent)

/-- The reader of rows of education organizations. -/
def EdOrgRow.decode : Decoder EdOrgRow :=
  (EdOrgRow.mk <$> .required "id" int64 <*> .required "ods" IntCell.decode <*>
    .required "organization" IntCell.decode <*> .required "name" TextCell.decode <*>
    .optional "parent" IntCell.decode : Record EdOrgRow).read

/-- The row as a JSON value. -/
def ClosureRow.toJson (r : ClosureRow) : Json :=
  .obj [("ancestor", r.ancestor.toJson), ("descendant", r.descendant.toJson),
    ("depth", r.depth.toJson)]

/-- The reader of closure rows. -/
def ClosureRow.decode : Decoder ClosureRow :=
  (ClosureRow.mk <$> .required "ancestor" IntCell.decode <*>
    .required "descendant" IntCell.decode <*> .required "depth" IntCell.decode :
      Record ClosureRow).read

/-- The row as a JSON value. -/
def TeamRow.toJson (r : TeamRow) : Json :=
  .obj [("id", .int64 r.id), ("name", r.name.toJson)]

/-- The reader of team rows. -/
def TeamRow.decode : Decoder TeamRow :=
  (TeamRow.mk <$> .required "id" int64 <*> .required "name" TextCell.decode : Record TeamRow).read

/-- The row as a JSON value. -/
def RoleRow.toJson (r : RoleRow) : Json :=
  .obj ([("id", .int64 r.id), ("name", r.name.toJson)] ++
    Json.member? "team" IntCell.toJson r.team)

/-- The reader of role rows. -/
def RoleRow.decode : Decoder RoleRow :=
  (RoleRow.mk <$> .required "id" int64 <*> .required "name" TextCell.decode <*>
    .optional "team" IntCell.decode : Record RoleRow).read

/-- The row as a JSON value. -/
def PrivilegeRow.toJson (r : PrivilegeRow) : Json :=
  .obj [("role", r.role.toJson), ("code", r.code.toJson)]

/-- The reader of privilege rows. -/
def PrivilegeRow.decode : Decoder PrivilegeRow :=
  (PrivilegeRow.mk <$> .required "role" IntCell.decode <*> .required "code" TextCell.decode :
    Record PrivilegeRow).read

/-- The row as a JSON value. -/
def OwnershipRow.toJson (r : OwnershipRow) : Json :=
  .obj ([("id", .int64 r.id), ("team", r.team.toJson), ("role", r.role.toJson),
      ("kind", r.kind.toJson)] ++
    Json.member? "resource" IntCell.toJson r.resource ++
    Json.member? "created_at" TextCell.toJson r.createdAt)

/-- The reader of ownership rows. -/
def OwnershipRow.decode : Decoder OwnershipRow :=
  (OwnershipRow.mk <$> .required "id" int64 <*> .required "team" IntCell.decode <*>
    .required "role" IntCell.decode <*> .required "kind" TextCell.decode <*>
    .optional "resource" IntCell.decode <*> .optional "created_at" TextCell.decode :
      Record OwnershipRow).read

section

variable {ρ κ : Type} [Ord κ] [Std.TransOrd κ] {key : ρ → κ} {number : ρ → Int64}

/-- The rows as a JSON value. -/
def Index.toJson (row : ρ → Json) (t : Index key) : Json := .arr (t.rows.map row)

/-- The reader of indexes. -/
def Index.decode (row : Decoder ρ) : Decoder (Index key) := fun d => .ofList <$> list row d

/-- The rows and the largest id handed out as a JSON value. -/
def Numbered.toJson (row : ρ → Json) (t : Numbered number) : Json :=
  .obj [("rows", t.rows.toJson row), ("last", .int64 t.last)]

/-- The reader of numbered tables. -/
def Numbered.decode (row : Decoder ρ) : Decoder (Numbered number) :=
  (Numbered.mk <$> .required "rows" (Index.decode row) <*> .required "last" int64 :
    Record (Numbered number)).read

end

namespace Store

/-- The tables as a JSON value. -/
def toJson (s : Store) : Json :=
  .obj (Json.member? "environments" (Index.toJson EnvironmentRow.toJson) s.environments ++
    Json.member? "tenants" (Index.toJson TenantRow.toJson) s.tenants ++
    Json.member? "odss" (Index.toJson OdsRow.toJson) s.odss ++
    Json.member? "edorgs" (Index.toJson EdOrgRow.toJson) s.edOrgs ++
    Json.member? "closure" (Index.toJson ClosureRow.toJson) s.closure ++
    Json.member? "teams" (Numbered.toJson TeamRow.toJson) s.teams ++
    Json.member? "roles" (Numbered.toJson RoleRow.toJson) s.roles ++
    Json.member? "privileges" (Index.toJson PrivilegeRow.toJson) s.privileges ++
    Json.member? "ownerships" (Numbered.toJson OwnershipRow.toJson) s.ownerships)

/-- The reader of tables. -/
def decode (now : Timestamp) : Decoder Store :=
  (Store.mk now <$> .optional "environments" (Index.decode EnvironmentRow.decode) <*>
    .optional "tenants" (Index.decode TenantRow.decode) <*>
    .optional "odss" (Index.decode OdsRow.decode) <*>
    .optional "edorgs" (Index.decode EdOrgRow.decode) <*>
    .optional "closure" (Index.decode ClosureRow.decode) <*>
    .optional "teams" (Numbered.decode TeamRow.decode) <*>
    .optional "roles" (Numbered.decode RoleRow.decode) <*>
    .optional "privileges" (Index.decode PrivilegeRow.decode) <*>
    .optional "ownerships" (Numbered.decode OwnershipRow.decode) : Record Store).read

/-- The snapshot. -/
def snapshot (s : Store) : String := String.ofList s.toJson.compact

/-- The store of a snapshot; an empty text is one without tables. -/
def ofSnapshot (now : Timestamp) (text : String) : Except Fault Store :=
  if text.isEmpty then .ok (blank now)
  else (Decode.text (decode now) text.toList).mapError fun _ => .storage

end Store

end TeamAccess
