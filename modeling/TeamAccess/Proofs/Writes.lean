import TeamAccess.Proofs.Fallible
import TeamAccess.Index.Lemmas
import TeamAccess.Store.Closure
import TeamAccess.Store.Hierarchy
import TeamAccess.Store.Ownerships
import TeamAccess.Store.Teams

/-!
# What a write does

One lemma for each write of the store: when it succeeds, and with what store. A write that fails has
no store after it, so these say everything about the change that a write can make.
-/

namespace TeamAccess

/-! ## Ids that are handed out -/

namespace Numbered

variable {ρ : Type} {key : ρ → Int64} {t : Numbered key}

/-- The larger of two ids is above both. -/
theorem le_larger (a b : Int64) : a.toInt ≤ (larger a b).toInt ∧ b.toInt ≤ (larger a b).toInt := by
  unfold larger
  split
  · rename_i hlt
    rw [Int64.lt_iff_toInt_lt] at hlt
    omega
  · rename_i hlt
    rw [Int64.lt_iff_toInt_lt] at hlt
    omega

/-- The largest id is above the one it was compared from and above every row's. -/
theorem le_foldl_larger (rows : List ρ) (m : Int64) :
    m.toInt ≤ (rows.foldl (fun m r => larger m (key r)) m).toInt ∧
      ∀ r ∈ rows, (key r).toInt ≤ (rows.foldl (fun m r => larger m (key r)) m).toInt := by
  -- From any id to start with, as each row raises the one that the rest is compared with.
  induction rows generalizing m with
  | nil => simp
  | cons r rows ih =>
    obtain ⟨hm, hrows⟩ := ih (larger m (key r))
    have hlarger := le_larger m (key r)
    refine ⟨by rw [List.foldl_cons]; omega, fun r' hr' => ?_⟩
    rcases List.mem_cons.1 hr' with rfl | hr'
    · rw [List.foldl_cons]
      omega
    · exact hrows r' hr'

/-- An id that is handed out is above those handed out before, and above every row's. -/
theorem lt_of_next? {id : Int64} (h : t.next? = some id) :
    t.last < id ∧ ∀ r ∈ t.rows, key r < id := by
  obtain ⟨hlast, hrows⟩ := @le_foldl_larger _ key t.rows.rows t.last
  unfold next? at h
  generalize t.rows.rows.foldl (fun m r => larger m (key r)) t.last = top at h hlast hrows
  dsimp only at h
  split at h
  · cases h
  · rename_i hmax
    cases h
    -- The largest id so far is not the last that there is, so the next does not wrap around.
    have hlt : top.toInt < 2 ^ 63 - 1 := by
      have hle := top.toInt_lt
      have hne : top.toInt ≠ 2 ^ 63 - 1 := fun he =>
        hmax (Int64.toInt_inj.1 (he.trans Int64.toInt_maxValue.symm))
      omega
    have hsucc : (top + 1).toInt = top.toInt + 1 := by
      have hge := top.le_toInt
      rw [Int64.toInt_add, Int64.toInt_one, Int.bmod_eq_of_le (by omega) (by omega)]
    simp only [Int64.lt_iff_toInt_lt, hsucc]
    refine ⟨by omega, fun r hr => ?_⟩
    have habove := hrows r hr
    omega

/-- **An id that is handed out is new.** -/
theorem ne_of_next? {id : Int64} (h : t.next? = some id) {r : ρ} (hr : r ∈ t.rows) :
    key r ≠ id :=
  Int64.ne_of_lt ((lt_of_next? h).2 r hr)

end Numbered

namespace Store

variable {s s' : Store}

/-! ## Hierarchy -/

/-- An environment is added under an id that is free. -/
theorem createEnvironment_eq_ok_iff {e : Environment} :
    s.createEnvironment e = .ok s' ↔ ∃ t, s.environments = some t ∧ t.hasKey e.id = false ∧
      { s with environments := some (t.insert e.row) } = s' := by
  simp [createEnvironment, insertEnvironment, bind_eq_ok_iff]

/-- A tenant is added under an id that is free, with a name that its environment lacks, to an
environment that is stored. -/
theorem createTenant_eq_ok_iff {u : Tenant} :
    s.createTenant u = .ok s' ↔ ∃ t, s.tenants = some t ∧ ∃ es, s.environments = some es ∧
      t.hasKey u.id = false ∧
      (∀ r ∈ t.rows, r.environment.equals u.environment = true → r.name ≠ .text u.name) ∧
      es.hasKey u.environment = true ∧ { s with tenants := some (t.insert u.row) } = s' := by
  simp [createTenant, insertTenant, bind_eq_ok_iff]

/-- An ODS is added under an id that is free, to a tenant that is stored. -/
theorem createOds_eq_ok_iff {o : Ods} :
    s.createOds o = .ok s' ↔ ∃ t, s.odss = some t ∧ ∃ us, s.tenants = some us ∧
      t.hasKey o.id = false ∧ us.hasKey o.tenant = true ∧
      { s with odss := some (t.insert o.row) } = s' := by
  simp [createOds, insertOds, bind_eq_ok_iff]

/-- An organization is added under an id that is free, as an organization that its ODS lacks, to an
ODS that is stored, below itself or a parent that is stored. -/
theorem createEdOrg_eq_ok_iff {x : EdOrg} :
    s.createEdOrg x = .ok s' ↔ ∃ t, s.edOrgs = some t ∧ ∃ os, s.odss = some os ∧
      t.hasKey x.id = false ∧
      (∀ r ∈ t.rows, r.ods.equals x.ods = true → r.organization.equals x.organization = false) ∧
      os.hasKey x.ods = true ∧ (∀ p, x.parent = some p → p = x.id ∨ t.hasKey p = true) ∧
      { s with edOrgs := some (t.insert x.row) } = s' := by
  cases hp : x.parent <;> simp [createEdOrg, insertEdOrg, bind_eq_ok_iff, hp]

/-- The closure with the rows of the organizations of an ODS computed anew. -/
def rebuiltClosure (edOrgs : Index EdOrgRow.id) (closure : Index ClosureRow.ends)
    (ods : ResourceId) : Index ClosureRow.ends :=
  ((membersOf edOrgs ods).map (closureRows edOrgs)).foldl Index.union
    (closure.filter fun r => !r.descendant.isOneOf (membersOf edOrgs ods))

/-- A closure is cleared if its table and that of the organizations are there. -/
theorem clearClosure_eq_ok_iff {ods : ResourceId} :
    s.clearClosure ods = .ok s' ↔ ∃ c, s.closure = some c ∧ ∃ t, s.edOrgs = some t ∧
      { s with closure := some (c.filter fun r => !r.descendant.isOneOf (membersOf t ods)) } =
        s' := by
  simp [clearClosure, bind_eq_ok_iff]

/-- A closure is filled if the ancestors of the organizations of the ODS are all stored. -/
theorem fillClosure_eq_ok_iff {ods : ResourceId} :
    s.fillClosure ods = .ok s' ↔ ∃ t, s.edOrgs = some t ∧ ∃ c, s.closure = some c ∧
      (∀ id ∈ membersOf t ods, ∀ r ∈ (closureRows t id).rows, refersTo r.ancestor t = true) ∧
      { s with
        closure := some (((membersOf t ods).map (closureRows t)).foldl Index.union c) } = s' := by
  simp only [fillClosure, bind_eq_ok_iff, need_eq_ok_iff]
  refine exists_congr fun t => and_congr_right fun _ => exists_congr fun c =>
    and_congr_right fun _ => ?_
  split
  · rename_i hall
    rw [pure_eq_ok_iff]
    exact (and_iff_right (by simpa using hall)).symm
  · rename_i hall
    simp only [reduceCtorEq, false_iff, not_and]
    exact fun hstored => absurd (by simpa using hstored) hall

/-- A rebuild clears the closure and fills it. -/
theorem rebuildClosure_eq (s : Store) (ods : ResourceId) :
    s.rebuildClosure ods = s.clearClosure ods >>= fun s₁ => s₁.fillClosure ods := by
  rw [rebuildClosure, rebuildingClosure, Statements.written_transaction, Statements.written_bind,
    Statements.written_change]
  cases s.clearClosure ods with
  | error _ => rfl
  | ok s₁ =>
    simp only [Except.map, bind, Except.bind, Statements.written_change]
    cases s₁.fillClosure ods <;> rfl

/-- **A closure is rebuilt if the ancestors of the organizations of the ODS are all stored.** -/
theorem rebuildClosure_eq_ok_iff {ods : ResourceId} :
    s.rebuildClosure ods = .ok s' ↔ ∃ t, s.edOrgs = some t ∧ ∃ c, s.closure = some c ∧
      (∀ id ∈ membersOf t ods, ∀ r ∈ (closureRows t id).rows, refersTo r.ancestor t = true) ∧
      { s with closure := some (rebuiltClosure t c ods) } = s' := by
  simp only [rebuildClosure_eq, bind_eq_ok_iff, clearClosure_eq_ok_iff, fillClosure_eq_ok_iff]
  constructor
  · rintro ⟨_, ⟨c, hc, t, ht, rfl⟩, t', ht', c', hc', hstored, rfl⟩
    obtain rfl := Option.some.inj (ht.symm.trans ht')
    obtain rfl := Option.some.inj hc'
    exact ⟨t, ht, c, hc, hstored, rfl⟩
  · rintro ⟨t, ht, c, hc, hstored, rfl⟩
    exact ⟨_, ⟨c, hc, t, ht, rfl⟩, t, ht, _, rfl, hstored, rfl⟩

/-- A rebuild that fails is a failure of the storage. -/
theorem rebuildClosure_fault {ods : ResourceId} {fault : Fault}
    (h : s.rebuildClosure ods = .error fault) : fault = .storage := by
  have hneed {α : Type} (a : Option α) : FailsOnly (need a) (· = .storage) :=
    failsOnly_need (P := (· = .storage)) rfl a
  rw [rebuildClosure_eq] at h
  refine FailsOnly.bind (P := (· = .storage)) ?_ (fun s₁ _ => ?_) fault h
  · exact .bind (hneed _) fun _ _ => .bind (hneed _) fun _ _ => .ok _
  · refine .bind (hneed _) fun t _ => .bind (hneed _) fun c _ => ?_
    dsimp only
    split
    · exact .ok _
    · exact .error rfl

/-- A rebuild that fails leaves the store as it was. -/
theorem run_rebuildingClosure_of_error {ods : ResourceId} {fault : Fault}
    (h : s.rebuildClosure ods = .error fault) :
    (rebuildingClosure ods).run s = (.error fault, s) := by
  refine (atomic_rebuildingClosure ods).run_of_error ?_
  rw [rebuildClosure] at h
  cases hwritten : (rebuildingClosure ods).written s with
  | error e =>
    rw [hwritten] at h
    exact congrArg _ (Except.error.inj h)
  | ok _ =>
    rw [hwritten] at h
    cases h

/-- A row of a rebuilt closure was there before or is of an organization of the ODS. -/
theorem mem_of_mem_rebuiltClosure {t : Index EdOrgRow.id} {c : Index ClosureRow.ends}
    {ods : ResourceId} {r : ClosureRow} (h : r ∈ rebuiltClosure t c ods) :
    r ∈ c ∨ ∃ d ∈ membersOf t ods, r ∈ closureRows t d := by
  rcases Index.mem_of_mem_foldl_union h with h | ⟨_, hrows, h⟩
  · exact .inl (Index.mem_filter.1 h).1
  · obtain ⟨d, hd, rfl⟩ := List.mem_map.1 hrows
    exact .inr ⟨d, hd, h⟩

/-! ## Teams and roles -/

/-- A team is added under a new id, with a name that no team has. -/
theorem createTeam_eq_ok_iff {name : String} {team : Team} :
    s.createTeam name = .ok (team, s') ↔ ∃ t, s.teams = some t ∧ ∃ id, t.next? = some id ∧
      (∀ u ∈ t.rows.rows, u.name ≠ .text name) ∧ ⟨id, name⟩ = team ∧
      { s with teams := some (t.push ⟨id, .text name⟩) } = s' := by
  simp [createTeam, insertTeam, bind_eq_ok_iff, Team.row]

/-- The rows of privileges with those of a new role. -/
def withPrivileges (t : Index PrivilegeRow.key) (id : RoleId) (ps : KeySet Privilege) :
    Index PrivilegeRow.key :=
  ps.rows.foldl (fun rows p => rows.insert ⟨.int id, .text p.code⟩) t

/-- The privileges of a new role, told as rows that are inserted from the last one on. -/
theorem withPrivileges_eq_foldr (t : Index PrivilegeRow.key) (id : RoleId)
    (ps : KeySet Privilege) :
    withPrivileges t id ps =
      (ps.rows.reverse.map fun p => (⟨.int id, .text p.code⟩ : PrivilegeRow)).foldr
        (fun r rows => rows.insert r) t := by
  rw [withPrivileges, List.foldr_map, List.foldr_reverse]

/-- A privilege row was there before, or it is one of the new role's. -/
theorem mem_of_mem_withPrivileges {t : Index PrivilegeRow.key} {id : RoleId} {ps : KeySet Privilege}
    {r : PrivilegeRow} (h : r ∈ withPrivileges t id ps) :
    r ∈ t ∨ ∃ p, p ∈ ps ∧ r = ⟨.int id, .text p.code⟩ := by
  rw [withPrivileges_eq_foldr] at h
  rcases Index.mem_of_mem_foldr_union (f := Index.single) h with h | ⟨r', hr', h⟩
  · exact .inl h
  · obtain ⟨p, hp, rfl⟩ := List.mem_map.1 hr'
    exact .inr ⟨p, List.mem_reverse.1 hp, Index.mem_single.1 h⟩

/-- The privilege rows of other roles are as they were. -/
theorem mem_withPrivileges_iff {t : Index PrivilegeRow.key} {id n : RoleId} {ps : KeySet Privilege}
    {r : PrivilegeRow} (hr : r.role.equals n = true) (hne : n ≠ id) :
    r ∈ withPrivileges t id ps ↔ r ∈ t := by
  rw [withPrivileges_eq_foldr]
  refine Index.mem_foldr_insert_of_ne fun r' hr' hkey => ?_
  obtain ⟨p, -, rfl⟩ := List.mem_map.1 hr'
  have hnumber : r.role.number = .int id := congrArg Prod.fst hkey
  rw [IntCell.equals, hnumber, decide_eq_true_eq, IntCell.int.injEq] at hr
  exact hne hr.symm

/-- Privileges are inserted one after the other. -/
theorem written_insertPrivileges (id : RoleId) (ps : List Privilege) (s : Store) :
    (ps.forM fun p => Statements.change fun s =>
        (s.insertPrivilege id p).mapError Refusal.asFailure).written s =
      ((ps.foldlM (insertPrivilege · id) s).mapError Refusal.asFailure).map
        fun s => ((), s) := by
  induction ps generalizing s with
  | nil => rfl
  | cons p ps ih =>
    rw [List.forM, Statements.written_bind, Statements.written_change, List.foldlM_cons]
    cases s.insertPrivilege id p with
    | error _ => rfl
    | ok s₁ => exact ih s₁

/-- Privileges that are inserted have their rows. -/
theorem eq_of_insertPrivileges {id : RoleId} {ps : List Privilege}
    (h : ps.foldlM (insertPrivilege · id) s = .ok s') :
    s' = { s with
      privileges := s.privileges.map fun rows =>
        ps.foldl (fun rows p => rows.insert ⟨.int id, .text p.code⟩) rows } := by
  induction ps generalizing s with
  | nil =>
    cases h
    cases hp : s'.privileges <;> simp [← hp]
  | cons p ps ih =>
    rw [List.foldlM_cons] at h
    obtain ⟨s₁, hinsert, h⟩ := bind_eq_ok_iff.1 h
    simp only [insertPrivilege, bind_eq_ok_iff, available_eq_ok_iff, pure_eq_ok_iff] at hinsert
    obtain ⟨rows, hrows, -, -, -, -, -, -, rfl⟩ := hinsert
    rw [ih h, hrows]
    rfl

/-- **A role is added by its row and its privileges**, unless there is one of its name. -/
theorem createRole_eq (s : Store) (name : String) (scope : RoleScope) (ps : KeySet Privilege) :
    s.createRole name scope ps = s.hasRoleNamed scope name >>= fun found =>
      if found then .error .alreadyExists
      else (s.insertRole name scope).mapError Refusal.asFailure >>= fun (id, s₁) =>
        (ps.rows.foldlM (insertPrivilege · id) s₁).mapError Refusal.asFailure >>=
          fun s₂ => .ok (⟨id, name, scope, ps⟩, s₂) := by
  rw [createRole, addingRole, Statements.written_transaction, Statements.written_bind,
    Statements.written_query]
  cases s.hasRoleNamed scope name with
  | error _ => rfl
  | ok found =>
    cases found with
    | true => rfl
    | false =>
      change Statements.written (ite (false = true) _ _) s = _
      rw [if_neg Bool.false_ne_true, Statements.written_bind, Statements.written_one]
      change _ = (s.insertRole name scope).mapError Refusal.asFailure >>= _
      refine congrArg _ (funext fun ⟨id, s₁⟩ => ?_)
      rw [Statements.written_bind, written_insertPrivileges]
      dsimp only
      cases ps.rows.foldlM (insertPrivilege · id) s₁ <;> rfl

/-- A role whose name is new in its scope is added step by step. -/
theorem createRole_of_unknown {name : String} {scope : RoleScope} {ps : KeySet Privilege}
    (h : s.hasRoleNamed scope name = .ok false) : s.createRole name scope ps =
      (s.insertRole name scope).mapError Refusal.asFailure >>= fun (id, s₁) =>
        (ps.rows.foldlM (insertPrivilege · id) s₁).mapError Refusal.asFailure >>=
          fun s₂ => .ok (⟨id, name, scope, ps⟩, s₂) := by
  rw [createRole_eq, h]
  rfl

/-- A role is added under a new id together with its privileges. -/
theorem createRole_eq_ok {name : String} {scope : RoleScope} {ps : KeySet Privilege} {role : Role}
    (h : s.createRole name scope ps = .ok (role, s')) :
    ∃ t, s.roles = some t ∧ ∃ id, t.next? = some id ∧ role = ⟨id, name, scope, ps⟩ ∧
      s' = { s with
        roles := some (t.push ⟨id, .text name, scope.team?.map .int⟩)
        privileges := s.privileges.map fun rows => withPrivileges rows id ps } := by
  rw [createRole_eq] at h
  obtain ⟨found, -, h⟩ := bind_eq_ok_iff.1 h
  split at h
  · cases h
  · obtain ⟨⟨id, s₁⟩, hrow, h⟩ := bind_eq_ok_iff.1 h
    obtain ⟨s₂, hprivileges, h⟩ := bind_eq_ok_iff.1 h
    cases h
    simp only [mapError_eq_ok_iff, insertRole, bind_eq_ok_iff, available_eq_ok_iff,
      pure_eq_ok_iff, Prod.mk.injEq] at hrow
    obtain ⟨t, ht, -, -, _, hid, -, -, rfl, rfl⟩ := hrow
    exact ⟨t, ht, _, hid, rfl, eq_of_insertPrivileges (mapError_eq_ok_iff.1 hprivileges)⟩

/-- What the addition of a role keeps, the addition of the missing built-in roles keeps. -/
theorem seedAll_induction {P : Store → Prop}
    (hadd : ∀ s s' (r : BuiltinRole) role, P s →
      s.createRole r.name .global r.privileges = .ok (role, s') → P s')
    (h : P s) (rs : List BuiltinRole) : P (s.seedAll rs).2 := by
  induction rs generalizing s with
  | nil => exact h
  | cons r rs ih =>
    rw [seedAll]
    split
    · exact h
    · rename_i hseed
      refine ih ?_
      obtain ⟨found, -, hseed⟩ := bind_eq_ok_iff.1 hseed
      cases found with
      | some _ =>
        cases hseed
        exact h
      | none =>
        obtain ⟨⟨role, s₂⟩, hrole, hseed⟩ := bind_eq_ok_iff.1 hseed
        cases hseed
        exact hadd _ _ r role h hrole

/-! ## Ownerships -/

/-- An ownership is added under a new id, for a team that is stored with a role that is. -/
theorem createOwnership_eq_ok_iff {o : NewOwnership} {created : Ownership} :
    s.createOwnership o = .ok (created, s') ↔ ∃ t, s.ownerships = some t ∧ ∃ teams,
      s.teams = some teams ∧ ∃ roles, s.roles = some roles ∧ ∃ id, t.next? = some id ∧
      teams.rows.hasKey o.team = true ∧ roles.rows.hasKey o.role = true ∧
      o.stored id s.now = created ∧
      { s with ownerships := some (t.push (o.row id s.now)) } = s' := by
  simp [createOwnership, insertOwnership, bind_eq_ok_iff]

/-- An ownership is removed by its id, or there is none to remove. -/
theorem deleteOwnership_eq_ok_iff {id : OwnershipId} {found : Bool} :
    s.deleteOwnership id = .ok (found, s') ↔ ∃ t, s.ownerships = some t ∧
      (∃ teams, s.teams = some teams) ∧ (∃ roles, s.roles = some roles) ∧
      t.rows.hasKey id = found ∧
      { s with ownerships := some (t.withRows (t.rows.erase id)) } = s' := by
  simp [deleteOwnership, bind_eq_ok_iff]

/-- A replacement adds the new ownership and removes the old one, if that is there. -/
theorem replaceOwnership_eq (s : Store) (id : OwnershipId) (o : NewOwnership) :
    s.replaceOwnership id o = s.createOwnership o >>= fun (created, s₁) =>
      s₁.deleteOwnership id >>= fun (deleted, s₂) =>
        if deleted then .ok (created, s₂) else .error .notFound := by
  rw [replaceOwnership, replacingOwnership, Statements.written_transaction,
    Statements.written_bind, Statements.written_one]
  refine congrArg _ (funext fun ⟨created, s₁⟩ => ?_)
  rw [Statements.written_bind, Statements.written_one]
  refine congrArg _ (funext fun ⟨deleted, s₂⟩ => ?_)
  cases deleted <;> rfl

/-- **An ownership is replaced by adding the new one and removing the old one.** -/
theorem replaceOwnership_eq_ok_iff {id : OwnershipId} {o : NewOwnership} {created : Ownership} :
    s.replaceOwnership id o = .ok (created, s') ↔ ∃ s₁,
      s.createOwnership o = .ok (created, s₁) ∧ s₁.deleteOwnership id = .ok (true, s') := by
  simp only [replaceOwnership_eq, bind_eq_ok_iff, Prod.exists]
  constructor
  · rintro ⟨created', s₁, hadd, deleted, s₂, hdel, h⟩
    split at h
    · cases h
      exact ⟨s₁, hadd, by simp_all⟩
    · cases h
  · rintro ⟨s₁, hadd, hdel⟩
    exact ⟨created, s₁, hadd, true, s', hdel, rfl⟩

end Store

end TeamAccess
