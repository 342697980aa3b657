import TeamAccess.Proofs.Calls
import TeamAccess.Proofs.Roles

/-!
# Naming — roles and what they are known by

A role is known by its id, and by its name within its scope. That no two roles share both is
nothing that their table knows of by itself, since the roles for every team have no team there to
be compared. It is kept by the one call that adds roles, which looks for the name first; a store
that is set up again adds its built-in roles by the same call, and finds them. So it holds in every
run (`Service.registered_acts`), and with it that a role, once made, is found by id and by name as
it was made for good.
-/

namespace TeamAccess

namespace Store

variable {s s' : Store} {name : String} {scope : RoleScope} {ps : KeySet Privilege}

/-! ## Rows of roles -/

/-- A row that has a scope is in that scope alone. -/
theorem isIn_iff {r : RoleRow} (hscope : ∃ scope : RoleScope, r.team = scope.team?.map .int) :
    r.isIn scope = true ↔ r.team = scope.team?.map .int := by
  obtain ⟨scope', hteam⟩ := hscope
  rw [RoleRow.isIn, decide_eq_true_eq, hteam]
  cases scope' <;> cases scope <;> simp [RoleScope.team?]

/-- What a role is read from. -/
theorem row_of_loadRole {row : RoleRow} {r : Role} (h : s.loadRole row = .ok r) :
    row = ⟨r.id, .text r.name, r.scope.team?.map .int⟩ := by
  simp only [loadRole, RoleRow.loadScope, bind_eq_ok_iff, pure_eq_ok_iff,
    IntCell.load?_eq_ok_iff, TextCell.load_eq_ok_iff] at h
  obtain ⟨name, hname, _, ⟨team?, hteam, rfl⟩, _, -, rfl⟩ := h
  cases row
  cases team? <;> simp_all [RoleScope.ofTeam?, RoleScope.team?]

/-! ## What happens to roles -/

/-- Roles are the same, and no table has gone. -/
structure SameRoles (s s' : Store) : Prop where
  roles : s'.roles = s.roles
  privileges : s'.privileges = s.privileges
  complete : s.Complete → s'.Complete

/-- Teams come without a change to roles. -/
theorem SameRoles.createTeam {team : Team} (hok : s.createTeam name = .ok (team, s')) :
    SameRoles s s' := by
  obtain ⟨t, -, id, -, -, -, rfl⟩ := createTeam_eq_ok_iff.1 hok
  exact ⟨rfl, rfl, fun h => { h with teams := rfl }⟩

/-- Ownerships come without a change to roles. -/
theorem SameRoles.createOwnership {o : NewOwnership} {created : Ownership}
    (hok : s.createOwnership o = .ok (created, s')) : SameRoles s s' := by
  obtain ⟨t, -, -, -, -, -, id, -, -, -, -, rfl⟩ := createOwnership_eq_ok_iff.1 hok
  exact ⟨rfl, rfl, fun h => { h with ownerships := rfl }⟩

/-- Ownerships go without a change to roles. -/
theorem SameRoles.deleteOwnership {id : OwnershipId} {found : Bool}
    (hok : s.deleteOwnership id = .ok (found, s')) : SameRoles s s' := by
  obtain ⟨t, -, -, -, -, rfl⟩ := deleteOwnership_eq_ok_iff.1 hok
  exact ⟨rfl, rfl, fun h => { h with ownerships := rfl }⟩

/-- **Roles change by a new one only**, or where the store is set up. -/
theorem Turn.roles_cases {reply : Except Fault Reply} (h : Turn s reply s') :
    SameRoles s s' ∨ (∃ name scope ps r, s.createRole name scope ps = .ok (r, s')) ∨
      s' = s.setUp.2 := by
  cases h with
  | refused _ hsame | elsewhere hsame =>
    exact .inl ⟨hsame.roles, hsame.privileges, hsame.complete⟩
  | missing => exact .inl ⟨rfl, rfl, id⟩
  | setUp => exact .inr (.inr rfl)
  | team hok => exact .inl (.createTeam hok)
  | role hok => exact .inr (.inl ⟨_, _, _, _, hok⟩)
  | added hok => exact .inl (.createOwnership hok)
  | removed hok => exact .inl (.deleteOwnership hok)
  | replaced hok =>
    obtain ⟨s₁, hadd, hdelete⟩ := replaceOwnership_eq_ok_iff.1 hok
    have hadd := SameRoles.createOwnership hadd
    have hdelete := SameRoles.deleteOwnership hdelete
    exact .inl ⟨hdelete.roles.trans hadd.roles, hdelete.privileges.trans hadd.privileges,
      hdelete.complete ∘ hadd.complete⟩

/-! ## Roles that are well kept -/

/-- **Roles are well kept**: there is one for each scope and name, and each can be read. -/
structure Registered (s : Store) : Prop where
  complete : s.Complete
  attributed : s.Attributed
  named : ∀ t, s.roles = some t → ∀ r ∈ t.rows, ∃ name : String, r.name = .text name
  inScope : ∀ t, s.roles = some t → ∀ r ∈ t.rows, ∃ scope : RoleScope, r.team = scope.team?.map .int
  distinct : ∀ t, s.roles = some t → ∀ r ∈ t.rows, ∀ r' ∈ t.rows, r.team = r'.team →
    r.name = r'.name → r = r'
  builtin : ∀ b ∈ BuiltinRole.all, ∃ id, s.HasRole (stored b id)

namespace Registered

/-- Every row is a role's. -/
theorem exists_loadRole (h : s.Registered) {t : Numbered RoleRow.id} (ht : s.roles = some t)
    {row : RoleRow} (hrow : row ∈ t.rows) : ∃ r, s.loadRole row = .ok r := by
  obtain ⟨name, hname⟩ := h.named t ht row hrow
  obtain ⟨scope, hscope⟩ := h.inScope t ht row hrow
  obtain ⟨ps, hps⟩ : Succeeds (s.loadPrivileges row.id) := by
    obtain ⟨_, -, hfilled⟩ := h.attributed
    exact succeeds_loadPrivileges_iff.2 (hfilled.imp fun r ⟨_, _, p, hr⟩ _ => ⟨p, by rw [hr]⟩)
  exact ⟨_, loadRole_of_privileges hname hscope hps⟩

/-- The roles in a scope with a name are those that the look-up by name would stop at. -/
theorem exists_hasRole_iff (h : s.Registered) {t : Numbered RoleRow.id} (ht : s.roles = some t) :
    (∃ r, s.HasRole r ∧ r.scope = scope ∧ r.name = name) ↔
      ∃ row ∈ t.rows, row.isIn scope = true ∧ row.name = .text name := by
  constructor
  · rintro ⟨r, ⟨t', ht', row, hrow, hload⟩, rfl, rfl⟩
    obtain rfl := Option.some.inj (ht.symm.trans ht')
    refine ⟨row, hrow, ?_, by rw [row_of_loadRole hload]⟩
    rw [isIn_iff (h.inScope t ht row hrow), row_of_loadRole hload]
  · rintro ⟨row, hrow, hin, hname⟩
    obtain ⟨r, hload⟩ := h.exists_loadRole ht hrow
    rw [isIn_iff (h.inScope t ht row hrow)] at hin
    have hshape := row_of_loadRole hload
    refine ⟨r, ⟨t, ht, row, hrow, hload⟩, ?_, TextCell.text.inj ?_⟩
    case refine_2 => rw [← hname, hshape]
    rw [hshape] at hin
    cases hr : r.scope <;> cases scope <;> simp_all [RoleScope.team?]

/-- **One role for each scope and name.** -/
theorem eq_of_name_eq (h : s.Registered) {r r' : Role} (hr : s.HasRole r) (hr' : s.HasRole r')
    (hscope : r.scope = r'.scope) (hname : r.name = r'.name) : r = r' := by
  obtain ⟨t, ht, row, hrow, hload⟩ := hr
  obtain ⟨t', ht', row', hrow', hload'⟩ := hr'
  obtain rfl := Option.some.inj (ht.symm.trans ht')
  have hsame : row = row' := by
    refine h.distinct t ht row hrow row' hrow' ?_ ?_
    · rw [row_of_loadRole hload, row_of_loadRole hload', hscope]
    · rw [row_of_loadRole hload, row_of_loadRole hload', hname]
  subst hsame
  exact Except.ok.inj (hload.symm.trans hload')

/-- **A role is found by its name.** -/
theorem roleNamed?_eq (h : s.Registered) {r : Role} (hr : s.HasRole r) :
    s.roleNamed? r.scope r.name = .ok (some r) := by
  have ⟨t, ht, row, hrow, hload⟩ := hr
  have hshape := row_of_loadRole hload
  have hfind : t.rows.rows.find? (fun row => row.isIn r.scope ∧ row.name = .text r.name) =
      some row := by
    cases hfound : t.rows.rows.find? fun row => row.isIn r.scope ∧ row.name = .text r.name with
    | none =>
      obtain ⟨row', hrow', hmatch⟩ := (h.exists_hasRole_iff ht).1 ⟨r, hr, rfl, rfl⟩
      exact absurd (decide_eq_true hmatch) (List.find?_eq_none.1 hfound row' hrow')
    | some row' =>
      have hrow' : row' ∈ t.rows := List.mem_of_find?_eq_some hfound
      obtain ⟨hin, hname⟩ : row'.isIn r.scope = true ∧ row'.name = .text r.name := by
        simpa using List.find?_some hfound
      rw [isIn_iff (h.inScope t ht row' hrow')] at hin
      rw [h.distinct t ht row' hrow' row hrow (by rw [hin, hshape]) (by rw [hname, hshape])]
  refine bind_eq_ok_iff.2 ⟨t, need_eq_ok_iff.2 ht, ?_⟩
  rw [hfind]
  exact bind_eq_ok_iff.2 ⟨r, hload, rfl⟩

/-- **A role is refused as known if there is one of its scope and name.** -/
theorem createRole_eq_alreadyExists_iff (h : s.Registered) :
    s.createRole name scope ps = .error .alreadyExists ↔
      ∃ r, s.HasRole r ∧ r.scope = scope ∧ r.name = name := by
  obtain ⟨t, ht, -⟩ := h.attributed
  have hfound : s.hasRoleNamed scope name =
      .ok (t.rows.rows.any fun r => r.isIn scope ∧ r.name = .text name) :=
    bind_eq_ok_iff.2 ⟨t, need_eq_ok_iff.2 ht, rfl⟩
  rw [h.exists_hasRole_iff ht]
  cases hany : t.rows.rows.any fun r => r.isIn scope ∧ r.name = .text name with
  | true =>
    refine iff_of_true ?_ (by simpa [← Index.mem_def] using hany)
    rw [createRole_eq, hfound, hany]
    rfl
  | false =>
    -- Whatever else an insertion is refused for, it is never told as this.
    refine iff_of_false (fun hfault => ?_) (by simpa [← Index.mem_def] using hany)
    have hstorage {α : Type} (x : Except Refusal α) :
        FailsOnly (x.mapError Refusal.asFailure) (· = .storage) :=
      .mapError (P := fun _ => True) (fun _ _ => trivial) fun _ _ => rfl
    rw [createRole_of_unknown (hfound.trans (by rw [hany]))] at hfault
    cases (hstorage _).bind (fun (id, s₁) _ => (hstorage _).bind fun s₂ _ => .ok _) _ hfault

/-! ## What keeps roles well kept -/

/-- Where no role changed, they are as well kept as before. -/
theorem of_eq (h : s.Registered) (hsame : SameRoles s s') : s'.Registered where
  complete := hsame.complete h.complete
  attributed := h.attributed.of_eq hsame.roles hsame.privileges
  named := by rw [hsame.roles]; exact h.named
  inScope := by rw [hsame.roles]; exact h.inScope
  distinct := by rw [hsame.roles]; exact h.distinct
  builtin b hb := (h.builtin b hb).imp fun _ hr => hr.of_eq hsame.roles hsame.privileges

/-- A new role has a name that is new in its scope. -/
theorem createRole (h : s.Registered) {r : Role}
    (hok : s.createRole name scope ps = .ok (r, s')) : s'.Registered := by
  have hnew : ∀ t, s.roles = some t → ∀ row ∈ t.rows, row.team = scope.team?.map .int →
      row.name ≠ .text name := by
    intro t ht row hrow hteam hname
    have hin := (isIn_iff (h.inScope t ht row hrow)).2 hteam
    have hfault : s.createRole name scope ps = .error .alreadyExists :=
      h.createRole_eq_alreadyExists_iff.2 ((h.exists_hasRole_iff ht).2 ⟨row, hrow, hin, hname⟩)
    cases hfault.symm.trans hok
  have hbuiltin : ∀ b ∈ BuiltinRole.all, ∃ id, s'.HasRole (stored b id) :=
    fun b hb => (h.builtin b hb).imp fun _ hr => hr.createRole hok
  have hattributed := h.attributed.createRole hok
  obtain ⟨t, ht, id, -, -, rfl⟩ := createRole_eq_ok hok
  have hrows : ∀ row, row ∈ (t.push ⟨id, .text name, scope.team?.map .int⟩).rows →
      row = ⟨id, .text name, scope.team?.map .int⟩ ∨ row ∈ t.rows := by
    intro row hrow
    exact (Index.mem_insert.1 hrow).imp_right And.left
  refine ⟨?complete, hattributed, ?named, ?inScope, ?distinct, hbuiltin⟩
  case complete =>
    exact { h.complete with roles := rfl, privileges := by simpa using h.complete.privileges }
  case named =>
    intro t' ht' row hrow
    obtain rfl := Option.some.inj ht'
    rcases hrows row hrow with rfl | hrow
    · exact ⟨name, rfl⟩
    · exact h.named t ht row hrow
  case inScope =>
    intro t' ht' row hrow
    obtain rfl := Option.some.inj ht'
    rcases hrows row hrow with rfl | hrow
    · exact ⟨scope, rfl⟩
    · exact h.inScope t ht row hrow
  case distinct =>
    intro t' ht' row hrow row' hrow' hteam hname
    obtain rfl := Option.some.inj ht'
    rcases hrows row hrow with rfl | hrow <;> rcases hrows row' hrow' with rfl | hrow'
    · rfl
    · exact absurd hname.symm (hnew t ht row' hrow' hteam.symm)
    · exact absurd hname (hnew t ht row hrow hteam)
    · exact h.distinct t ht row hrow row' hrow' hteam hname

/-- **To set up again changes nothing**: every table is there, and every built-in role is found. -/
theorem setUp_eq (h : s.Registered) : s.setUp = (.ok (), s) := by
  have hseed : ∀ b ∈ BuiltinRole.all, s.seed b = .ok s := by
    intro b hb
    obtain ⟨id, hr⟩ := h.builtin b hb
    exact bind_eq_ok_iff.2 ⟨some (stored b id), h.roleNamed?_eq hr, rfl⟩
  have hall : ∀ bs : List BuiltinRole, (∀ b ∈ bs, s.seed b = .ok s) →
      s.seedAll bs = (.ok (), s) := by
    intro bs hbs
    induction bs with
    | nil => rfl
    | cons b bs ih =>
      rw [seedAll, hbs b List.mem_cons_self]
      exact ih fun b' hb' => hbs b' (List.mem_cons_of_mem _ hb')
  rw [setUp, h.complete.withTables_eq]
  exact hall _ hseed

/-- **Roles are well kept whatever happens.** -/
theorem turn (h : s.Registered) {reply : Except Fault Reply} (hturn : Turn s reply s') :
    s'.Registered := by
  rcases hturn.roles_cases with hsame | ⟨_, _, _, _, hok⟩ | rfl
  · exact h.of_eq hsame
  · exact h.createRole hok
  · rwa [h.setUp_eq]

/-- The roles of a new store are well kept. -/
theorem fresh (now : Timestamp) : (Store.fresh now).Registered := by
  have hsound := Sound.fresh now
  obtain ⟨hseeded, howner, hadmin, hreader⟩ := fresh_spec now
  have hnames : ∀ r ∈ builtinRoles.rows.rows, ∀ r' ∈ builtinRoles.rows.rows,
      r.name = r'.name → r = r' := by decide
  obtain ⟨t₀, ht₀, hrows⟩ := hsound.roles
  refine ⟨hsound.complete, hseeded.attributed, ?named, ?inScope, ?distinct, ?builtin⟩
  case named =>
    intro t ht r hr
    obtain rfl := Option.some.inj (ht₀.symm.trans ht)
    exact (hrows r hr).1
  case inScope =>
    intro t ht r hr
    obtain rfl := Option.some.inj (ht₀.symm.trans ht)
    exact (hrows r hr).2
  case distinct =>
    intro t ht r hr r' hr' _ hname
    obtain rfl := Option.some.inj (hseeded.roles.symm.trans ht)
    exact hnames r hr r' hr' hname
  case builtin =>
    intro b hb
    rcases List.mem_cons.1 hb with rfl | hb
    · exact ⟨1, howner⟩
    rcases List.mem_cons.1 hb with rfl | hb
    · exact ⟨2, hadmin⟩
    obtain rfl := List.mem_singleton.1 hb
    exact ⟨3, hreader⟩

end Registered

/-- **A role stays as it is whatever happens.** -/
theorem HasRole.turn (h : s.Registered) {reply : Except Fault Reply} (hturn : Turn s reply s')
    {r : Role} (hr : s.HasRole r) : s'.HasRole r := by
  rcases hturn.roles_cases with hsame | ⟨_, _, _, _, hok⟩ | rfl
  · exact hr.of_eq hsame.roles hsame.privileges
  · exact hr.createRole hok
  · rwa [h.setUp_eq]

end Store

namespace Service

variable {v : Service} {name : String} {scope : RoleScope} {ps : KeySet Privilege}

/-- Roles are well kept as a service starts. -/
theorem registered_initial (mode : CacheMode) (now : Timestamp) :
    (initial mode now).store.Registered := by
  rw [initial, store_start]
  exact Store.Registered.fresh now

/-- **In every run roles are well kept.** -/
theorem registered_acts (h : v.store.Registered) (as : List Act) :
    (v.acts as).store.Registered :=
  acts_induction (fun _ _ _ h hturn => h.turn hturn) h as

/-- A role stays as it is in every run. -/
theorem hasRole_acts (h : v.store.Registered) {r : Role} (hr : v.store.HasRole r)
    (as : List Act) : (v.acts as).store.HasRole r := by
  -- Roles are well kept on the way, so each turn may set up again.
  have hboth := acts_induction (P := fun s => s.Registered ∧ s.HasRole r)
    (fun _ _ _ h hturn => ⟨h.1.turn hturn, h.2.turn h.1 hturn⟩) ⟨h, hr⟩ as
  exact hboth.2

/-- The call that adds a role. -/
abbrev addRole (name : String) (scope : RoleScope) (ps : KeySet Privilege) : Act :=
  .call (.createRole name scope ps)

/-- **What can be relied on of roles.** -/
structure KeepsRoles (v : Service) : Prop where
  /-- There are no two roles of one scope and name. -/
  unique : ∀ r r', v.store.HasRole r → v.store.HasRole r' → r.scope = r'.scope →
    r.name = r'.name → r = r'
  /-- Every row is a role's. -/
  rows : ∃ t, v.store.roles = some t ∧ ∀ row ∈ t.rows, ∃ r, v.store.loadRole row = .ok r
  /-- A role is refused as known just if there is one of its scope and name. -/
  known : ∀ name scope ps, (v.act (addRole name scope ps)).1 = .error .alreadyExists ↔
    ∃ r, v.store.HasRole r ∧ r.scope = scope ∧ r.name = name
  /-- Whatever a role is refused for, nothing changes. -/
  refused : ∀ name scope ps fault, (v.act (addRole name scope ps)).1 = .error fault →
    (v.act (addRole name scope ps)).2 = v
  /-- A role that was made is what was asked for, and it is found as such for good. -/
  made : ∀ name scope ps r, (v.act (addRole name scope ps)).1 = .ok (.role r) →
    (r.name = name ∧ r.scope = scope ∧ r.privileges = ps) ∧
      ∀ as, (((v.act (addRole name scope ps)).2.acts as).store.role? r.id = .ok (some r) ∧
        ((v.act (addRole name scope ps)).2.acts as).store.roleNamed? scope name = .ok (some r))
  /-- Each built-in role is there once, with its privileges. -/
  builtin : ∀ b ∈ BuiltinRole.all, ∃ r, v.store.HasRole r ∧ r.name = b.name ∧ r.scope = .global ∧
    r.privileges = b.privileges ∧
    ∀ r', v.store.HasRole r' → r'.name = b.name → r'.scope = .global → r' = r
  /-- To set up again changes nothing. -/
  setUp : v.store.setUp = (.ok (), v.store)

/-- A role that was made is stored, and roles are well kept with it. -/
theorem hasRole_of_addRole (h : v.store.Registered) {r : Role}
    (hmade : (v.act (addRole name scope ps)).1 = .ok (.role r)) :
    (r.name = name ∧ r.scope = scope ∧ r.privileges = ps) ∧
      (v.act (addRole name scope ps)).2.store.Registered ∧
      (v.act (addRole name scope ps)).2.store.HasRole r := by
  obtain ⟨_, s', hok, hreply, hafter⟩ := Store.of_execute_eq_ok hmade
  obtain rfl := Store.Reply.role.inj hreply
  have hstore : (v.act (addRole name scope ps)).2.store = s' := congrArg Prod.snd hafter
  rw [hstore]
  refine ⟨?_, h.createRole hok, .of_createRole h.attributed hok⟩
  obtain ⟨_, -, _, -, rfl, -⟩ := Store.createRole_eq_ok hok
  exact ⟨rfl, rfl, rfl⟩

/-- **Roles are kept**, in every run of calls of the store and of its writers, from a new store
on. -/
theorem roles_are_kept (mode : CacheMode) (now : Timestamp) (as : List Act) :
    ((initial mode now).acts as).KeepsRoles := by
  have h := registered_acts (registered_initial mode now) as
  generalize (initial mode now).acts as = v at h
  refine ⟨fun r r' hr hr' => h.eq_of_name_eq hr hr', ?rows, ?known, ?refused, ?made, ?builtin,
    h.setUp_eq⟩
  case rows =>
    obtain ⟨t, ht, -⟩ := h.attributed
    exact ⟨t, ht, fun row hrow => h.exists_loadRole ht hrow⟩
  case known =>
    intro name scope ps
    have hiff : v.store.createRole name scope ps = .error .alreadyExists ↔ _ :=
      h.createRole_eq_alreadyExists_iff
    rw [← hiff, act, Store.call]
    constructor
    · intro hfault
      exact (Store.of_execute_eq_error (Store.atomic_addingRole name scope ps) hfault).1
    · intro hfault
      rw [Store.execute, (Store.atomic_addingRole name scope ps).run_of_error hfault]
      rfl
  case refused =>
    intro name scope ps fault hfault
    obtain ⟨-, hafter⟩ :=
      Store.of_execute_eq_error (Store.atomic_addingRole name scope ps) hfault
    exact congrArg (fun x => { v with store := x.2 }) hafter
  case made =>
    intro name scope ps r hmade
    obtain ⟨hasked, hregistered, hr⟩ := hasRole_of_addRole h hmade
    refine ⟨hasked, fun as => ?_⟩
    have hlater := hasRole_acts hregistered hr as
    obtain ⟨rfl, rfl, -⟩ := hasked
    exact ⟨Store.role?_eq_some_iff.2 ⟨hlater, rfl⟩,
      (registered_acts hregistered as).roleNamed?_eq hlater⟩
  case builtin =>
    intro b hb
    obtain ⟨id, hr⟩ := h.builtin b hb
    refine ⟨Store.stored b id, hr, rfl, rfl, rfl, fun r' hr' hname hscope => ?_⟩
    exact h.eq_of_name_eq hr' hr hscope hname

end Service

end TeamAccess
