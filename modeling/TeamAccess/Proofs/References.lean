import TeamAccess.Proofs.Growth

/-!
# References — what ownerships name is there

An ownership names a team, a role and a resource. The tables hold it to the first two only: that the
team may use the role, and that the resource is stored with all that lies above it, is asked once,
before the ownership is added. It stays true because no write takes away what may be named: teams
and roles are only ever added, and so are rows of the hierarchy (`Store.Keeps`). So in a store that
has only been written to through its service every ownership is founded (`Service.upheld_run`), and
no resource of one is expanded to nothing.
-/

namespace TeamAccess

namespace Store

variable {s s' : Store} {o : NewOwnership}

/-! ## Foundations -/

/-- **What the ownership names is there**: its team, a role that is for every team or for this one,
and its resource with all that lies above it. -/
structure Backs (s : Store) (team : TeamId) (role : RoleId) (r : ResourceRef) : Prop where
  hasTeam : ∃ t, s.HasTeam t ∧ t.id = team
  hasRole : ∃ b, s.HasRole b ∧ b.id = role ∧ (b.scope = .global ∨ b.scope = .team team)
  stands : s.Stands r

/-- The row is one of an ownership that names what is there. -/
def Founded (s : Store) (r : OwnershipRow) : Prop :=
  ∃ o : NewOwnership, ∃ id stamp, r = o.row id stamp ∧ s.Backs o.team o.role o.resource

/-- **Nothing goes that an ownership may name.** -/
structure Keeps (s s' : Store) : Prop where
  grows : Grows s s'
  teams : ∀ t, s.HasTeam t → s'.HasTeam t
  roles : ∀ r, s.HasRole r → s'.HasRole r

namespace Keeps

/-- What is there stays there. -/
theorem backs (h : Keeps s s') {team : TeamId} {role : RoleId} {r : ResourceRef}
    (hb : s.Backs team role r) : s'.Backs team role r := by
  obtain ⟨⟨t, ht, hid⟩, ⟨b, hb, hrole, hscope⟩, hr⟩ := hb
  exact ⟨⟨t, h.teams t ht, hid⟩, ⟨b, h.roles b hb, hrole, hscope⟩, h.grows.stands hr⟩

theorem founded (h : Keeps s s') {r : OwnershipRow} (hr : s.Founded r) : s'.Founded r := by
  obtain ⟨o, id, stamp, rfl, hb⟩ := hr
  exact ⟨o, id, stamp, rfl, h.backs hb⟩

/-- A store in which neither hierarchy nor teams nor roles changed. -/
theorem of_eq (hhierarchy : SameHierarchy s s') (hteams : s'.teams = s.teams)
    (hroles : s'.roles = s.roles) (hprivileges : s'.privileges = s.privileges) : Keeps s s' where
  grows := hhierarchy.grows
  teams t ht := by rwa [HasTeam, hteams]
  roles _ hr := hr.of_eq hroles hprivileges

/-- A hierarchy write takes nothing away. -/
theorem of_extends (h : Extends s s') : Keeps s s' where
  grows := h.grows
  teams t ht := by rwa [HasTeam, h.teams]
  roles _ hr := hr.of_eq h.roles h.privileges

/-- Nor does a new team, having a new id. -/
theorem of_createTeam {name : String} {team : Team} (hok : s.createTeam name = .ok (team, s')) :
    Keeps s s' := by
  obtain ⟨t, ht, id, hid, -, -, rfl⟩ := createTeam_eq_ok_iff.1 hok
  have hhierarchy : SameHierarchy s { s with teams := some (t.push ⟨id, .text name⟩) } :=
    ⟨rfl, rfl, rfl, rfl, rfl⟩
  refine ⟨hhierarchy.grows, ?_, fun _ hr => hr⟩
  rintro u ⟨t', ht', hu⟩
  obtain rfl := Option.some.inj (ht.symm.trans ht')
  exact ⟨_, rfl, Index.mem_insert.2 (.inr ⟨hu, Numbered.ne_of_next? hid hu⟩)⟩

/-- Nor does a new role. -/
theorem of_createRole {name : String} {scope : RoleScope} {ps : KeySet Privilege} {role : Role}
    (hok : s.createRole name scope ps = .ok (role, s')) : Keeps s s' := by
  have hroles : ∀ r, s.HasRole r → s'.HasRole r := fun _ hr => hr.createRole hok
  obtain ⟨t, -, id, -, -, rfl⟩ := createRole_eq_ok hok
  have hhierarchy : SameHierarchy s { s with
      roles := some (t.push ⟨id, .text name, scope.team?.map .int⟩)
      privileges := s.privileges.map fun rows => withPrivileges rows id ps } :=
    ⟨rfl, rfl, rfl, rfl, rfl⟩
  exact ⟨hhierarchy.grows, fun _ ht => ht, hroles⟩

end Keeps

/-! ## Stores that are upheld -/

/-- **Every ownership that is stored names what is there**, in a settled store whose rows of
privileges are of stored roles. -/
structure Upheld (s : Store) : Prop where
  settled : s.Settled
  attributed : s.Attributed
  founded : ∃ t, s.ownerships = some t ∧ ∀ r ∈ t.rows, s.Founded r

namespace Upheld

/-- A store stays upheld if nothing goes that is named, and no row of an ownership comes. -/
theorem of_keeps (h : s.Upheld) (hsettled : s'.Settled) (hattributed : s'.Attributed)
    (hkeeps : Keeps s s') (hownerships : s'.ownerships = s.ownerships) : s'.Upheld := by
  obtain ⟨t, ht, hrows⟩ := h.founded
  exact ⟨hsettled, hattributed, t, hownerships.trans ht, fun r hr => hkeeps.founded (hrows r hr)⟩

/-- A hierarchy write. -/
theorem of_extends (h : s.Upheld) (hsettled : s'.Settled) (hextends : Extends s s') : s'.Upheld :=
  h.of_keeps hsettled (h.attributed.of_eq hextends.roles hextends.privileges)
    (.of_extends hextends) hextends.ownerships

/-- A new team. -/
theorem createTeam (h : s.Upheld) {name : String} {team : Team}
    (hok : s.createTeam name = .ok (team, s')) : s'.Upheld := by
  have hkeeps : Keeps s s' := .of_createTeam hok
  have hsound := h.settled.sound.createTeam hok
  obtain ⟨t, -, id, -, -, -, rfl⟩ := createTeam_eq_ok_iff.1 hok
  exact h.of_keeps (h.settled.of_eq hsound rfl rfl) (h.attributed.of_eq rfl rfl) hkeeps rfl

/-- A new role. -/
theorem createRole (h : s.Upheld) {name : String} {scope : RoleScope} {ps : KeySet Privilege}
    {role : Role} (hok : s.createRole name scope ps = .ok (role, s')) : s'.Upheld := by
  have hkeeps : Keeps s s' := .of_createRole hok
  have hattributed := h.attributed.createRole hok
  have hsound := h.settled.sound.createRole hok
  obtain ⟨t, -, id, -, -, rfl⟩ := createRole_eq_ok hok
  exact h.of_keeps (h.settled.of_eq hsound rfl rfl) hattributed hkeeps rfl

/-- Other rows of ownerships, each of which was there or names what is there. -/
theorem of_rows (h : s.Upheld) {t : Numbered OwnershipRow.id}
    (hsound : Sound { s with ownerships := some t }) (hrows : ∀ r ∈ t.rows, s.Founded r) :
    Upheld { s with ownerships := some t } := by
  have hkeeps : Keeps s { s with ownerships := some t } :=
    .of_eq ⟨rfl, rfl, rfl, rfl, rfl⟩ rfl rfl rfl
  exact ⟨h.settled.of_eq hsound rfl rfl, h.attributed.of_eq rfl rfl, t, rfl,
    fun r hr => hkeeps.founded (hrows r hr)⟩

/-- **A new ownership**, if what it names is there. -/
theorem createOwnership (h : s.Upheld) (ho : s.Backs o.team o.role o.resource)
    {created : Ownership} (hok : s.createOwnership o = .ok (created, s')) : s'.Upheld := by
  have hsound := h.settled.sound.createOwnership hok
  obtain ⟨t, ht, -, -, -, -, id, -, -, -, -, rfl⟩ := createOwnership_eq_ok_iff.1 hok
  obtain ⟨t', ht', hrows⟩ := h.founded
  obtain rfl := Option.some.inj (ht.symm.trans ht')
  refine h.of_rows hsound fun r hr => ?_
  rcases Index.mem_insert.1 hr with rfl | ⟨hr, -⟩
  · exact ⟨o, id, s.now, rfl, ho⟩
  · exact hrows r hr

/-- One ownership less. -/
theorem deleteOwnership (h : s.Upheld) {id : OwnershipId} {found : Bool}
    (hok : s.deleteOwnership id = .ok (found, s')) : s'.Upheld := by
  have hsound := h.settled.sound.deleteOwnership hok
  obtain ⟨t, ht, -, -, -, rfl⟩ := deleteOwnership_eq_ok_iff.1 hok
  obtain ⟨t', ht', hrows⟩ := h.founded
  obtain rfl := Option.some.inj (ht.symm.trans ht')
  exact h.of_rows hsound fun r hr => hrows r (Index.mem_erase.1 hr).1

/-- **A new store is upheld**: it has no ownership. -/
theorem fresh (now : Timestamp) : (Store.fresh now).Upheld := by
  obtain ⟨hseeded, -⟩ := fresh_spec now
  exact ⟨Settled.fresh now, hseeded.attributed, _, (unfilled_fresh now).ownerships,
    fun r hr => absurd hr Index.not_mem_empty⟩

/-- Setting up again. -/
theorem afterSetUp (h : s.Upheld) : s.afterSetUp.Upheld := by
  rw [Store.afterSetUp, setUp, h.settled.sound.withTables_eq]
  exact seedAll_induction (fun _ _ _ _ hs hadd => hs.createRole hadd) h _

end Upheld

/-! ## What is asked before -/

/-- A row that is looked for and there is found. -/
theorem exists_of_isSome {α : Type} {found : Except Fault (Option α)}
    (h : (found >>= fun a => pure a.isSome) = .ok true) : ∃ a, found = .ok (some a) := by
  obtain ⟨a, ha, hsome⟩ := bind_eq_ok_iff.1 h
  rw [pure_eq_ok_iff, Option.isSome_iff_exists] at hsome
  obtain ⟨a, rfl⟩ := hsome
  exact ⟨a, ha⟩

/-- On a sound store a resource that is found stands. -/
theorem Sound.stands_of_exists (h : s.Sound) {r : ResourceRef}
    (hr : Service.resourceExists s r = .ok true) : s.Stands r := by
  cases r with
  | global => trivial
  | environment n =>
    obtain ⟨e, he⟩ := exists_of_isSome hr
    exact ⟨e, environment?_eq_some_iff.1 he⟩
  | tenant n =>
    obtain ⟨t, hfound⟩ := exists_of_isSome hr
    obtain ⟨ht, hid⟩ := tenant?_eq_some_iff.1 hfound
    obtain ⟨e, hin⟩ := h.tenantIn ht
    exact ⟨t, e, hin, hid⟩
  | ods n =>
    obtain ⟨o, hfound⟩ := exists_of_isSome hr
    obtain ⟨ho, hid⟩ := ods?_eq_some_iff.1 hfound
    obtain ⟨t, e, hin⟩ := h.odsIn ho
    exact ⟨o, t, e, hin, hid.symm⟩
  | edOrg n =>
    obtain ⟨x, hfound⟩ := exists_of_isSome hr
    obtain ⟨hx, hid⟩ := edOrg?_eq_some_iff.1 hfound
    obtain ⟨o, t, e, hin, hods⟩ := h.edOrgIn hx
    exact ⟨o, t, e, hin, x, hx, hid, hods⟩

/-- **What an ownership that passes its check names is there.** -/
theorem Sound.backs_of_check (h : s.Sound) {u : Unit}
    (hcheck : Service.checkOwnership s o = .ok u) : s.Backs o.team o.role o.resource := by
  obtain ⟨team?, hteam, hcheck⟩ := bind_eq_ok_iff.1 hcheck
  cases team? with
  | none => cases hcheck
  | some team =>
    obtain ⟨role?, hrole, hcheck⟩ := bind_eq_ok_iff.1 hcheck
    cases role? with
    | none => cases hcheck
    | some role =>
      dsimp only at hcheck
      split at hcheck
      · cases hcheck
      · rename_i hadmits
        obtain ⟨found, hfound, hcheck⟩ := bind_eq_ok_iff.1 hcheck
        cases found with
        | false => cases hcheck
        | true =>
          obtain ⟨hrole, hid⟩ := role?_eq_some_iff.1 hrole
          exact ⟨⟨team, team?_eq_some_iff.1 hteam⟩,
            ⟨role, hrole, hid, RoleScope.admits_iff.1 (by simpa using hadmits)⟩,
            h.stands_of_exists hfound⟩

/-! ## What is named is expanded -/

/-- **On a sound store what stands is expanded to something**, whatever was looked up before. -/
theorem Sound.exists_expand (h : s.Sound) {r : ResourceRef} (hr : s.Stands r) {m : Memo}
    (hm : Resolver.Agrees s m) : ∃ x, (Resolver.expand s r m).1 = .ok x ∧ x ≠ .dangling := by
  obtain ⟨x, hx⟩ := h.succeeds_expansion r
  refine ⟨x, (Resolver.computes_expand r m hm).1.trans hx, ?_⟩
  rintro rfl
  generalize hdangling : Expansion.dangling = x at hx
  cases expands_of_expansion hx with
  | dangling hno => exact hno hr
  | _ => cases hdangling

/-- **What holds of a store whose ownerships are founded.** -/
structure Intact (s : Store) : Prop where
  /-- Every ownership can be read, and names a team, a role and a resource that are there. -/
  ownerships : ∃ t, s.ownerships = some t ∧ ∀ r ∈ t.rows, ∃ o : Ownership, r.load s.now = .ok o ∧
    s.Backs o.team o.role o.resource
  /-- The parent of every organization is stored, in the same ODS. -/
  parents : ∀ x, s.HasEdOrg x → s.ParentIn x
  /-- Every code of a stored privilege is in the catalog. -/
  codes : Filled s.privileges fun r => ∃ p : Privilege, r.code = .text p.code
  /-- Every team's cache can be built. -/
  builds : ∀ team, ∃ c, s.buildCache team = .ok c
  /-- No resource of an ownership is missing, whatever was looked up before it is expanded. -/
  expands : ∀ o, s.HasOwnership o → ∀ m, Resolver.Agrees s m →
    ∃ x, (Resolver.expand s o.resource m).1 = .ok x ∧ x ≠ .dangling

namespace Upheld

/-- What a founded row reads as names what is there. -/
theorem backs_of_hasOwnership (h : s.Upheld) {o : Ownership} (ho : s.HasOwnership o) :
    s.Backs o.team o.role o.resource := by
  obtain ⟨t, ht, r, hr, hload⟩ := ho
  obtain ⟨t', ht', hrows⟩ := h.founded
  obtain rfl := Option.some.inj (ht.symm.trans ht')
  obtain ⟨n, id, stamp, rfl, hbacks⟩ := hrows r hr
  obtain ⟨created, hload'⟩ := n.load_row id stamp s.now
  obtain rfl := Except.ok.inj (hload.symm.trans hload')
  exact hbacks

/-- **An upheld store is intact.** -/
theorem intact (h : s.Upheld) : s.Intact where
  ownerships := by
    obtain ⟨t, ht, hrows⟩ := h.founded
    refine ⟨t, ht, fun r hr => ?_⟩
    obtain ⟨n, id, stamp, rfl, hbacks⟩ := hrows r hr
    obtain ⟨created, hload⟩ := n.load_row id stamp s.now
    exact ⟨_, hload, hbacks⟩
  parents _ hx := h.settled.sound.parentIn hx
  codes := h.settled.sound.privileges.imp fun _ ⟨_, p, hr⟩ => ⟨p, by rw [hr]⟩
  builds := h.settled.sound.succeeds_buildCache
  expands _ ho _ hm := h.settled.sound.exists_expand (h.backs_of_hasOwnership ho).stands hm

end Upheld

end Store

namespace Service

variable {v : Service} {mode : CacheMode}

/-! ## Runs -/

/-- An ownership that is added has passed its check. -/
theorem check_of_addOwnership (v : Service) (o : NewOwnership) :
    (v.addOwnership o).2 = v ∨ checkOwnership v.store o = .ok () := by
  rw [addOwnership]
  split
  · exact .inl rfl
  · rename_i hadd
    obtain ⟨_, hcheck, -⟩ := bind_eq_ok_iff.1 hadd
    exact .inr hcheck

/-- An ownership that takes the place of another has passed its check. -/
theorem check_of_replaceOwnership (v : Service) (id : OwnershipId) (o : NewOwnership) :
    (v.replaceOwnership id o).2 = v ∨ checkOwnership v.store o = .ok () := by
  simp only [replaceOwnership]
  split
  · exact .inl rfl
  · rename_i hreplace
    obtain ⟨found, -, hreplace⟩ := bind_eq_ok_iff.1 hreplace
    cases found with
    | none => cases hreplace
    | some _ =>
      obtain ⟨_, hcheck, -⟩ := bind_eq_ok_iff.1 hreplace
      exact .inr hcheck

/-- A write keeps the store upheld, also if it fails. -/
theorem upheld_write (h : v.store.Upheld) (w : Write) : (v.write w).2.store.Upheld := by
  have hrow (hw : w.IsRow) : (v.write w).2.store.Upheld :=
    h.of_extends (settled_step h.settled (.write w)) (extends_write h.settled hw)
  cases w with
  | addEnvironment _ | addTenant _ | addOds _ | addEdOrg _ | rebuildClosure _ => exact hrow trivial
  | addOwnership o =>
    rw [write, done]
    rcases check_of_addOwnership v o with heq | hcheck
    · rwa [heq]
    · rcases addOwnership_leaves v o with heq | ⟨_, s, hs, heq⟩
      · rwa [heq]
      · rw [heq]
        exact h.createOwnership (h.settled.sound.backs_of_check hcheck) hs
  | removeOwnership id =>
    rw [write, done]
    rcases removeOwnership_leaves v id with heq | ⟨_, s, -, -, hs, heq⟩
    · rwa [heq]
    · rw [heq]
      exact h.deleteOwnership hs
  | replaceOwnership id o =>
    rw [write, done]
    rcases check_of_replaceOwnership v id o with heq | hcheck
    · rwa [heq]
    · rcases replaceOwnership_leaves v id o with heq | ⟨_, _, s, -, -, hs, heq⟩
      · rwa [heq]
      · rw [heq]
        -- The new one is added first, and then the old one is removed.
        obtain ⟨s₁, hadd, hdelete⟩ := Store.replaceOwnership_eq_ok_iff.1 hs
        have hadded := h.createOwnership (h.settled.sound.backs_of_check hcheck) hadd
        exact hadded.deleteOwnership hdelete

/-- **An event keeps the store upheld.** -/
theorem upheld_step (h : v.store.Upheld) (e : Event) : (v.step e).store.Upheld := by
  cases e with
  | clock now =>
    exact h.of_keeps (settled_step h.settled (.clock now)) (h.attributed.of_eq rfl rfl)
      (.of_eq ⟨rfl, rfl, rfl, rfl, rfl⟩ rfl rfl rfl) rfl
  | write w => exact upheld_write h w
  | addTeam name =>
    rw [step]
    rcases withStore_leaves v (v.store.createTeam name) with heq | ⟨_, s, hs, heq⟩
    · rwa [heq]
    · rw [heq]
      exact h.createTeam hs
  | addRole name scope privileges =>
    rw [step]
    rcases withStore_leaves v (v.store.createRole name scope privileges) with heq | ⟨_, s, hs, heq⟩
    · rwa [heq]
    · rw [heq]
      exact h.createRole hs
  | setUp => exact h.afterSetUp
  | cache team => exact h
  | invalidate team => exact h
  | invalidateAll => exact h

/-- **In every run the store is upheld.** -/
theorem upheld_run (mode : CacheMode) (now : Timestamp) (es : List Event) :
    ((initial mode now).run es).store.Upheld := by
  refine run_induction (P := fun v => v.store.Upheld) (fun _ e h => upheld_step h e) ?_ es
  rw [initial, store_start]
  exact Store.Upheld.fresh now

/-- The store of a service that has only been asked is upheld. -/
theorem Served.upheld (h : Served mode v) : v.store.Upheld := by
  obtain ⟨now, es, rfl⟩ := h.exists_run
  exact upheld_run mode now es

end Service

end TeamAccess
