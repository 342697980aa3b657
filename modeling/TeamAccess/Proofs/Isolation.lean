import TeamAccess.Proofs.Applications
import TeamAccess.Proofs.Denials
import TeamAccess.Proofs.References

/-!
# Isolation — what others do is nothing to a team

A team is answered from its own row, its cache and the hierarchy. None of these changes while teams
and roles are added, ownerships of other teams come and go, and anyone reads
(`Service.spares_answer`); and two services that have these in common give one answer
(`Service.answer_fst_eq`). The cache in turn has nothing from roles that are for another team: a row
by which the team holds such a role might as well not be there
(`Store.buildCache_withoutOwnership`).
-/

namespace TeamAccess

namespace Store

variable {s s' s'' : Store} {team : TeamId}

/-! ## The same hierarchy, the same lists -/

namespace SameHierarchy

theorem refl (s : Store) : SameHierarchy s s := ⟨rfl, rfl, rfl, rfl, rfl⟩

theorem trans (h : SameHierarchy s s') (h' : SameHierarchy s' s'') : SameHierarchy s s'' where
  environments := h'.environments.trans h.environments
  tenants := h'.tenants.trans h.tenants
  odss := h'.odss.trans h.odss
  edOrgs := h'.edOrgs.trans h.edOrgs
  closure := h'.closure.trans h.closure

theorem listEnvironments_eq (h : SameHierarchy s s') :
    s'.listEnvironments = s.listEnvironments := by
  funext f
  simp only [listEnvironments, h.environments]

theorem listTenants_eq (h : SameHierarchy s s') : s'.listTenants = s.listTenants := by
  funext id f
  simp only [listTenants, h.tenants]

theorem listOdss_eq (h : SameHierarchy s s') : s'.listOdss = s.listOdss := by
  funext id f
  simp only [listOdss, h.odss]

theorem listEdOrgs_eq (h : SameHierarchy s s') : s'.listEdOrgs = s.listEdOrgs := by
  funext id f
  simp only [listEdOrgs, h.edOrgs, h.odss]

end SameHierarchy

/-! ## What a team is answered from -/

/-- **Nothing changes that a team is answered from**: the hierarchy, the builds of its cache, and
the rows of teams. -/
structure Spares (s s' : Store) (team : TeamId) : Prop where
  hierarchy : SameHierarchy s s'
  builds : ∀ c, s.buildCache team = .ok c → s'.buildCache team = .ok c
  teams : ∀ t, s.HasTeam t → s'.HasTeam t

namespace Spares

theorem refl (s : Store) (team : TeamId) : Spares s s team :=
  ⟨.refl s, fun _ hc => hc, fun _ ht => ht⟩

theorem trans (h : Spares s s' team) (h' : Spares s' s'' team) : Spares s s'' team where
  hierarchy := h.hierarchy.trans h'.hierarchy
  builds c hc := h'.builds c (h.builds c hc)
  teams t ht := h'.teams t (h.teams t ht)

/-- What a build does not see spares the team, if no team is lost. -/
theorem of_retains (h : Retains s s' team) (hteams : ∀ t, s.HasTeam t → s'.HasTeam t) :
    Spares s s' team :=
  ⟨h.hierarchy, fun _ => h.buildCache, hteams⟩

theorem withNow (now : Timestamp) : Spares s { s with now } team :=
  .of_retains (retains_withNow now) fun _ ht => ht

theorem createTeam {name : String} {created : Team} (hok : s.createTeam name = .ok (created, s')) :
    Spares s s' team :=
  .of_retains (retains_createTeam hok) (Keeps.of_createTeam hok).teams

theorem createRole {name : String} {scope : RoleScope} {ps : KeySet Privilege} {role : Role}
    (hok : s.createRole name scope ps = .ok (role, s')) : Spares s s' team :=
  .of_retains (retains_createRole hok) (Keeps.of_createRole hok).teams

theorem createOwnership {o : NewOwnership} {created : Ownership}
    (hok : s.createOwnership o = .ok (created, s')) (hteam : o.team ≠ team) : Spares s s' team := by
  refine .of_retains (retains_createOwnership hok hteam.symm) fun t ht => ?_
  obtain ⟨_, -, _, -, _, -, _, -, -, -, -, rfl⟩ := createOwnership_eq_ok_iff.1 hok
  exact ht

theorem deleteOwnership {id : OwnershipId} {found : Bool} {o : Ownership}
    (hok : s.deleteOwnership id = .ok (found, s')) (ho : s.HasOwnership o) (hid : o.id = id)
    (hteam : o.team ≠ team) : Spares s s' team := by
  refine .of_retains (retains_deleteOwnership hok ho hid hteam.symm) fun t ht => ?_
  obtain ⟨_, -, -, -, -, rfl⟩ := deleteOwnership_eq_ok_iff.1 hok
  exact ht

end Spares

/-! ## Roles of other teams -/

/-- The store without the row of an ownership. -/
def withoutOwnership (s : Store) (id : OwnershipId) : Store :=
  { s with ownerships := s.ownerships.map fun t => t.withRows (t.rows.erase id) }

/-- Ownerships add what they added. -/
theorem addTo_withoutOwnership {id : OwnershipId} : (s.withoutOwnership id).addTo = s.addTo := by
  have hhierarchy : SameHierarchy s (s.withoutOwnership id) := .of_ownerships rfl
  have hrole : (s.withoutOwnership id).role? = s.role? := rfl
  funext c o
  simp only [addTo, hrole, hhierarchy.expansion_eq]

section Filter

variable {p : OwnershipId → Bool}

/-- Rows are read as before but for some of them, if those can be read. -/
theorem mapM_load_filter {now : Timestamp} {rows : List OwnershipRow}
    (h : ∀ r ∈ rows, p r.id = false → ∃ o, r.load now = .ok o) :
    (rows.filter fun r => p r.id).mapM (fun r => r.load now) =
      (rows.mapM fun r : OwnershipRow => r.load now).map (List.filter fun o => p o.id) := by
  induction rows with
  | nil => rfl
  | cons r rows ih =>
    have ih := ih fun r hr => h r (List.mem_cons_of_mem _ hr)
    rw [List.mapM_cons]
    cases hp : p r.id with
    | false =>
      obtain ⟨o, ho⟩ := h r List.mem_cons_self hp
      rw [(OwnershipRow.columns_of_load ho).1] at hp
      rw [List.filter_cons_of_neg (by simp [(OwnershipRow.columns_of_load ho).1, hp]), ih, ho]
      cases rows.mapM fun r : OwnershipRow => r.load now with
      | error _ => rfl
      | ok os => simp [bind, Except.bind, Except.map, pure, Except.pure, hp]
    | true =>
      rw [List.filter_cons_of_pos (by simpa using hp), List.mapM_cons, ih]
      cases ho : r.load now with
      | error _ => rfl
      | ok o =>
        rw [(OwnershipRow.columns_of_load ho).1] at hp
        cases rows.mapM fun r : OwnershipRow => r.load now with
        | error _ => rfl
        | ok os => simp [bind, Except.bind, Except.map, pure, Except.pure, hp]

/-- Ownerships add what they add without those that add nothing. -/
theorem foldlM_addTo_filter {os : List Ownership} {c : Cache} (hc : c.Fits)
    (h : ∀ o ∈ os, p o.id = false → ∀ c' : Cache, c'.team = c.team → s.addTo c' o = .ok c') :
    (os.filter fun o => p o.id).foldlM s.addTo c = os.foldlM s.addTo c := by
  induction os generalizing c with
  | nil => rfl
  | cons o os ih =>
    have hrest {c₁ : Cache} (hfits : c₁.Fits) (hteam : c₁.team = c.team) :
        (os.filter fun o => p o.id).foldlM s.addTo c₁ = os.foldlM s.addTo c₁ :=
      ih hfits fun o' ho' hp c' hc' =>
        h o' (List.mem_cons_of_mem _ ho') hp c' (hc'.trans hteam)
    rw [List.foldlM_cons]
    cases hp : p o.id with
    | false =>
      rw [List.filter_cons_of_neg (by simp [hp]), h o List.mem_cons_self hp c rfl]
      exact hrest hc rfl
    | true =>
      rw [List.filter_cons_of_pos (by simpa using hp), List.foldlM_cons]
      cases hadd : s.addTo c o with
      | error _ => rfl
      | ok c₁ =>
        obtain ⟨hteam, hfits, -⟩ := addTo_spec hc hadd
        exact hrest hfits hteam

end Filter

/-- Every list of ownerships is the one before without the ownership. -/
theorem listOwnerships_withoutOwnership {o : Ownership} (ho : s.HasOwnership o) :
    (s.withoutOwnership o.id).listOwnerships team =
      (s.listOwnerships team).map (List.filter fun o' => compare o'.id o.id != .eq) := by
  obtain ⟨t, ht, r, hr, hload⟩ := ho
  obtain ⟨hid, -⟩ := OwnershipRow.columns_of_load hload
  have hloads : ∀ r' ∈ t.rows.rows.filter (fun r => r.team.equals team),
      (compare r'.id o.id != .eq) = false → ∃ o, r'.load s.now = .ok o := by
    intro r' hr' hid'
    have heq : r'.id = o.id := by simpa using hid'
    obtain rfl := Index.eq_of_key_eq hr (List.mem_filter.1 hr').1 (hid.trans heq.symm)
    exact ⟨o, hload⟩
  have hrows : (t.rows.erase o.id).rows.filter (fun r => r.team.equals team) =
      (t.rows.rows.filter fun r => r.team.equals team).filter fun r =>
        compare r.id o.id != .eq := by
    simp only [Index.erase, Index.filter, List.filter_filter, Bool.and_comm]
  have hreadable : ((t.rows.rows.filter fun r => r.team.equals team).filter fun r =>
      compare r.id o.id != .eq).all OwnershipRow.isReadable =
        (t.rows.rows.filter fun r => r.team.equals team).all OwnershipRow.isReadable := by
    rw [Bool.eq_iff_iff, List.all_eq_true, List.all_eq_true]
    refine ⟨fun h r' hr' => ?_, fun h r' hr' => h r' (List.mem_filter.1 hr').1⟩
    cases hkept : compare r'.id o.id != .eq with
    | true => exact h r' (List.mem_filter.2 ⟨hr', hkept⟩)
    | false =>
      obtain ⟨o', ho'⟩ := hloads r' hr' hkept
      exact OwnershipRow.isReadable_of_load ho'
  simp only [listOwnerships, withoutOwnership, ht, Option.map_some, need, Option.elim_some,
    Numbered.withRows, hrows, hreadable, bind, Except.bind]
  split
  · exact mapM_load_filter (p := fun id => compare id o.id != .eq) hloads
  · rfl

/-- **An ownership by a role of another team might as well not be there.** -/
theorem buildCache_withoutOwnership {o : Ownership} {role : Role} {owner : TeamId}
    (ho : s.HasOwnership o) (hrole : s.HasRole role) (hid : role.id = o.role)
    (hscope : role.scope = .team owner) (hforeign : owner ≠ o.team) :
    (s.withoutOwnership o.id).buildCache o.team = s.buildCache o.team := by
  have hadd (c : Cache) (hteam : c.team = o.team) : s.addTo c o = .ok c := by
    have hadmits : role.scope.admits c.team = false := by
      rw [hscope, hteam, RoleScope.admits, decide_eq_false hforeign]
    rw [addTo, role?_eq_some_iff.2 ⟨hrole, hid⟩]
    simp only [bind, Except.bind, hadmits, Bool.false_eq_true, if_false]
    rfl
  rw [buildCache_eq, buildCache_eq, listOwnerships_withoutOwnership ho]
  cases hlist : s.listOwnerships o.team with
  | error _ => rfl
  | ok os =>
    have hfold := foldlM_addTo_filter (s := s) (p := fun id => compare id o.id != .eq)
      (Cache.fits_empty : (Cache.empty o.team).Fits) fun o' ho' hid' c hc => by
        -- An ownership is known by its id.
        have heq : o'.id = o.id := by simpa using hid'
        have hsame := (ownership?_eq_some_iff.2
          ⟨((mem_of_listOwnerships hlist).1 ho').1, heq⟩).symm.trans
            (ownership?_eq_some_iff.2 ⟨ho, rfl⟩)
        obtain rfl := Option.some.inj (Except.ok.inj hsame)
        exact hadd c hc
    rwa [addTo_withoutOwnership]

end Store

open Http Handler

namespace Http

open Store (SameHierarchy Spares)

variable {α β : Type} {v w : Service} {ps : Params} {r : Request} {op : Operation}

/-! ## Two services with one hierarchy -/

/-- **What the handler gives rests on the hierarchy alone.** -/
def Handler.Surveys (h : Handler α) : Prop :=
  ∀ v w : Service, SameHierarchy v.store w.store → (h.eval w).1 = (h.eval v).1

namespace Handler.Surveys

theorem pure (a : α) : Surveys (pure a) := fun _ _ _ => rfl

theorem throw (e : Reply) : Surveys (throw e : Handler α) := fun _ _ _ => rfl

theorem check (x : Except Reply α) : Surveys (check x) := fun _ _ _ => rfl

theorem load {message : String} {query : Store → Except Fault α}
    (hquery : ∀ s s', SameHierarchy s s' → query s' = query s) : Surveys (load message query) := by
  intro v w h
  rw [eval_load, eval_load, hquery _ _ h]

/-- What follows a handler that leaves the service meets the hierarchy that the handler met. -/
theorem bind {h : Handler α} {f : α → Handler β} (hh : Surveys h) (hleaves : Leaves h)
    (hf : ∀ a, Surveys (f a)) : Surveys (h >>= f) := by
  intro v w hsame
  rw [eval_bind, eval_bind, hleaves v, hleaves w, hh v w hsame]
  cases (h.eval v).1 with
  | error e => rfl
  | ok a => exact hf a v w hsame

theorem find {failed missing : String} {query : Store → Except Fault (Option α)}
    (hquery : ∀ s s', SameHierarchy s s' → query s' = query s) :
    Surveys (find failed missing query) := by
  refine .bind (.load hquery) (.load _ _) fun found => ?_
  cases found with
  | none => exact .throw _
  | some a => exact .pure a

end Handler.Surveys

/-- **Once it is known who asks, every operation of teams rests on the hierarchy alone.** -/
theorem exists_handler_surveys (hop : op.IsTeams) : ∃ f : Caller → Handler Reply,
    op.handler ps r = Caller.identify ps >>= f ∧ ∀ c, Surveys (f c) := by
  cases op with
  | authorizationCache => exact ⟨_, rfl, fun _ => .pure _⟩
  | listEnvironments =>
    refine ⟨_, rfl, fun _ => .bind (.load fun _ _ h => ?_) (.load _ _) fun _ => .pure _⟩
    rw [h.listEnvironments_eq]
  | listTenants =>
    refine ⟨_, rfl, fun _ => .bind (.check _) (.check _) fun _ => ?_⟩
    exact .bind (.load fun _ _ h => by rw [h.listTenants_eq]) (.load _ _) fun _ => .pure _
  | listOdss =>
    refine ⟨_, rfl, fun _ => .bind (.check _) (.check _) fun _ => ?_⟩
    exact .bind (.load fun _ _ h => by rw [h.listOdss_eq]) (.load _ _) fun _ => .pure _
  | listEdOrgs =>
    refine ⟨_, rfl, fun _ => .bind (.check _) (.check _) fun _ => ?_⟩
    exact .bind (.load fun _ _ h => by rw [h.listEdOrgs_eq]) (.load _ _) fun _ => .pure _
  | checkApplication =>
    refine ⟨_, rfl, fun _ => .bind (.check _) (.check _) fun _ => ?_⟩
    refine .bind (.check _) (.check _) fun _ => ?_
    refine .bind (.find fun _ _ h => by rw [h.tenant?_eq]) (.find _ _ _) fun _ => ?_
    refine .bind (.find fun _ _ h => by rw [h.environment?_eq]) (.find _ _ _) fun _ => ?_
    exact .bind (.check _) (.check _) fun _ => .pure _
  | _ => exact hop.elim

/-- However it ends, the handler leaves the store as it was. -/
def Handler.LeavesStore (h : Handler α) : Prop := ∀ v, (h.eval v).2.store = v.store

namespace Handler.LeavesStore

theorem of_leaves {h : Handler α} (hh : Leaves h) : LeavesStore h := fun v => by rw [hh v]

theorem bind {h : Handler α} {f : α → Handler β} (hh : LeavesStore h)
    (hf : ∀ a, LeavesStore (f a)) : LeavesStore (h >>= f) := by
  intro v
  rw [eval_bind]
  cases (h.eval v).1 with
  | error e => exact hh v
  | ok a => exact (hf a _).trans (hh v)

end Handler.LeavesStore

/-- To find out who asks leaves the store. -/
theorem leavesStore_identify (ps : Params) : LeavesStore (Caller.identify ps) := by
  unfold Caller.identify
  split
  · exact .of_leaves (.throw _)
  · refine .bind (.of_leaves (.check _)) fun id => ?_
    cases id with
    | none => exact .of_leaves (.throw _)
    | some id =>
      refine .bind (.of_leaves (.find _ _ _)) fun team => ?_
      refine .bind (fun _ => rfl) fun handle => ?_
      exact .of_leaves (.bind (.check _) fun _ => .bind (.check _) fun _ => .pure _)

/-- No operation of teams changes the store. -/
theorem leavesStore_handler (hop : op.IsTeams) : LeavesStore (op.handler ps r) := by
  obtain ⟨f, hf, hleaves⟩ : ∃ f, op.handler ps r = Caller.identify ps >>= f ∧ ∀ c, Leaves (f c) :=
    exists_handler_eq hop
  rw [hf]
  exact .bind (leavesStore_identify ps) fun c => .of_leaves (hleaves c)

/-- **Two services that give a team one cache know it alike.** -/
theorem eval_identify_fst {team : Team} (hv : v.store.HasTeam team) (hw : w.store.HasTeam team)
    (hps : Caller.pathId ps "team_id" = .ok (some team.id))
    (hsame : SameHierarchy v.store w.store) {hd hd' : Handle} (hx : (v.cache team.id).1 = .ok hd)
    (hy : (w.cache team.id).1 = .ok hd') (hcache : hd'.cache = hd.cache) :
    ((Caller.identify ps).eval w).1 = ((Caller.identify ps).eval v).1 := by
  cases htexts : ps.find? fun p => p.2.isNone with
  | some bad =>
    unfold Caller.identify
    rw [htexts]
    rfl
  | none =>
    have hrest (c : Cache) : Surveys (do
        let environment ← check (Caller.pathId ps "environment_id")
        let tenant ← check (Caller.pathId ps "tenant_id")
        return (⟨team, c, ⟨environment, tenant⟩⟩ : Caller)) :=
      .bind (.check _) (.check _) fun _ => .bind (.check _) (.check _) fun _ => .pure _
    rw [eval_identify_eq hv ⟨htexts, hps⟩, eval_identify_eq hw ⟨htexts, hps⟩,
      eval_bind_of_ok (eval_perform_of_ok (fun v => v.cache team.id) hx),
      eval_bind_of_ok (eval_perform_of_ok (fun v => v.cache team.id) hy), hcache]
    exact hrest hd.cache _ _ hsame

/-- What a handler gives or ends with is its reply. -/
theorem run_fst (h : Handler Reply) (v : Service) :
    (h.run v).1 = match (h.eval v).1 with | .ok reply | .error reply => reply := by
  rcases heval : h.eval v with ⟨_ | _, _⟩
  · rw [run_of_error heval]
  · rw [run_of_ok heval]

/-- **So they answer it alike.** -/
theorem run_handler_fst (hop : op.IsTeams) (hsame : SameHierarchy v.store w.store)
    (hcaller : ((Caller.identify ps).eval w).1 = ((Caller.identify ps).eval v).1) :
    ((op.handler ps r).run w).1 = ((op.handler ps r).run v).1 := by
  obtain ⟨f, hf, hsurveys⟩ : ∃ f, op.handler ps r = Caller.identify ps >>= f ∧ ∀ c, Surveys (f c) :=
    exists_handler_surveys hop
  have hstore : SameHierarchy ((Caller.identify ps).eval v).2.store
      ((Caller.identify ps).eval w).2.store := by
    rwa [leavesStore_identify, leavesStore_identify]
  have heval : ((op.handler ps r).eval w).1 = ((op.handler ps r).eval v).1 := by
    rw [hf, eval_bind, eval_bind, hcaller]
    cases ((Caller.identify ps).eval v).1 with
    | error e => rfl
    | ok c => exact hsurveys c _ _ hstore
  rw [run_fst, run_fst, heval]

/-- The request is for an operation of the team: its path and its method lead to one, under the id
of the team. -/
def Request.IsOf (r : Request) (team : TeamId) : Prop :=
  ∃ route ps op, findRoute r.target = some (route, ps) ∧ route.operation? r.method = some op ∧
    op.IsTeams ∧ Caller.pathId ps "team_id" = .ok (some team)

theorem Request.AsksFor.isOf {team : TeamId} (h : r.AsksFor team op) : r.IsOf team := by
  obtain ⟨hteams, route, ps, hroute, hop, hps⟩ := h
  exact ⟨route, ps, op, hroute, hop, hteams, hps.team⟩

/-- **The request touches nothing of the team's.** It may read whatever it likes, add teams and
roles, and add, replace or remove ownerships of other teams, but write no rows of the hierarchy. -/
def Request.Spares (r : Request) (v : Service) (team : TeamId) : Prop :=
  ∀ route ps op, findRoute r.target = some (route, ps) → route.operation? r.method = some op →
    match op with
    | .addEnvironment | .addTenant | .addOds | .addEdOrg | .rebuildClosure => False
    | .addOwnership => ∀ o, r.json NewOwnership.decode = .ok o → o.team ≠ team
    | .removeOwnership => ∀ o, v.store.HasOwnership o → ps.id "id" = .ok o.id → o.team ≠ team
    | .replaceOwnership =>
      (∀ o, v.store.HasOwnership o → ps.id "id" = .ok o.id → o.team ≠ team) ∧
        ∀ o, r.json NewOwnership.decode = .ok o → o.team ≠ team
    | _ => True

section Spared

variable {team : TeamId}

/-- What follows a handler that leaves the service is all that is done. -/
theorem spares_bind {h : Handler α} {f : α → Handler β} (hh : Leaves h)
    (hf : ∀ a, (h.eval v).1 = .ok a → Spares v.store ((f a).eval v).2.store team) :
    Spares v.store ((h >>= f).eval v).2.store team := by
  rw [eval_bind, hh v]
  cases hgiven : (h.eval v).1 with
  | error e => exact .refl _ _
  | ok a => exact hf a hgiven

/-- What adds a team or a role to the store spares every team. -/
theorem spares_withStore {written : Except Fault (α × Store)}
    (h : ∀ a s, written = .ok (a, s) → Spares v.store s team) :
    Spares v.store (v.withStore written).store team := by
  rcases Service.withStore_leaves v written with heq | ⟨a, s, hs, heq⟩
  · rw [heq]
    exact .refl _ _
  · rw [heq]
    exact h a s hs

theorem spares_addTeam (v : Service) (r : Request) :
    Spares v.store ((addTeam r).eval v).2.store team := by
  refine spares_bind (.check _) fun name _ => ?_
  dsimp only
  split
  · exact .refl _ _
  · rw [eval_extend_snd (fun s => s.createTeam _) (.addTeam _) (fun _ => rfl) (fun _ _ _ => rfl) v]
    exact spares_withStore fun _ _ hs => .createTeam hs

theorem spares_addRole (v : Service) (ps : Params) (r : Request) :
    Spares v.store ((addRole ps r).eval v).2.store team := by
  refine spares_bind (.check _) fun id _ => spares_bind (.check _) fun request _ => ?_
  refine spares_bind (.find _ _ _) fun _ _ => spares_bind (.check _) fun privileges _ => ?_
  rw [eval_extend_snd (fun s => s.createRole request.name (.team id) (Index.ofList privileges))
    (.addRole request.name (.team id) (Index.ofList privileges)) (fun _ => rfl)
    (fun _ _ _ => rfl) v]
  exact spares_withStore fun _ _ hs => .createRole hs

/-- What teams ask. -/
theorem spares_teams (hop : op.IsTeams) :
    Spares v.store ((op.handler ps r).eval v).2.store team := by
  rw [leavesStore_handler hop]
  exact .refl _ _

/-- A new ownership of another team. -/
theorem spares_addOwnership (hnew : ∀ o, r.json NewOwnership.decode = .ok o → o.team ≠ team) :
    Spares v.store ((addOwnership r).eval v).2.store team := by
  refine spares_bind (.check _) fun new hjson => ?_
  rw [eval_perform_bind_snd (fun v => v.addOwnership new) fun _ _ => rfl]
  rcases Service.addOwnership_leaves v new with heq | ⟨created, s, hs, heq⟩
  · rw [heq]
    exact .refl _ _
  · rw [heq]
    exact .createOwnership hs (hnew new hjson)

/-- An ownership of another team less. -/
theorem spares_removeOwnership
    (hold : ∀ o, v.store.HasOwnership o → ps.id "id" = .ok o.id → o.team ≠ team) :
    Spares v.store ((removeOwnership ps).eval v).2.store team := by
  refine spares_bind (.check _) fun id hid => ?_
  rw [eval_perform_bind_snd (fun v => v.removeOwnership id) fun deleted _ => by
    cases deleted <;> rfl]
  rcases Service.removeOwnership_leaves v id with heq | ⟨o, s, ho, rfl, hs, heq⟩
  · rw [heq]
    exact .refl _ _
  · rw [heq]
    exact .deleteOwnership hs ho rfl (hold o ho hid)

/-- An ownership of another team for another of such a team. -/
theorem spares_replaceOwnership
    (hold : ∀ o, v.store.HasOwnership o → ps.id "id" = .ok o.id → o.team ≠ team)
    (hnew : ∀ o, r.json NewOwnership.decode = .ok o → o.team ≠ team) :
    Spares v.store ((replaceOwnership ps r).eval v).2.store team := by
  refine spares_bind (.check _) fun id hid => spares_bind (.check _) fun new hjson => ?_
  rw [eval_perform_bind_snd (fun v => v.replaceOwnership id new) fun _ _ => rfl]
  rcases Service.replaceOwnership_leaves v id new with heq | ⟨o, created, s, ho, rfl, hs, heq⟩
  · rw [heq]
    exact .refl _ _
  · rw [heq]
    obtain ⟨s₁, hadd, hdelete⟩ := Store.replaceOwnership_eq_ok_iff.1 hs
    exact (Spares.createOwnership hadd (hnew new hjson)).trans
      (.deleteOwnership hdelete (ho.createOwnership hadd) rfl (hold o ho hid))

end Spared

end Http

namespace Service

variable {v w : Service} {r : Request} {team : TeamId} {mode : CacheMode}

open Store (Spares)

/-- **A request that touches nothing of a team's leaves all that the team is answered from.** -/
theorem spares_answer (h : r.Spares v team) : Spares v.store (v.answer r).2.store team := by
  cases hroute : findRoute r.target with
  | none =>
    rw [answer, hroute]
    exact .refl _ _
  | some found =>
    obtain ⟨route, ps⟩ := found
    cases hop : route.operation? r.method with
    | none =>
      simp only [answer, hroute, hop]
      exact .refl _ _
    | some op =>
      rw [answer_snd hroute hop]
      have hspares := h route ps op hroute hop
      cases op with
      | health => exact .refl _ _
      | authorizationCache | listEnvironments | listTenants | listOdss | listEdOrgs
      | checkApplication =>
        exact spares_teams trivial
      | addEnvironment | addTenant | addOds | addEdOrg | rebuildClosure => exact hspares.elim
      | addTeam => exact spares_addTeam v r
      | addRole => exact spares_addRole v ps r
      | addOwnership => exact spares_addOwnership hspares
      | removeOwnership => exact spares_removeOwnership hspares
      | replaceOwnership => exact spares_replaceOwnership hspares.1 hspares.2

/-- A team's own requests leave the store. -/
theorem store_answer_of_isOf (hr : r.IsOf team) : (v.answer r).2.store = v.store := by
  obtain ⟨route, ps, op, hroute, hop, hteams, -⟩ := hr
  rw [answer_snd hroute hop, leavesStore_handler hteams]

/-- **What becomes of a service by requests that touch nothing of a team's**, while time passes. -/
inductive Aside (team : TeamId) (v : Service) : Service → Prop
  | start : Aside team v v
  | clock {w : Service} (now : Timestamp) : Aside team v w → Aside team v (w.step (.clock now))
  | answer {w : Service} (r : Request) : Aside team v w → r.Spares w team →
      Aside team v (w.answer r).2

namespace Aside

/-- A service that was asked more was only asked. -/
theorem served (hv : Served mode v) (h : Aside team v w) : Served mode w := by
  induction h with
  | start => exact hv
  | clock now _ ih => exact .clock now ih
  | answer r _ _ ih => exact .answer r ih

/-- All that the team is answered from stays. -/
theorem spares (h : Aside team v w) : Spares v.store w.store team := by
  induction h with
  | start => exact .refl _ _
  | clock now _ ih => exact ih.trans (.withNow now)
  | answer r _ hr ih => exact ih.trans (spares_answer hr)

end Aside

/-- **Two services from which a team is answered alike answer it alike.** -/
theorem answer_fst_eq {team : Team} (hv : Served mode v) (hw : Served mode w)
    (hteam : v.store.HasTeam team) (h : Spares v.store w.store team.id) (hr : r.IsOf team.id) :
    (w.answer r).1 = (v.answer r).1 := by
  obtain ⟨route, ps, op, hroute, hop, hteams, hps⟩ := hr
  obtain ⟨hd, hx, hbuild⟩ := hv.coherent.exists_handle hv.sound team.id
  obtain ⟨hd', hy, hbuild'⟩ := hw.coherent.exists_handle hw.sound team.id
  have hcache : hd'.cache = hd.cache :=
    Except.ok.inj (hbuild'.symm.trans (h.builds _ hbuild))
  have hcaller := eval_identify_fst hteam (h.teams team hteam) hps h.hierarchy hx hy hcache
  rw [answer_eq hroute hop, answer_eq hroute hop, run_handler_fst hteams h.hierarchy hcaller]

/-- **A team sees nothing of what others do.** Whatever a service was asked before, and in whatever
order teams and roles are then added, ownerships of other teams added, replaced and removed, and any
team's data read, a stored team gets for each of its requests the reply that it would have got
before. And on any store its cache is what it would be without a row that names a role of another
team. -/
theorem others_leave_answers :
    (∀ mode v team w, Served mode v → v.store.HasTeam team → Aside team.id v w →
      ∀ r, r.IsOf team.id → (w.answer r).1 = (v.answer r).1) ∧
    ∀ (s : Store) o role owner, s.HasOwnership o → s.HasRole role → role.id = o.role →
      role.scope = .team owner → owner ≠ o.team →
      (s.withoutOwnership o.id).buildCache o.team = s.buildCache o.team := by
  refine ⟨fun mode v team w hv hteam h r hr => ?_, fun s o role owner ho hrole hid hscope hne => ?_⟩
  · exact answer_fst_eq hv (h.served hv) hteam h.spares hr
  · exact Store.buildCache_withoutOwnership ho hrole hid hscope hne

/-- A store with a team that holds a role of another one. -/
def withForeignRole : Store :=
  { withTornRole with roles := some ⟨Index.single ⟨2, .text "Reader", some (.int 5)⟩, 2⟩ }

/-- Another team is added, and is given everything; the first team is listed its one environment,
the same as before. And a team whose one role is for another team has no more than a team without
any. -/
theorem wardens_see_no_other :
    (∃ w, Aside 1 twinned w ∧ w.store.HasTeam ⟨2, "Rangers"⟩ ∧ (listing .get).IsOf 1 ∧
      (twinned.answer (listing .get)).1 = listed Environment.toJson [⟨1, "East", .v1⟩] ∧
      (w.answer (listing .get)).1 = (twinned.answer (listing .get)).1) ∧
    withForeignRole.HasOwnership ⟨1, 1, 2, .global, .epoch⟩ ∧
      (withForeignRole.withoutOwnership 1).buildCache 1 = withForeignRole.buildCache 1 := by
  obtain ⟨hserved, htwins⟩ := twinned_spec
  have hname : Decode.text decodeTeamName "[\"Rangers\"]".toList = .ok "Rangers" := by
    decide +kernel
  have howned : Decode.text NewOwnership.decode "[2,1,[\"global\",null]]".toList =
      .ok ⟨2, 1, .global⟩ := by decide +kernel
  have hfirst : (post "teams" "[\"Rangers\"]").Spares twinned 1 := by
    intro route ps op hroute hop
    have hc : ("teams", Operation.addTeam) ∈ collections := by simp [collections]
    cases (findRoute_post hc _).symm.trans hroute
    cases hop
    trivial
  have hadded :
      (twinned.answer (post "teams" "[\"Rangers\"]")).2.store.HasTeam ⟨2, "Rangers"⟩ := by
    have hnext : (Numbered.empty.push ⟨1, .text "Wardens"⟩ : Numbered TeamRow.id).next? =
        some 2 := by decide
    have hnew : ∀ u ∈ (Numbered.empty.push ⟨1, .text "Wardens"⟩ : Numbered TeamRow.id).rows.rows,
        u.name ≠ .text "Rangers" := by decide
    rw [answer_post_team (by decide) hname (by decide) (by decide),
      step_addTeam_of_new htwins.teams hnext hnew]
    exact ⟨_, rfl, Index.mem_insert.2 (.inl rfl)⟩
  have hsecond (v : Service) : (post "ownerships" "[2,1,[\"global\",null]]").Spares v 1 := by
    intro route ps op hroute hop
    have hc : ("ownerships", Operation.addOwnership) ∈ collections := by simp [collections]
    cases (findRoute_post hc _).symm.trans hroute
    cases hop
    intro o ho
    obtain rfl := Except.ok.inj ((json_post howned (by decide)).symm.trans ho)
    decide
  obtain ⟨w, haside, hrangers⟩ : ∃ w, Aside 1 twinned w ∧ w.store.HasTeam ⟨2, "Rangers"⟩ :=
    ⟨_, .answer _ (.answer _ .start hfirst) (hsecond _), (spares_answer (hsecond _)).teams _ hadded⟩
  have hasked : (listing .get).IsOf 1 := listing_asksFor.isOf
  have hlisted : (twinned.answer (listing .get)).1 =
      listed Environment.toJson [⟨1, "East", .v1⟩] := by
    have hone : IsId ['1'] 1 := ⟨"1", by decide, by decide⟩
    exact (lists_environments hserved htwins.team rfl hone (by decide)).eq_listed fun e =>
      htwins.reads_environment_iff hserved.sound e
  have howns : withForeignRole.HasOwnership ⟨1, 1, 2, .global, .epoch⟩ :=
    ⟨_, rfl, _, Index.mem_single.2 rfl, rfl⟩
  have hrole : withForeignRole.HasRole ⟨2, "Reader", .team 5, Index.ofList [.environmentRead]⟩ :=
    ⟨_, rfl, _, Index.mem_single.2 rfl, rfl⟩
  obtain ⟨hsame, hforeign⟩ := others_leave_answers
  refine ⟨⟨w, haside, hrangers, hasked, hlisted, ?_⟩, howns, ?_⟩
  · exact hsame _ _ ⟨1, "Wardens"⟩ w hserved htwins.team haside _ hasked
  · exact hforeign withForeignRole ⟨1, 1, 2, .global, .epoch⟩ _ 5 howns hrole rfl rfl (by decide)

end Service

end TeamAccess
