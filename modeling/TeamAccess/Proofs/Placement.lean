import TeamAccess.Proofs.Answers
import TeamAccess.Proofs.Applications
import TeamAccess.Proofs.Descent
import TeamAccess.Proofs.Refusals
import TeamAccess.Proofs.RoundTrip

/-!
# Placement — what comes of posting a row of the hierarchy

An insertion that breaks any constraint, a reference to a missing row included, is reported as a row
that is there already. That this is right rests on what is asked before: on a store that requests
have filled, the questions leave no constraint to an insertion but those on the row's own place. So
a row is refused (400) just if what it names above itself is not there, it is in conflict (409) just
if a stored row is in its place, and otherwise it is added (201), and nothing else with it but the
closure rows of a new organization (`Service.posts_are_exact`). A body that is too long to be read
is refused before all of this (413).
-/

namespace TeamAccess

open Http Handler

namespace Store

variable {s s₁ s' : Store} {x : EdOrg}

/-! ## Tables that gain rows -/

/-- **The second table has what the first has and these rows more**, which the first lacks. -/
def Gains {ρ κ : Type} [Ord κ] {key : ρ → κ} (t t' : Option (Index key)) (P : ρ → Prop) : Prop :=
  ∃ u u', t = some u ∧ t' = some u' ∧ (∀ r, r ∈ u' ↔ r ∈ u ∨ P r) ∧ ∀ r, P r → ¬ r ∈ u

/-- A table gains a row that is inserted under a free key. -/
theorem gains_insert {ρ : Type} {key : ρ → Int64} {t : Option (Index key)} {u : Index key} {r : ρ}
    (ht : t = some u) (hfree : u.hasKey (key r) = false) :
    Gains t (some (u.insert r)) (· = r) := by
  have hother := Index.hasKey_eq_false_iff.1 hfree
  refine ⟨u, _, ht, rfl, fun r' => ?_, ?_⟩
  · rw [Index.mem_insert]
    constructor
    · rintro (rfl | ⟨hr', -⟩)
      · exact .inr rfl
      · exact .inl hr'
    · rintro (hr' | rfl)
      · exact .inr ⟨hr', hother r' hr'⟩
      · exact .inl rfl
  · rintro _ rfl hr
    exact hother _ hr rfl

namespace Settled

/-- The closure says of an organization what it said while organizations are only added. -/
theorem mem_closure_of_grows (h : s.Settled) (h' : s'.Settled)
    (hgrows : ∀ y, s.HasEdOrg y → s'.HasEdOrg y) {c c' : Index ClosureRow.ends}
    (hc : s.closure = some c) (hc' : s'.closure = some c') (hx : s.HasEdOrg x) {r : ClosureRow}
    (hr : r.descendant = .int x.id) : r ∈ c' ↔ r ∈ c := by
  obtain ⟨t, ht, d, hd, hbefore⟩ := h.current x hx
  obtain ⟨t', ht', d', hd', hafter⟩ := h'.current x (hgrows x hx)
  obtain rfl := Option.some.inj (hc.symm.trans hd)
  obtain rfl := Option.some.inj (hc'.symm.trans hd')
  rw [hafter r hr, hbefore r hr, h.sound.closureRows_eq ht ht' hgrows hx]

/-- **A new organization adds its walk to the closure.** -/
theorem gains_closure (h : s.Settled) (hparent : s.ParentIn x) (hadd : s.createEdOrg x = .ok s₁)
    (hok : s₁.rebuildClosure x.ods = .ok s') : Gains s.closure s'.closure (s'.WalkRow x) := by
  have h' : s'.Settled := h.addEdOrg hparent hadd hok
  obtain ⟨c, hc, -⟩ := h.sound.closure
  obtain ⟨c', hc', -⟩ := h'.sound.closure
  have hhas : ∀ y, s'.HasEdOrg y ↔ y = x ∨ s.HasEdOrg y := fun y =>
    (hasEdOrg_rebuildClosure_iff hok).trans (hasEdOrg_createEdOrg_iff hadd)
  have hx : s'.HasEdOrg x := (hhas x).2 (.inl rfl)
  have hgrows : ∀ y, s.HasEdOrg y → s'.HasEdOrg y := fun y hy => (hhas y).2 (.inr hy)
  have hwalk : ∀ r, s'.WalkRow x r → r.descendant = .int x.id := by
    rintro _ ⟨_, -, _, -, rfl⟩
    rfl
  refine ⟨c, c', hc, hc', fun r => ⟨fun hr => ?_, ?_⟩, fun r hr hmem => ?_⟩
  · obtain ⟨_, y, -, hy, -, -, hdescendant⟩ := h'.sound.closure.of_mem hc' hr
    rcases (hhas y).1 hy with rfl | hy
    · exact .inr ((h'.mem_closure_iff hc' hx hdescendant).1 hr)
    · exact .inl ((h.mem_closure_of_grows h' hgrows hc hc' hy hdescendant).1 hr)
  · rintro (hr | hr)
    · obtain ⟨_, y, -, hy, -, -, hdescendant⟩ := h.sound.closure.of_mem hc hr
      exact (h.mem_closure_of_grows h' hgrows hc hc' hy hdescendant).2 hr
    · exact (h'.mem_closure_iff hc' hx (hwalk r hr)).2 hr
  · -- The closure was of stored organizations, and the new one was not stored.
    obtain ⟨_, y, -, ⟨u, hu, hy⟩, -, -, hdescendant⟩ := h.sound.closure.of_mem hc hmem
    obtain ⟨t, ht, _, -, hfree, -⟩ := createEdOrg_eq_ok_iff.1 hadd
    obtain rfl := Option.some.inj (ht.symm.trans hu)
    rw [hwalk r hr] at hdescendant
    exact Index.hasKey_eq_false_iff.1 hfree y.row hy (IntCell.int.inj hdescendant).symm

end Settled

end Store

/-! ## Rows and their places -/

/-- A row of the hierarchy that is to be added. -/
inductive NewRow where
  | environment (e : Environment)
  | tenant (t : Tenant)
  | ods (o : Ods)
  | edOrg (x : EdOrg)

namespace NewRow

open Store (Gains)

/-- **What the row names above itself is there**, and the parent of an organization is in the
organization's own ODS. -/
def Placed (s : Store) : NewRow → Prop
  | environment _ => True
  | tenant t => ∃ e, s.HasEnvironment e ∧ e.id = t.environment
  | ods o => ∃ t, s.HasTenant t ∧ t.id = o.tenant
  | edOrg x => (∃ o, s.HasOds o ∧ o.id = x.ods) ∧ s.ParentIn x

/-- **A stored row of the table is in the row's place**: it has its id, or it is a tenant of that
name in the environment, or that education organization in the ODS. -/
def Taken (s : Store) : NewRow → Prop
  | environment e => ∃ e', s.HasEnvironment e' ∧ e'.id = e.id
  | tenant t => ∃ t', s.HasTenant t' ∧
      (t'.id = t.id ∨ t'.environment = t.environment ∧ t'.name = t.name)
  | ods o => ∃ o', s.HasOds o' ∧ o'.id = o.id
  | edOrg x => ∃ x', s.HasEdOrg x' ∧
      (x'.id = x.id ∨ x'.ods = x.ods ∧ x'.organization = x.organization)

/-- **The second store is the first with the row**, and with the walk of an organization. -/
def AddedTo (s s' : Store) : NewRow → Prop
  | environment e => Gains s.environments s'.environments (· = e.row) ∧
      s' = { s with environments := s'.environments }
  | tenant t => Gains s.tenants s'.tenants (· = t.row) ∧ s' = { s with tenants := s'.tenants }
  | ods o => Gains s.odss s'.odss (· = o.row) ∧ s' = { s with odss := s'.odss }
  | edOrg x => Gains s.edOrgs s'.edOrgs (· = x.row) ∧
      Gains s.closure s'.closure (s'.WalkRow x) ∧
      s' = { s with edOrgs := s'.edOrgs, closure := s'.closure }

/-- Adds the row. -/
def add (v : Service) : NewRow → Service.Outcome Unit
  | environment e => v.addEnvironment e
  | tenant t => v.addTenant t
  | ods o => v.addOds o
  | edOrg x => v.addEdOrg x

/-! ## Insertions -/

/-- **The insertion goes by the row's place**: it is refused as known if the place is taken, and
adds the row if not. -/
structure DecidedBy (s : Store) (row : NewRow) (created : Except Fault Store) : Prop where
  known : row.Taken s → created = .error .alreadyExists
  added : ¬ row.Taken s → ∃ s', created = .ok s' ∧ row.AddedTo s s'

/-- An insertion that is refused as known only, and only if the place is taken, goes by it. -/
theorem DecidedBy.of_known {s : Store} {row : NewRow} {created : Except Fault Store}
    (hknown : FailsOnly created (· = .alreadyExists)) (htaken : row.Taken s → ¬ Succeeds created)
    (hadded : ¬ row.Taken s → ∃ s', created = .ok s' ∧ row.AddedTo s s') :
    row.DecidedBy s created where
  known h := by
    obtain ⟨_, rfl, hcreated⟩ := hknown.exists_error (htaken h)
    exact hcreated
  added := hadded

section Insertions

variable {s : Store} (h : s.Sound)
include h

theorem decidedBy_createEnvironment (e : Environment) :
    (environment e).DecidedBy s (s.createEnvironment e) := by
  obtain ⟨t, ht, -⟩ := h.environments
  refine .of_known (h.known_createEnvironment e) ?taken fun hfree => ?free
  case taken =>
    rintro ⟨e', ⟨t', ht', hmem⟩, hid⟩ ⟨s', hs'⟩
    obtain ⟨u, hu, hfree, -⟩ := Store.createEnvironment_eq_ok_iff.1 hs'
    obtain rfl := Option.some.inj (ht'.symm.trans hu)
    exact Index.hasKey_eq_false_iff.1 hfree _ hmem hid
  case free =>
    have hkey : t.hasKey e.id = false := by
      refine Index.hasKey_eq_false_iff.2 fun _ hr hid => hfree ?_
      obtain ⟨e', rfl⟩ := h.environments.of_mem ht hr
      exact ⟨e', ⟨t, ht, hr⟩, hid⟩
    refine ⟨_, Store.createEnvironment_eq_ok_iff.2 ⟨t, ht, hkey, rfl⟩, ?_, rfl⟩
    exact Store.gains_insert ht hkey

theorem decidedBy_createTenant {t : Tenant} (hplaced : (tenant t).Placed s) :
    (tenant t).DecidedBy s (s.createTenant t) := by
  obtain ⟨e, he, hid⟩ := hplaced
  obtain ⟨u, hu, -⟩ := h.tenants
  refine .of_known (h.known_createTenant t) ?taken fun hfree => ?free
  case taken =>
    rintro ⟨t', ⟨u', hu', hmem⟩, hplace⟩ ⟨s', hs'⟩
    obtain ⟨u'', hu'', -, -, hkey, hname, -⟩ := Store.createTenant_eq_ok_iff.1 hs'
    obtain rfl := Option.some.inj (hu'.symm.trans hu'')
    rcases hplace with hid | ⟨henvironment, hsame⟩
    · exact Index.hasKey_eq_false_iff.1 hkey _ hmem hid
    · exact hname _ hmem (IntCell.equals_int.2 henvironment) (congrArg _ hsame)
  case free =>
    have hkey : u.hasKey t.id = false := by
      refine Index.hasKey_eq_false_iff.2 fun _ hr hid => hfree ?_
      obtain ⟨t', rfl, -⟩ := h.tenants.of_mem hu hr
      exact ⟨t', ⟨u, hu, hr⟩, .inl hid⟩
    have hname : ∀ r ∈ u.rows, r.environment.equals t.environment = true →
        r.name ≠ .text t.name := by
      intro r hr henvironment hsame
      obtain ⟨t', rfl, -⟩ := h.tenants.of_mem hu hr
      exact hfree ⟨t', ⟨u, hu, hr⟩,
        .inr ⟨IntCell.equals_int.1 henvironment, TextCell.text.inj hsame⟩⟩
    refine ⟨_, Store.createTenant_of_new hu he hid hkey hname, ?_, rfl⟩
    exact Store.gains_insert hu hkey

theorem decidedBy_createOds {o : Ods} (hplaced : (ods o).Placed s) :
    (ods o).DecidedBy s (s.createOds o) := by
  obtain ⟨t, ht, hid⟩ := hplaced
  obtain ⟨u, hu, -⟩ := h.odss
  refine .of_known (h.known_createOds o) ?taken fun hfree => ?free
  case taken =>
    rintro ⟨o', ⟨u', hu', hmem⟩, hid⟩ ⟨s', hs'⟩
    obtain ⟨u'', hu'', -, -, hkey, -⟩ := Store.createOds_eq_ok_iff.1 hs'
    obtain rfl := Option.some.inj (hu'.symm.trans hu'')
    exact Index.hasKey_eq_false_iff.1 hkey _ hmem hid
  case free =>
    have hkey : u.hasKey o.id = false := by
      refine Index.hasKey_eq_false_iff.2 fun _ hr hid => hfree ?_
      obtain ⟨o', rfl, -⟩ := h.odss.of_mem hu hr
      exact ⟨o', ⟨u, hu, hr⟩, hid⟩
    refine ⟨_, Store.createOds_of_new hu ht hid hkey, ?_, rfl⟩
    exact Store.gains_insert hu hkey

end Insertions

/-- **An organization's insertion goes by its place**, together with the rebuild that follows, which
does not fail. -/
theorem decidedBy_createEdOrg {s : Store} (h : s.Settled) {x : EdOrg}
    (hplaced : (edOrg x).Placed s) : (edOrg x).DecidedBy s
      (s.createEdOrg x >>= fun s₁ => s₁.rebuildClosure x.ods) := by
  obtain ⟨⟨o, ho, hid⟩, hparent⟩ := hplaced
  obtain ⟨u, hu, -⟩ := h.sound.edOrgs
  have hrebuild {s₁ : Store} (hs₁ : s.createEdOrg x = .ok s₁) :
      Succeeds (s₁.rebuildClosure x.ods) :=
    (h.sound.createEdOrg hparent hs₁).exists_rebuildClosure x.ods
  refine .of_known (.bind (h.sound.known_createEdOrg x) fun _ hs₁ => .of_succeeds (hrebuild hs₁))
    ?taken fun hfree => ?free
  case taken =>
    rintro ⟨x', ⟨u', hu', hmem⟩, hplace⟩ hsucceeds
    obtain ⟨s₁, hs₁⟩ := (succeeds_bind_iff.1 hsucceeds).1
    obtain ⟨u'', hu'', -, -, hkey, hnew, -⟩ := Store.createEdOrg_eq_ok_iff.1 hs₁
    obtain rfl := Option.some.inj (hu'.symm.trans hu'')
    rcases hplace with hid | ⟨hods, horganization⟩
    · exact Index.hasKey_eq_false_iff.1 hkey _ hmem hid
    · have hother := hnew _ hmem (IntCell.equals_int.2 hods)
      exact Bool.eq_false_iff.1 hother (IntCell.equals_int.2 horganization)
  case free =>
    have hkey : u.hasKey x.id = false := by
      refine Index.hasKey_eq_false_iff.2 fun _ hr hid => hfree ?_
      obtain ⟨x', rfl, -⟩ := h.sound.edOrgs.of_mem hu hr
      exact ⟨x', ⟨u, hu, hr⟩, .inl hid⟩
    have hnew : ∀ r ∈ u.rows, r.ods.equals x.ods = true →
        r.organization.equals x.organization = false := by
      intro r hr hods
      obtain ⟨x', rfl, -⟩ := h.sound.edOrgs.of_mem hu hr
      refine Bool.eq_false_iff.2 fun horganization => hfree ?_
      exact ⟨x', ⟨u, hu, hr⟩, .inr ⟨IntCell.equals_int.1 hods, IntCell.equals_int.1 horganization⟩⟩
    have hadd := Store.createEdOrg_of_new hu ho hid hparent hkey hnew
    obtain ⟨s', hs'⟩ := hrebuild hadd
    have hclosure := h.gains_closure hparent hadd hs'
    obtain ⟨_, -, c, -, -, rfl⟩ := Store.rebuildClosure_eq_ok_iff.1 hs'
    exact ⟨_, bind_eq_ok_iff.2 ⟨_, hadd, hs'⟩, Store.gains_insert hu hkey, hclosure, rfl⟩

/-! ## Additions -/

/-- **What comes of adding a row**: a fault of the request without what the row names above itself,
a conflict with a row in its place, or the addition. -/
inductive Fate (v : Service) (row : NewRow) : Service.Outcome Unit → Prop
  | unplaced {fault : Fault} : ¬ row.Placed v.store → fault.Blames → Fate v row (.error fault, v)
  | taken : row.Placed v.store → row.Taken v.store → Fate v row (.error .alreadyExists, v)
  | added {s : Store} : row.Placed v.store → ¬ row.Taken v.store → row.AddedTo v.store s →
      Fate v row (.ok (), v.afterWrite s)

/-- A write that asks for what the row names, and then goes by the row's place, comes to this. -/
theorem Fate.commit {α : Type} {v : Service} {row : NewRow} {placed : Except Fault α}
    {created : Except Fault Store} (hplaced : Succeeds placed ↔ row.Placed v.store)
    (hblames : FailsOnly placed Fault.Blames)
    (hdecided : row.Placed v.store → row.DecidedBy v.store created) :
    Fate v row (v.commit (placed >>= fun _ => created)) := by
  by_cases hrow : row.Placed v.store
  · obtain ⟨a, rfl⟩ := hplaced.2 hrow
    by_cases htaken : row.Taken v.store
    · rw [(hdecided hrow).known htaken]
      exact .taken hrow htaken
    · obtain ⟨s, rfl, hadded⟩ := (hdecided hrow).added htaken
      exact .added hrow htaken hadded
  · obtain ⟨fault, hfault, rfl⟩ := hblames.exists_error fun hsucceeds => hrow (hplaced.1 hsucceeds)
    exact .unplaced hrow hfault

/-- **To add a row comes to this**, whatever kind of row it is. -/
theorem fate_add {v : Service} (h : v.store.Settled) (row : NewRow) : Fate v row (row.add v) := by
  cases row with
  | environment e =>
    -- There is nothing to ask for before an environment is inserted.
    have hadd : (environment e).add v =
        v.commit ((pure () : Except Fault Unit) >>= fun _ => v.store.createEnvironment e) := rfl
    rw [hadd]
    exact .commit ⟨fun _ => trivial, fun _ => .pure ()⟩ (.ok ()) fun _ =>
      decidedBy_createEnvironment h.sound e
  | tenant t =>
    refine .commit ⟨?_, ?_⟩ (Service.blames_parent (h.sound.succeeds_environment? _))
      (decidedBy_createTenant h.sound)
    · rintro ⟨e, he⟩
      exact ⟨e, Store.environment?_eq_some_iff.1 (Service.parent_eq_ok_iff.1 he)⟩
    · rintro ⟨e, he⟩
      exact ⟨e, Service.parent_eq_ok_iff.2 (Store.environment?_eq_some_iff.2 he)⟩
  | ods o =>
    refine .commit ⟨?_, ?_⟩ (Service.blames_parent (h.sound.succeeds_tenant? _))
      (decidedBy_createOds h.sound)
    · rintro ⟨t, ht⟩
      exact ⟨t, Store.tenant?_eq_some_iff.1 (Service.parent_eq_ok_iff.1 ht)⟩
    · rintro ⟨t, ht⟩
      exact ⟨t, Service.parent_eq_ok_iff.2 (Store.tenant?_eq_some_iff.2 ht)⟩
  | edOrg x =>
    rw [add, Service.addEdOrg_eq_commit h.sound, Service.withEdOrg]
    refine .commit ⟨?_, ?_⟩ (Service.blames_checkEdOrg h.sound x) (decidedBy_createEdOrg h)
    · rintro ⟨u, hu⟩
      exact Service.checkEdOrg_eq_ok_iff.1 hu
    · intro hplaced
      exact ⟨(), Service.checkEdOrg_eq_ok_iff.2 hplaced⟩

/-! ## Requests -/

/-- The collection that the row is posted to. -/
def collection : NewRow → String
  | environment _ => "environments"
  | tenant _ => "tenants"
  | ods _ => "odss"
  | edOrg _ => "edorgs"

/-- What is asked for there. -/
def operation : NewRow → Operation
  | environment _ => .addEnvironment
  | tenant _ => .addTenant
  | ods _ => .addOds
  | edOrg _ => .addEdOrg

theorem mem_collections (row : NewRow) : (row.collection, row.operation) ∈ Service.collections := by
  cases row <;> simp [Service.collections, collection, operation]

/-- The request says the row. -/
def SaidBy (r : Request) : NewRow → Prop
  | environment e => r.Says Environment.decode e
  | tenant t => r.Says Tenant.decode t
  | ods o => r.Says Ods.decode o
  | edOrg x => r.Says EdOrg.decode x

/-- **The request posts the row**, however its target and its body are written. -/
structure PostedBy (row : NewRow) (r : Request) : Prop where
  method : r.method = .post
  path : pathSegments r.target = some (Service.collectionPath row.collection)
  body : row.SaidBy r

/-- The status of the reply to an addition. -/
def status : Except Fault Unit → Nat
  | .ok _ => 201
  | .error fault => (writeFault "" fault).status

/-- The message of a reply to a fault has no say in its status. -/
theorem status_writeFault (message : String) (fault : Fault) :
    (writeFault message fault).status = status (.error fault) := by
  cases fault <;> rfl

/-- **A posted row is added, and the reply is that of the addition**; or its body is too long, and
then it is not looked at. -/
theorem answer_written {α : Type} {v : Service} {r : Request} {c : String} {op : Operation}
    {dec : Decoder α} {toJson : α → Json} {message : String}
    {add : Service → α → Service.Outcome Unit} (hc : (c, op) ∈ Service.collections)
    (hop : op.handler [] r = written r dec toJson message add) (hmethod : r.method = .post)
    (hpath : pathSegments r.target = some (Service.collectionPath c)) {row : α}
    (hsaid : r.Says dec row) :
    (¬ r.Fits → v.answer r = (.bare 413, v)) ∧
      (r.Fits → (v.answer r).1.status = status (add v row).1 ∧
        (v.answer r).2 = (add v row).2) := by
  have hroute := Service.findRoute_of_collection hc hpath
  have hhead : r.method ≠ .head := by simp [hmethod]
  have hoffered : (⟨adminPath [.lit c], [(.post, op)]⟩ : Route).operation? r.method = some op := by
    rw [hmethod]
    rfl
  constructor
  · intro hlong
    have heval : (op.handler [] r).eval v = (.error (.bare 413), v) := by
      rw [hop, written, hsaid.json_of_not_fits hlong, eval_bind_of_error (eval_check _)]
    exact Service.answer_of_eval_error hroute hhead hoffered heval
  · intro hfits
    have heval : (op.handler [] r).eval v =
        ((perform (writeFault message) fun v => add v row) >>= fun _ =>
          pure (Reply.data 201 (toJson row))).eval v := by
      rw [hop, written, hsaid.json_of_fits hfits, eval_bind_of_ok (eval_check _)]
    rcases hadd : (add v row).1 with fault | u
    · have hperform : (perform (writeFault message) fun v => add v row).eval v =
          (.error (writeFault message fault), (add v row).2) := by
        rw [eval_perform, hadd]
        rfl
      rw [eval_bind_of_error hperform] at heval
      rw [Service.answer_of_eval_error hroute hhead hoffered heval]
      exact ⟨status_writeFault message fault, rfl⟩
    · rw [eval_bind_of_ok (eval_perform_of_ok (fun v => add v row) hadd)] at heval
      rw [Service.answer_of_eval hroute hhead hoffered heval]
      exact ⟨rfl, rfl⟩

/-- **Posting a row is adding it**, if the body can be read. -/
theorem PostedBy.answer {row : NewRow} {r : Request} (h : row.PostedBy r) (v : Service) :
    (¬ r.Fits → v.answer r = (.bare 413, v)) ∧
      (r.Fits → (v.answer r).1.status = status (row.add v).1 ∧
        (v.answer r).2 = (row.add v).2) := by
  have hc := row.mem_collections
  cases row with
  | environment e => exact answer_written hc rfl h.method h.path h.body
  | tenant t => exact answer_written hc rfl h.method h.path h.body
  | ods o => exact answer_written hc rfl h.method h.path h.body
  | edOrg x => exact answer_written hc rfl h.method h.path h.body

/-- The value that is written for the row. -/
def toJson : NewRow → Json
  | environment e => e.toJson
  | tenant t => t.toJson
  | ods o => o.toJson
  | edOrg x => x.toJson

/-- **Every row is said by a request**: that with the text that is written for the row. -/
theorem exists_postedBy (row : NewRow) :
    ∃ r, row.PostedBy r ∧ r.body = String.ofList row.toJson.compact := by
  have hlayout : Json.compact ∈ [Json.compact, Json.pretty] := by simp
  have htext : (String.ofList row.toJson.compact).toList = row.toJson.compact :=
    String.toList_ofList
  refine ⟨Service.post row.collection (String.ofList row.toJson.compact), ⟨rfl,
    Service.pathSegments_post row.mem_collections _, ?_⟩, rfl⟩
  generalize String.ofList row.toJson.compact = body at htext
  cases row with
  | environment e => exact Service.says_post (htext ▸ (e.readsBack _ hlayout).1)
  | tenant t => exact Service.says_post (htext ▸ (t.readsBack _ hlayout).1)
  | ods o => exact Service.says_post (htext ▸ (o.readsBack _ hlayout).1)
  | edOrg x => exact Service.says_post (htext ▸ (x.readsBack _ hlayout).1)

end NewRow

namespace Service

open NewRow

variable {v : Service} {mode : CacheMode} {row : NewRow} {r : Request}

/-- **What is answered to a posted row, and what is done.** -/
structure PostsExactly (v : Service) (row : NewRow) (r : Request) : Prop where
  /-- A body that is too long is not looked at. -/
  tooLong : ¬ r.Fits → v.answer r = (.bare 413, v)
  refused : (v.answer r).1.status = 400 ↔ r.Fits ∧ ¬ row.Placed v.store
  conflict : (v.answer r).1.status = 409 ↔ r.Fits ∧ row.Placed v.store ∧ row.Taken v.store
  created : (v.answer r).1.status = 201 ↔ r.Fits ∧ row.Placed v.store ∧ ¬ row.Taken v.store
  added : (v.answer r).1.status = 201 → row.AddedTo v.store (v.answer r).2.store
  kept : (v.answer r).1.status ≠ 201 → (v.answer r).2.store = v.store

/-- On a settled store the answer and what is done go by the row's place. -/
theorem postsExactly (h : v.store.Settled) (hr : row.PostedBy r) : v.PostsExactly row r := by
  obtain ⟨hlong, hanswer⟩ := hr.answer v
  by_cases hfits : r.Fits
  · obtain ⟨hstatus, hleft⟩ := hanswer hfits
    have hfate := fate_add h row
    generalize row.add v = outcome at hstatus hleft hfate
    cases hfate with
    | unplaced hplaced hblames =>
      have hrefused : (v.answer r).1.status = 400 := hstatus.trans (hblames "")
      constructor <;> simp [hfits, hrefused, hplaced, hleft]
    | taken hplaced htaken =>
      have hconflict : (v.answer r).1.status = 409 := hstatus
      constructor <;> simp [hfits, hconflict, hplaced, htaken, hleft]
    | added hplaced htaken hadded =>
      have hcreated : (v.answer r).1.status = 201 := hstatus
      constructor <;> simp [hfits, hcreated, hplaced, htaken, hleft, afterWrite, hadded]
  · have hrefused := hlong hfits
    constructor <;> simp [hfits, hrefused, Reply.bare]

/-- **Posting a row has an exact outcome.** Whatever a service was asked before, every row of the
hierarchy is said by a request, in the text that is written for it. Whatever request posts it, the
answer is 400 just if what the row names above itself is not there, else 409 just if a stored row is
in its place, and else 201. With 201 the row is added, an organization with the closure rows of its
walk, and nothing else; with any other status no table changes. What comes before all of this is the
length of the body: one of more bytes than are ever read is answered by 413. -/
theorem posts_are_exact (hv : Served mode v) (row : NewRow) :
    (∃ r, row.PostedBy r ∧ r.body = String.ofList row.toJson.compact) ∧
      ∀ r, row.PostedBy r → v.PostsExactly row r :=
  ⟨row.exists_postedBy, fun _ hr => postsExactly hv.settled hr⟩

/-- The service that was given the first grounds. -/
def grounded : Service := (initial .shared .epoch).run grounds

/-- The first grounds have one ODS. -/
theorem Grounds.ods_eq {s : Store} (h : Grounds s) {o : Ods} (ho : s.HasOds o) :
    o = ⟨3, 2, "Main", none⟩ := by
  obtain ⟨t, ht, hmem⟩ := ho
  obtain rfl := Option.some.inj (h.odss.symm.trans ht)
  rcases Index.mem_insert.1 hmem with hrow | ⟨hmem, -⟩
  · exact Ods.row_inj hrow
  · exact absurd hmem Index.not_mem_empty

/-- The first grounds have no organization. -/
theorem Grounds.not_hasEdOrg {s : Store} (h : Grounds s) (x : EdOrg) : ¬ s.HasEdOrg x := by
  rintro ⟨t, ht, hmem⟩
  obtain rfl := Option.some.inj (h.edOrgs.symm.trans ht)
  exact Index.not_mem_empty hmem

/-- On the first grounds an organization of an ODS that is not there is refused, a tenant of a name
that its environment has is in conflict, and an organization of the stored ODS is added. -/
theorem grounded_posts : Served .shared grounded ∧
    (∃ r, (edOrg (school 5 4)).PostedBy r ∧ (grounded.answer r).1.status = 400) ∧
    (∃ r, (tenant ⟨7, 1, "North"⟩).PostedBy r ∧ (grounded.answer r).1.status = 409) ∧
    ∃ r, (edOrg (school 5 3)).PostedBy r ∧ (grounded.answer r).1.status = 201 ∧
      (edOrg (school 5 3)).AddedTo grounded.store (grounded.answer r).2.store := by
  have hserved : Served .shared grounded := (Served.start .epoch).run posted_grounds
  have hgrounds : Grounds grounded.store := grounds_run .shared .epoch
  have hfits {row : NewRow} {r : Request} (hbody : r.body = String.ofList row.toJson.compact)
      (hsize : (String.ofList row.toJson.compact).utf8ByteSize ≤ bodyLimit) : r.Fits := by
    rwa [Request.Fits, hbody]
  refine ⟨hserved, ?refused, ?conflict, ?created⟩
  case refused =>
    obtain ⟨⟨r, hr, hbody⟩, hposts⟩ := posts_are_exact hserved (edOrg (school 5 4))
    refine ⟨r, hr, (hposts r hr).refused.2 ⟨hfits hbody (by decide +kernel), ?_⟩⟩
    rintro ⟨⟨o, ho, hid⟩, -⟩
    rw [hgrounds.ods_eq ho] at hid
    exact absurd hid (by decide)
  case conflict =>
    obtain ⟨⟨r, hr, hbody⟩, hposts⟩ := posts_are_exact hserved (tenant ⟨7, 1, "North"⟩)
    refine ⟨r, hr, (hposts r hr).conflict.2 ⟨hfits hbody (by decide +kernel), ?_, ?_⟩⟩
    · exact ⟨_, hgrounds.environment, rfl⟩
    · exact ⟨_, hgrounds.tenant, .inr ⟨rfl, rfl⟩⟩
  case created =>
    obtain ⟨⟨r, hr, hbody⟩, hposts⟩ := posts_are_exact hserved (edOrg (school 5 3))
    have hcreated : (grounded.answer r).1.status = 201 := by
      refine (hposts r hr).created.2 ⟨hfits hbody (by decide +kernel),
        ⟨?_, Store.parentIn_of_none rfl⟩, ?_⟩
      · exact ⟨⟨3, 2, "Main", none⟩, ⟨_, hgrounds.odss, Index.mem_insert.2 (.inl rfl)⟩, rfl⟩
      · rintro ⟨x, hx, -⟩
        exact hgrounds.not_hasEdOrg x hx
    exact ⟨r, hr, hcreated, (hposts r hr).added hcreated⟩

end Service

end TeamAccess
