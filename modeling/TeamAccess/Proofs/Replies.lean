import TeamAccess.Proofs.Answers
import TeamAccess.Proofs.Refusals

/-!
# Replies — no reply says only that something failed

A handler is taken apart step by step: each step may end with a reply that explains, or it gives
something and leaves the service in a state of which something is known
(`Http.Handler.Explains`). Reads find whole tables, a team's cache can be built, and writes are
refused for reasons that have a reply, so whatever a service was asked before, it has no reply of
status 500 as long as there are ids to hand out.
-/

namespace TeamAccess

open Http

namespace Http.Handler

variable {α β : Type} {v : Service}

/-! ## Steps -/

/-- **If the handler ends early its reply explains**; otherwise `Q` holds of what it gives and of
the service then. -/
def Explains (h : Handler α) (v : Service) (Q : α → Service → Prop) : Prop :=
  FailsOnly (h.eval v).1 Reply.Explains ∧ ∀ a, (h.eval v).1 = .ok a → Q a (h.eval v).2

namespace Explains

variable {Q : α → Service → Prop}

/-- What a step gives and leaves is known when it is evaluated. -/
theorem of_eval {h : Handler α} {a : α} {v' : Service} (heval : h.eval v = (.ok a, v'))
    (hQ : Q a v') : Explains h v Q := by
  rw [Explains, heval]
  refine ⟨.ok a, fun a' ha' => ?_⟩
  obtain rfl := Except.ok.inj ha'
  exact hQ

theorem pure {a : α} (hQ : Q a v) : Explains (pure a) v Q := of_eval rfl hQ

theorem throw {e : Reply} (he : e.Explains) : Explains (throw e) v Q :=
  ⟨.error he, fun _ h => by cases h⟩

/-- **One step after another**, from what the first gave and left. -/
theorem bind {h : Handler α} {f : α → Handler β} {R : β → Service → Prop} (hh : Explains h v Q)
    (hf : ∀ a v', Q a v' → Explains (f a) v' R) : Explains (h >>= f) v R := by
  obtain ⟨hfails, hgives⟩ := hh
  rcases heval : h.eval v with ⟨e | a, v'⟩
  all_goals rw [heval] at hfails hgives
  · rw [Explains, eval_bind_of_error heval]
    exact ⟨.error (hfails e rfl), fun _ h => by cases h⟩
  · rw [Explains, eval_bind_of_ok heval]
    exact hf a v' (hgives a rfl)

theorem check {x : Except Reply α} (hx : FailsOnly x Reply.Explains) :
    Explains (check x) v fun a v' => v = v' ∧ x = .ok a :=
  ⟨hx, fun _ ha => ⟨rfl, ha⟩⟩

/-- A read that succeeds. -/
theorem load {message : String} {query : Store → Except Fault α} (h : Succeeds (query v.store)) :
    Explains (load message query) v fun a v' => v = v' ∧ query v.store = .ok a := by
  obtain ⟨a, ha⟩ := h
  exact of_eval (eval_load_of_ok ha) ⟨rfl, ha⟩

/-- A read for something that may be missing. -/
theorem find {failed missing : String} {query : Store → Except Fault (Option α)}
    (h : Succeeds (query v.store)) :
    Explains (find failed missing query) v fun a v' => v = v' ∧ query v.store = .ok (some a) := by
  refine .bind (load h) fun found v' => ?_
  rintro ⟨rfl, hfound⟩
  cases found with
  | none => exact .throw (Reply.explains_error (by decide))
  | some a => exact .pure ⟨rfl, hfound⟩

/-- An operation whose faults have replies that explain. -/
theorem perform {reply : Fault → Reply} {op : Service → Service.Outcome α} {P : Fault → Prop}
    (h : FailsOnly (op v).1 P) (hreply : ∀ e, P e → (reply e).Explains) :
    Explains (perform reply op) v fun _ v' => v' = (op v).2 :=
  ⟨h.mapError hreply, fun _ _ => rfl⟩

/-- An addition to the store alone whose faults have replies that explain. -/
theorem extend (create : Store → Except Fault (α × Store)) {reply : Fault → Reply}
    {f : α × Store → Handler β} {P : Fault → Prop} {R : β → Service → Prop}
    (h : FailsOnly (create v.store) P) (hreply : ∀ e, P e → (reply e).Explains)
    (hf : ∀ a, Explains (f a) v R) :
    Explains (get >>= fun v => Handler.check ((create v.store).mapError reply) >>= f) v R := by
  have hget : Explains get v fun w v' => v = w ∧ v = v' := of_eval eval_get ⟨rfl, rfl⟩
  refine .bind hget ?_
  rintro _ _ ⟨rfl, rfl⟩
  refine .bind (check (h.mapError hreply)) ?_
  rintro a _ ⟨rfl, -⟩
  exact hf a

end Explains

end Http.Handler

namespace Http

variable {α : Type} {v : Service} {ps : Params} {r : Request}

/-! ## Requests that are refused -/

/-- A body that is too long, or no JSON of the form, is refused as such. -/
theorem explains_json (dec : Decoder α) : FailsOnly (r.json dec) Reply.Explains := by
  unfold Request.json
  split
  · split
    · split
      · exact .ok _
      · exact .error (Reply.explains_bare (by decide))
      · exact .error (Reply.explains_bare (by decide))
    · exact .error (Reply.explains_bare (by decide))
  · exact .error (Reply.explains_bare (by decide))

/-- A parameter that is no id is refused as such. -/
theorem explains_id (name : String) : FailsOnly (ps.id name) Reply.Explains := by
  unfold Params.id
  split
  · rename_i raw _
    cases Decimal.readInt64? raw.toList with
    | none => exact .error (Reply.explains_bare (by decide))
    | some n => exact .ok n
  · exact .error (Reply.explains_bare (by decide))

theorem explains_pathId (name : String) : FailsOnly (Caller.pathId ps name) Reply.Explains := by
  unfold Caller.pathId
  split
  · exact .ok none
  · exact .error (Reply.explains_error (by decide))
  · split
    · exact .ok _
    · exact .error (Reply.explains_error (by decide))

/-- An organization without a key is refused as such. -/
theorem explains_pairKeys (version : ApiVersion) (pairs : List EdOrgPair) :
    FailsOnly (pairKeys version pairs) Reply.Explains := by
  refine .mapM fun p _ => ?_
  cases p.key? version with
  | none => exact .error (Reply.explains_error (by decide))
  | some k => exact .ok k

/-! ## Operations -/

/-- What a handler of a whole request gives is a reply that explains. -/
abbrev Explained (h : Handler Reply) (v : Service) : Prop :=
  h.Explains v fun reply _ => reply.Explains

/-- **Who asks is found out, or the reply says what is wrong**: every team's cache can be built. -/
theorem explains_identify (hsound : v.store.Sound) (hcoherent : v.Coherent) :
    (Caller.identify ps).Explains v fun _ v' => v'.store = v.store := by
  unfold Caller.identify
  split
  · exact .throw (Reply.explains_error (by decide))
  · refine .bind (.check (explains_pathId "team_id")) ?_
    rintro id _ ⟨rfl, -⟩
    cases id with
    | none => exact .throw (Reply.explains_error (by decide))
    | some id =>
      refine .bind (.find (hsound.succeeds_team? id)) ?_
      rintro team _ ⟨rfl, -⟩
      obtain ⟨handle, hhandle, -⟩ := hcoherent.exists_handle hsound team.id
      have hcache : FailsOnly (Service.cache _ team.id).1 fun _ => False :=
        .of_succeeds ⟨handle, hhandle⟩
      refine .bind (.perform hcache fun _ h => h.elim) ?_
      rintro handle _ rfl
      refine .bind (.check (explains_pathId "environment_id")) ?_
      rintro environment _ ⟨rfl, -⟩
      refine .bind (.check (explains_pathId "tenant_id")) ?_
      rintro tenant _ ⟨rfl, -⟩
      exact .pure rfl

/-- A list within a place is read. -/
theorem explained_listWithin {toJson : α → Json} {message name : String} {p : Privilege}
    (hsound : v.store.Sound) (hcoherent : v.Coherent)
    (list : Store → ResourceId → RowFilter → Except Fault (List α))
    (hlist : ∀ id f, Succeeds (list v.store id f)) : Explained (do
      let c ← Caller.identify ps
      let id ← Handler.check (ps.id name)
      let rows ← Handler.load message fun s => list s id (c.filter p)
      return listed toJson rows) v := by
  refine .bind (explains_identify hsound hcoherent) fun c v' hstore => ?_
  refine .bind (.check (explains_id name)) ?_
  rintro id _ ⟨rfl, -⟩
  have hrows : Succeeds (list v'.store id (c.filter p)) := hstore ▸ hlist id _
  refine .bind (.load hrows) ?_
  rintro rows _ ⟨rfl, -⟩
  exact .pure (Reply.explains_data (by decide))

/-- A check of an application is made or refused. -/
theorem explained_checkApplication (hsound : v.store.Sound) (hcoherent : v.Coherent) :
    Explained (checkApplication ps r) v := by
  refine .bind (explains_identify hsound hcoherent) fun c v' hstore => ?_
  rw [← hstore] at hsound
  refine .bind (.check (explains_id "tenant_id")) ?_
  rintro id _ ⟨rfl, -⟩
  refine .bind (.check (explains_json ApplicationCheck.decode)) ?_
  rintro question _ ⟨rfl, -⟩
  refine .bind (.find (hsound.succeeds_tenant? id)) ?_
  rintro tenant _ ⟨rfl, -⟩
  refine .bind (.find (hsound.succeeds_environment? tenant.environment)) ?_
  rintro environment _ ⟨rfl, -⟩
  refine .bind (.check (explains_pairKeys environment.version question.edOrgs)) ?_
  rintro keys _ ⟨rfl, -⟩
  exact .pure (Reply.explains_data (by decide))

/-- A row is written or refused. -/
theorem explained_written {dec : Decoder α} {toJson : α → Json} {message : String}
    {add : Service → α → Service.Outcome Unit}
    (hadd : ∀ row, FailsOnly (add v row).1 Fault.Explained) :
    Explained (written r dec toJson message add) v := by
  refine .bind (.check (explains_json dec)) ?_
  rintro row _ ⟨rfl, -⟩
  refine .bind (.perform (hadd row) fun _ he => he message) fun _ _ _ => ?_
  exact .pure (Reply.explains_data (by decide))

/-- A closure is rebuilt, or its ODS is missing. -/
theorem explained_rebuildClosure (hsound : v.store.Sound) : Explained (rebuildClosure ps) v := by
  refine .bind (.check (explains_id "ods_id")) ?_
  rintro ods _ ⟨rfl, -⟩
  refine .bind (.perform (Service.failsOnly_rebuildClosure hsound ods) ?_) fun _ _ _ => ?_
  · rintro _ rfl
    exact Reply.explains_error (by decide)
  · exact .pure (Reply.explains_bare (by decide))

/-- A team is added or refused. -/
theorem explained_addTeam (hspare : v.store.Spare) : Explained (addTeam r) v := by
  refine .bind (.check (explains_json decodeTeamName)) ?_
  rintro name _ ⟨rfl, -⟩
  dsimp only
  split
  · exact .throw (Reply.explains_error (by decide))
  · refine .extend (fun s => s.createTeam _) (hspare.explained_createTeam _) (fun _ he => he _) ?_
    intro _
    exact .of_eval rfl (Reply.explains_data (by decide))

/-- A role is added or refused. -/
theorem explained_addRole (hupheld : v.store.Upheld) (hspare : v.store.Spare) :
    Explained (addRole ps r) v := by
  refine .bind (.check (explains_id "team_id")) ?_
  rintro id _ ⟨rfl, -⟩
  refine .bind (.check (explains_json RoleRequest.decode)) ?_
  rintro request _ ⟨rfl, -⟩
  refine .bind (.find (hupheld.settled.sound.succeeds_team? id)) ?_
  rintro team _ ⟨rfl, hfound⟩
  obtain ⟨hteam, rfl⟩ := Store.team?_eq_some_iff.1 hfound
  have hparse : FailsOnly (Privilege.parseAll request.codes) fun _ => True := fun _ _ => trivial
  refine .bind (.check (hparse.mapError fun _ _ => Reply.explains_error (by decide))) ?_
  rintro privileges _ ⟨rfl, -⟩
  have hcreate :=
    hspare.explained_createRole hupheld.attributed hteam request.name (Index.ofList privileges)
  refine .extend (fun s => s.createRole request.name (.team team.id) (Index.ofList privileges))
    hcreate (fun _ he => he _) fun _ => ?_
  exact .of_eval rfl (Reply.explains_data (by decide))

/-- An ownership is added or refused. -/
theorem explained_addOwnership (hsound : v.store.Sound) (hspare : v.store.Spare) :
    Explained (addOwnership r) v := by
  refine .bind (.check (explains_json NewOwnership.decode)) ?_
  rintro new _ ⟨rfl, -⟩
  refine .bind (.perform (Service.explained_addOwnership hsound hspare new) fun _ he => he _) ?_
  exact fun _ _ _ => .pure (Reply.explains_data (by decide))

/-- An ownership is replaced, or it is missing, or the new one is refused. -/
theorem explained_replaceOwnership (hsound : v.store.Sound) (hspare : v.store.Spare) :
    Explained (replaceOwnership ps r) v := by
  refine .bind (.check (explains_id "id")) ?_
  rintro id _ ⟨rfl, -⟩
  refine .bind (.check (explains_json NewOwnership.decode)) ?_
  rintro new _ ⟨rfl, -⟩
  have hreplace := Service.explained_replaceOwnership hsound hspare id new
  refine .bind (.perform hreplace fun _ he => he _) ?_
  exact fun _ _ _ => .pure (Reply.explains_data (by decide))

/-- An ownership is removed, or it is missing. -/
theorem explained_removeOwnership (hsound : v.store.Sound) :
    Explained (removeOwnership ps) v := by
  refine .bind (.check (explains_id "id")) ?_
  rintro id _ ⟨rfl, -⟩
  have hremove : FailsOnly (Service.removeOwnership _ id).1 fun _ => False :=
    .of_succeeds (Service.succeeds_removeOwnership hsound id)
  refine .bind (.perform hremove fun _ h => h.elim) fun deleted _ _ => ?_
  cases deleted with
  | true => exact .pure (Reply.explains_bare (by decide))
  | false => exact .throw (Reply.explains_error (by decide))

/-- **Every operation is done or refused for a reason.** -/
theorem explained_handler (hupheld : v.store.Upheld) (hcoherent : v.Coherent)
    (hspare : v.store.Spare) (op : Operation) : Explained (op.handler ps r) v := by
  have hsound := hupheld.settled.sound
  cases op with
  | health => exact .pure (show (200 : Nat) ≠ 500 by decide)
  | authorizationCache =>
    refine .bind (explains_identify hsound hcoherent) fun _ _ _ => ?_
    exact .pure (Reply.explains_data (by decide))
  | listEnvironments =>
    refine .bind (explains_identify hsound hcoherent) fun c v' hstore => ?_
    have hrows : Succeeds (v'.store.listEnvironments (c.filter .environmentRead)) :=
      hstore ▸ hsound.readable.succeeds_listEnvironments _
    exact .bind (.load hrows) fun _ _ _ => .pure (Reply.explains_data (by decide))
  | listTenants =>
    exact explained_listWithin hsound hcoherent _ hsound.readable.succeeds_listTenants
  | listOdss => exact explained_listWithin hsound hcoherent _ hsound.readable.succeeds_listOdss
  | listEdOrgs => exact explained_listWithin hsound hcoherent _ hsound.readable.succeeds_listEdOrgs
  | checkApplication => exact explained_checkApplication hsound hcoherent
  | addEnvironment => exact explained_written (Service.explained_addEnvironment hsound)
  | addTenant => exact explained_written (Service.explained_addTenant hsound)
  | addOds => exact explained_written (Service.explained_addOds hsound)
  | addEdOrg => exact explained_written (Service.explained_addEdOrg hsound)
  | rebuildClosure => exact explained_rebuildClosure hsound
  | addTeam => exact explained_addTeam hspare
  | addRole => exact explained_addRole hupheld hspare
  | addOwnership => exact explained_addOwnership hsound hspare
  | replaceOwnership => exact explained_replaceOwnership hsound hspare
  | removeOwnership => exact explained_removeOwnership hsound

/-- The reply of a handler explains, whether it ended early or not. -/
theorem Handler.Explains.run {h : Handler Reply} (hh : Explained h v) :
    (h.run v).1.Explains := by
  obtain ⟨hfails, hgives⟩ := hh
  rcases heval : h.eval v with ⟨e | reply, v'⟩
  all_goals rw [heval] at hfails hgives
  · rw [run_of_error heval]
    exact hfails e rfl
  · rw [run_of_ok heval]
    exact hgives reply rfl

end Http

namespace Service

variable {v : Service} {mode : CacheMode}

/-- **Every request has a reply that explains.** -/
theorem explains_answer (hupheld : v.store.Upheld) (hcoherent : v.Coherent)
    (hspare : v.store.Spare) (r : Request) : (v.answer r).1.Explains := by
  unfold answer
  split
  · exact Reply.explains_bare (by decide)
  · rename_i route ps _
    split
    · exact Reply.explains_bare (by decide)
    · rename_i op _
      have hexplained : Explained (op.handler ps r) v :=
        explained_handler hupheld hcoherent hspare op
      have hrun := hexplained.run
      -- A reply to HEAD has the status that its handler gave.
      dsimp only
      split <;> exact hrun

/-- **Whatever a service was asked before, what is stored is intact**: every ownership names a team,
a role that the team may use and a resource with all that lies above it, every stored code is in the
catalog, and every team's cache can be built from resources that are there. No reply to whatever
request has status 500, as long as there are ids to hand out. -/
theorem intact_and_explaining (hv : Served mode v) :
    v.store.Intact ∧ (v.store.Spare → ∀ r, (v.answer r).1.status ≠ 500) :=
  ⟨hv.upheld.intact, explains_answer hv.upheld hv.coherent⟩

/-- The ownership of a team that was given an ODS names what is there, and the service has ids to
hand out and no reply of status 500 to whatever it is asked next. -/
theorem twins_intact :
    Served .shared twinned ∧ twinned.store.Intact ∧ (∃ o, twinned.store.HasOwnership o) ∧
      twinned.store.Spare ∧ ∀ r, (twinned.answer r).1.status ≠ 500 := by
  obtain ⟨hserved, htwins⟩ := twinned_spec
  have hholds : twinned.store.Holds 1 .odsRead (.ods 3) := (htwins.owned .odsRead).holds_iff.2 rfl
  obtain ⟨o, ho, -⟩ := hholds
  obtain ⟨hintact, hexplains⟩ := intact_and_explaining hserved
  exact ⟨hserved, hintact, ⟨o, ho⟩, htwins.spare, hexplains htwins.spare⟩

end Service

end TeamAccess
