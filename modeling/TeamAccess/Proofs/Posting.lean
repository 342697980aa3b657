import TeamAccess.Proofs.Additions
import TeamAccess.Proofs.Serving

/-!
# Posting — events that can be asked for

Rows are posted to collections of the administration. A request that posts a row does just what the
event of adding it does, whether or not that succeeds (`Service.posted_written` for rows of the
hierarchy). So a run of such events is a service that has only been asked
(`Service.Served.run`), and particular services can be set up by events.
-/

namespace TeamAccess.Service

open Http Handler

variable {v : Service} {mode : CacheMode}

/-- Some request does just what the event does, to every service. -/
def Posted (e : Event) : Prop := ∃ r, ∀ v : Service, (v.answer r).2 = v.step e

/-- **A run of events that can be asked for is a service that has only been asked.** -/
theorem Served.run (h : Served mode v) {es : List Event} (hes : ∀ e ∈ es, Posted e) :
    Served mode (v.run es) := by
  induction es generalizing v with
  | nil => exact h
  | cons e es ih =>
    obtain ⟨r, hr⟩ := hes e List.mem_cons_self
    have hstep : Served mode (v.step e) := hr v ▸ .answer r h
    exact ih hstep fun e' he' => hes e' (List.mem_cons_of_mem _ he')

/-! ## Collections -/

/-- The collections that rows are posted to. -/
def collections : List (String × Operation) :=
  [("environments", .addEnvironment), ("tenants", .addTenant), ("odss", .addOds),
    ("edorgs", .addEdOrg), ("teams", .addTeam), ("ownerships", .addOwnership)]

/-- A request to add to a collection. -/
def post (collection body : String) : Request :=
  ⟨.post, "/api/admin/" ++ collection, body, some "application/json"⟩

/-- The request says what its body does. -/
theorem says_post {α : Type} {collection body : String} {dec : Decoder α} {a : α}
    (h : Decode.text dec body.toList = .ok a) : (post collection body).Says dec a where
  contentType := by
    have hjson : isJson "application/json" = true := by decide
    exact hjson
  body := h

/-- The body of the request is read, if it is not too long. -/
theorem json_post {α : Type} {collection body : String} {dec : Decoder α} {a : α}
    (h : Decode.text dec body.toList = .ok a) (hfits : body.utf8ByteSize ≤ bodyLimit) :
    (post collection body).json dec = .ok a :=
  (says_post h).json_of_fits hfits

/-- The segments of a collection's path. -/
def collectionPath (collection : String) : List (List Char) :=
  ["api".toList, "admin".toList, collection.toList]

/-- The path of a collection leads to its operation. -/
theorem findRoute_of_collection {collection : String} {op : Operation}
    (hc : (collection, op) ∈ collections) {target : String}
    (hpath : pathSegments target = some (collectionPath collection)) :
    findRoute target = some (⟨adminPath [.lit collection], [(.post, op)]⟩, []) := by
  rw [findRoute, hpath]
  simp only [collections, List.mem_cons, Prod.mk.injEq, List.not_mem_nil, or_false] at hc
  rcases hc with ⟨rfl, rfl⟩ | ⟨rfl, rfl⟩ | ⟨rfl, rfl⟩ | ⟨rfl, rfl⟩ | ⟨rfl, rfl⟩ | ⟨rfl, rfl⟩
  all_goals rfl

/-- A request to add to a collection has its path. -/
theorem pathSegments_post {collection : String} {op : Operation}
    (hc : (collection, op) ∈ collections) (body : String) :
    pathSegments (post collection body).target = some (collectionPath collection) := by
  have hpath : ∀ c ∈ collections, pathSegments ("/api/admin/" ++ c.1) =
      some (collectionPath c.1) := by decide +kernel
  rw [post, hpath _ hc]

/-- A request to add to a collection is for its operation. -/
theorem findRoute_post {collection : String} {op : Operation} (hc : (collection, op) ∈ collections)
    (body : String) : findRoute (post collection body).target =
      some (⟨adminPath [.lit collection], [(.post, op)]⟩, []) :=
  findRoute_of_collection hc (pathSegments_post hc body)

/-- What is done to a collection is what its operation does. -/
theorem answer_post {collection : String} {op : Operation} (hc : (collection, op) ∈ collections)
    (body : String) : (v.answer (post collection body)).2 =
      ((op.handler [] (post collection body)).eval v).2 :=
  answer_snd (findRoute_post hc body) rfl

/-- **Rows of the hierarchy are posted**: the body is the row. -/
theorem posted_written {α : Type} {collection : String} {op : Operation} {dec : Decoder α}
    {toJson : α → Json} {message : String} {add : Service → α → Outcome Unit} (w : α → Write)
    (hc : (collection, op) ∈ collections)
    (hop : ∀ r, op.handler [] r = written r dec toJson message add)
    (hw : ∀ v row, add v row = v.write (w row)) {body : String} {row : α}
    (hbody : Decode.text dec body.toList = .ok row) (hfits : body.utf8ByteSize ≤ bodyLimit) :
    Posted (.write (w row)) := by
  refine ⟨post collection body, fun v => ?_⟩
  rw [answer_post hc, hop, written, json_post hbody hfits, eval_bind_of_ok (eval_check _),
    eval_perform_bind_snd _ fun _ _ => rfl, hw]
  rfl

section Rows

variable {body : String} (hfits : body.utf8ByteSize ≤ bodyLimit)
include hfits

theorem posted_addEnvironment {e : Environment}
    (hbody : Decode.text Environment.decode body.toList = .ok e) :
    Posted (.write (.addEnvironment e)) := by
  have hc : ("environments", Operation.addEnvironment) ∈ collections := by simp [collections]
  exact posted_written .addEnvironment hc (fun _ => rfl) (fun _ _ => rfl) hbody hfits

theorem posted_addTenant {t : Tenant} (hbody : Decode.text Tenant.decode body.toList = .ok t) :
    Posted (.write (.addTenant t)) := by
  have hc : ("tenants", Operation.addTenant) ∈ collections := by simp [collections]
  exact posted_written .addTenant hc (fun _ => rfl) (fun _ _ => rfl) hbody hfits

theorem posted_addOds {o : Ods} (hbody : Decode.text Ods.decode body.toList = .ok o) :
    Posted (.write (.addOds o)) := by
  have hc : ("odss", Operation.addOds) ∈ collections := by simp [collections]
  exact posted_written .addOds hc (fun _ => rfl) (fun _ _ => rfl) hbody hfits

theorem posted_addEdOrg {x : EdOrg} (hbody : Decode.text EdOrg.decode body.toList = .ok x) :
    Posted (.write (.addEdOrg x)) := by
  have hc : ("edorgs", Operation.addEdOrg) ∈ collections := by simp [collections]
  exact posted_written .addEdOrg hc (fun _ => rfl) (fun _ _ => rfl) hbody hfits

/-- Teams are posted: the body has the name, and blanks around it would be left out. -/
theorem answer_post_team {name : String}
    (hbody : Decode.text decodeTeamName body.toList = .ok name)
    (htrim : Text.trim name.toList = name.toList) (hname : name.toList.isEmpty = false) :
    (v.answer (post "teams" body)).2 = v.step (.addTeam name) := by
  have hc : ("teams", Operation.addTeam) ∈ collections := by simp [collections]
  rw [answer_post hc, Operation.handler, addTeam, json_post hbody hfits,
    eval_bind_of_ok (eval_check _)]
  dsimp only
  rw [htrim, hname, if_neg Bool.false_ne_true, String.ofList_toList]
  exact eval_extend_snd (fun s => s.createTeam name) (.addTeam name) (fun _ => rfl)
    (fun _ _ _ => rfl) v

theorem posted_addTeam {name : String}
    (hbody : Decode.text decodeTeamName body.toList = .ok name)
    (htrim : Text.trim name.toList = name.toList) (hname : name.toList.isEmpty = false) :
    Posted (.addTeam name) :=
  ⟨post "teams" body, fun _ => answer_post_team hfits hbody htrim hname⟩

/-- Ownerships are posted: the body is the new one. -/
theorem posted_addOwnership {o : NewOwnership}
    (hbody : Decode.text NewOwnership.decode body.toList = .ok o) :
    Posted (.write (.addOwnership o)) := by
  have hc : ("ownerships", Operation.addOwnership) ∈ collections := by simp [collections]
  refine ⟨post "ownerships" body, fun v => ?_⟩
  rw [answer_post hc, Operation.handler, Http.addOwnership, json_post hbody hfits,
    eval_bind_of_ok (eval_check _), eval_perform_bind_snd _ fun _ _ => rfl]
  rfl

end Rows

/-- The first grounds can be posted. -/
theorem posted_grounds : ∀ e ∈ grounds, Posted e := by
  have henvironment : Decode.text Environment.decode "[1,\"East\",\"v1\"]".toList =
      .ok ⟨1, "East", .v1⟩ := by decide +kernel
  have htenant : Decode.text Tenant.decode "[2,1,\"North\"]".toList = .ok ⟨2, 1, "North"⟩ := by
    decide +kernel
  have hods : Decode.text Ods.decode "[3,2,\"Main\",null]".toList = .ok ⟨3, 2, "Main", none⟩ := by
    decide +kernel
  have hteam : Decode.text decodeTeamName "[\"Wardens\"]".toList = .ok "Wardens" := by
    decide +kernel
  simp only [grounds, List.forall_mem_cons, List.not_mem_nil, IsEmpty.forall_iff, implies_true,
    and_true]
  exact ⟨posted_addEnvironment (by decide) henvironment, posted_addTenant (by decide) htenant,
    posted_addOds (by decide) hods, posted_addTeam (by decide) hteam (by decide) (by decide)⟩

end TeamAccess.Service
