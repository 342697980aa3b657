import TeamAccess.Http.Router
import TeamAccess.Proofs.Coherence

/-!
# Serving — requests as events

Whatever a request asks for and however its handler ends, what it does to the service is what some
events do (`Service.answer_eq_run`). So what every run keeps, every sequence of requests keeps: the
store of a service that has only been asked is sound and its caches are coherent.
-/

namespace TeamAccess

namespace Http.Handler

variable {α β : Type} {v v' : Service}

/-! ## What a handler gives and leaves -/

/-- What a handler gives, or the reply that it ends with, and the service after it. -/
def eval (h : Handler α) (v : Service) : Except Reply α × Service := h v

@[simp] theorem eval_check (x : Except Reply α) : (check x).eval v = (x, v) := rfl

@[simp] theorem eval_get : (get : Handler Service).eval v = (.ok v, v) := rfl

theorem eval_bind (h : Handler α) (f : α → Handler β) :
    (h >>= f).eval v = ExceptT.bindCont f (h.eval v).1 (h.eval v).2 := rfl

/-- A handler goes on with what its beginning gave. -/
theorem eval_bind_of_ok {h : Handler α} {f : α → Handler β} {a : α} (ha : h.eval v = (.ok a, v')) :
    (h >>= f).eval v = (f a).eval v' := by
  rw [eval_bind, ha]
  rfl

/-- A handler ends where its beginning ended. -/
theorem eval_bind_of_error {h : Handler α} {f : α → Handler β} {e : Reply}
    (he : h.eval v = (.error e, v')) : (h >>= f).eval v = (.error e, v') := by
  rw [eval_bind, he]
  rfl

@[simp] theorem eval_load (message : String) (query : Store → Except Fault α) :
    (load message query).eval v =
      ((query v.store).mapError fun _ => .error 500 message, v) := rfl

/-- A read that succeeds gives what was read. -/
theorem eval_load_of_ok {message : String} {query : Store → Except Fault α} {a : α}
    (h : query v.store = .ok a) : (load message query).eval v = (.ok a, v) := by
  rw [eval_load, h]
  rfl

/-- What is there is found. -/
theorem eval_find_of_some {failed missing : String} {query : Store → Except Fault (Option α)}
    {a : α} (h : query v.store = .ok (some a)) :
    (find failed missing query).eval v = (.ok a, v) := by
  rw [find, eval_bind_of_ok (eval_load_of_ok h)]
  rfl

/-- What the store gave is given. -/
theorem eval_check_of_ok {made : Except Fault α} {reply : Fault → Reply} {a : α}
    (h : made = .ok a) : (check (made.mapError reply)).eval v = (.ok a, v) := by
  rw [h]
  rfl

/-- A fault of the store ends with the reply for it. -/
theorem eval_check_of_error {made : Except Fault α} {reply : Fault → Reply} {e : Fault}
    (h : made = .error e) : (check (made.mapError reply)).eval v = (.error (reply e), v) := by
  rw [h]
  rfl

theorem eval_perform (reply : Fault → Reply) (op : Service → Service.Outcome α) :
    (perform reply op).eval v = ((op v).1.mapError reply, (op v).2) := rfl

/-- An operation that succeeds gives its result. -/
theorem eval_perform_of_ok {reply : Fault → Reply} (op : Service → Service.Outcome α) {a : α}
    (h : (op v).1 = .ok a) : (perform reply op).eval v = (.ok a, (op v).2) := by
  rw [eval_perform, h]
  rfl

/-- What follows an operation, whatever its result, may leave what the operation left. -/
theorem eval_perform_bind_snd {reply : Fault → Reply} (op : Service → Service.Outcome α)
    {f : α → Handler β} (hf : ∀ a v, ((f a).eval v).2 = v) :
    ((perform reply op >>= f).eval v).2 = (op v).2 := by
  rcases hop : (op v).1 with fault | a
  · have hend : (perform reply op).eval v = (.error (reply fault), (op v).2) := by
      rw [eval_perform, hop]
      rfl
    rw [eval_bind_of_error hend]
  · rw [eval_bind_of_ok (eval_perform_of_ok op hop), hf]

/-- A handler that answers leaves what it leaves. -/
theorem run_snd (h : Handler Reply) (v : Service) : (h.run v).2 = (h.eval v).2 := by
  rcases hv : h.eval v with ⟨_ | _, _⟩ <;> simp only [eval] at hv <;> simp [run, hv]

/-- What a handler gives is its reply. -/
theorem run_of_ok {h : Handler Reply} {reply : Reply} (heval : h.eval v = (.ok reply, v')) :
    h.run v = (reply, v') := by
  unfold run
  rw [show h v = _ from heval]

/-- The reply that a handler ends with is its reply. -/
theorem run_of_error {h : Handler Reply} {reply : Reply} (heval : h.eval v = (.error reply, v')) :
    h.run v = (reply, v') := by
  unfold run
  rw [show h v = _ from heval]

/-! ## Handlers as events -/

/-- **The handler does to the service what some events do**, also if it ends early. -/
def Runs (h : Handler α) : Prop := ∀ v, ∃ es, (h.eval v).2 = v.run es

/-- What leaves the service alone does what no events do. -/
theorem Runs.of_leaves {h : Handler α} (hleaves : ∀ v, (h.eval v).2 = v) : Runs h :=
  fun v => ⟨[], hleaves v⟩

theorem Runs.pure (a : α) : Runs (pure a) := .of_leaves fun _ => rfl

theorem Runs.throw (e : Reply) : Runs (throw e : Handler α) := .of_leaves fun _ => rfl

theorem Runs.check (x : Except Reply α) : Runs (check x) := .of_leaves fun _ => rfl

theorem Runs.load (message : String) (query : Store → Except Fault α) :
    Runs (load message query) := .of_leaves fun _ => rfl

/-- What does what an event does. -/
theorem Runs.perform {reply : Fault → Reply} {op : Service → Service.Outcome α}
    (e : Service.Event) (he : ∀ v, (op v).2 = v.step e) : Runs (perform reply op) :=
  fun v => ⟨[e], he v⟩

/-- **One thing after another does what the events of both do.** -/
theorem Runs.bind {h : Handler α} {f : α → Handler β} (hh : Runs h) (hf : ∀ a, Runs (f a)) :
    Runs (h >>= f) := by
  intro v
  obtain ⟨es, hes⟩ := hh v
  -- What was done before an early end stays done, so these are events then too.
  rcases hv : h.eval v with ⟨e | a, v'⟩
  · rw [eval_bind_of_error hv]
    exact ⟨es, by rw [← hes, hv]⟩
  · obtain ⟨es', hes'⟩ := hf a v'
    obtain rfl : v' = v.run es := by rw [← hes, hv]
    exact ⟨es ++ es', by rw [eval_bind_of_ok hv, hes', Service.run_append]⟩

theorem Runs.find (failed missing : String) (query : Store → Except Fault (Option α)) :
    Runs (find failed missing query) := by
  refine .bind (.load _ _) fun found => ?_
  cases found with
  | none => exact .throw _
  | some a => exact .pure a

/-- What adds to the store alone does what the event does, the caches being none of its concern. -/
theorem eval_extend_snd (create : Store → Except Fault (α × Store)) {reply : Fault → Reply}
    {f : α × Store → Handler β} (e : Service.Event)
    (he : ∀ v : Service, v.step e = v.withStore (create v.store))
    (hf : ∀ a store v, ((f (a, store)).eval v).2 = { v with store }) (v : Service) :
    ((get >>= fun v => Handler.check ((create v.store).mapError reply) >>= f).eval v).2 =
      v.step e := by
  rw [eval_bind_of_ok (eval_get (v := v)), he]
  rcases hcreate : create v.store with fault | ⟨a, store⟩
  · rw [← hcreate, eval_bind_of_error (eval_check_of_error hcreate), hcreate]
    rfl
  · rw [← hcreate, eval_bind_of_ok (eval_check_of_ok hcreate), hf, hcreate]
    rfl

theorem Runs.extend (create : Store → Except Fault (α × Store)) {reply : Fault → Reply}
    {f : α × Store → Handler β} (e : Service.Event)
    (he : ∀ v : Service, v.step e = v.withStore (create v.store))
    (hf : ∀ a store v, ((f (a, store)).eval v).2 = { v with store }) :
    Runs (get >>= fun v => Handler.check ((create v.store).mapError reply) >>= f) :=
  fun v => ⟨[e], eval_extend_snd create e he hf v⟩

end Http.Handler

namespace Http

open Handler

/-! ## Operations -/

theorem runs_identify (ps : Params) : Runs (Caller.identify ps) := by
  unfold Caller.identify
  split
  · exact .throw _
  · refine .bind (.check _) fun id => ?_
    cases id with
    | none => exact .throw _
    | some id =>
      refine .bind (.find _ _ _) fun team => ?_
      refine .bind (.perform (.cache team.id) fun _ => rfl) fun handle => ?_
      exact .bind (.check _) fun _ => .bind (.check _) fun _ => .pure _

/-- A row is written as one write. -/
theorem runs_written {α : Type} {r : Request} {dec : Decoder α} {toJson : α → Json}
    {message : String} {add : Service → α → Service.Outcome Unit} (w : α → Service.Write)
    (hw : ∀ v row, add v row = v.write (w row)) : Runs (written r dec toJson message add) := by
  refine .bind (.check _) fun row => ?_
  exact .bind (.perform (.write (w row)) fun v => by rw [hw]; rfl) fun _ => .pure _

theorem runs_addTeam (r : Request) : Runs (addTeam r) := by
  refine .bind (.check _) fun name => ?_
  dsimp only
  -- A name of nothing but blanks is refused.
  split
  · exact .throw _
  · refine .extend (fun s => s.createTeam _) (.addTeam _) (fun _ => rfl) ?_
    intro _ _ _
    rfl

theorem runs_addRole (ps : Params) (r : Request) : Runs (addRole ps r) := by
  refine .bind (.check _) fun id => .bind (.check _) fun request => ?_
  refine .bind (.find _ _ _) fun _ => .bind (.check _) fun privileges => ?_
  refine .extend (fun s => s.createRole request.name (.team id) (Index.ofList privileges))
    (.addRole request.name (.team id) (Index.ofList privileges)) (fun _ => rfl) ?_
  intro _ _ _
  rfl

/-- **Every operation does to the service what some events do.** -/
theorem runs_handler (ps : Params) (r : Request) (op : Operation) : Runs (op.handler ps r) := by
  cases op with
  | health => exact .pure _
  | authorizationCache => exact .bind (runs_identify ps) fun _ => .pure _
  | listEnvironments => exact .bind (runs_identify ps) fun _ => .bind (.load _ _) fun _ => .pure _
  | listTenants | listOdss | listEdOrgs =>
    exact .bind (runs_identify ps) fun _ => .bind (.check _) fun _ =>
      .bind (.load _ _) fun _ => .pure _
  | checkApplication =>
    refine .bind (runs_identify ps) fun _ => .bind (.check _) fun _ => .bind (.check _) fun _ => ?_
    exact .bind (.find _ _ _) fun _ => .bind (.find _ _ _) fun _ => .bind (.check _) fun _ =>
      .pure _
  | addEnvironment => exact runs_written .addEnvironment fun _ _ => rfl
  | addTenant => exact runs_written .addTenant fun _ _ => rfl
  | addOds => exact runs_written .addOds fun _ _ => rfl
  | addEdOrg => exact runs_written .addEdOrg fun _ _ => rfl
  | rebuildClosure =>
    refine .bind (.check _) fun ods => ?_
    exact .bind (.perform (.write (.rebuildClosure ods)) fun _ => rfl) fun _ => .pure _
  | addTeam => exact runs_addTeam r
  | addRole => exact runs_addRole ps r
  | addOwnership =>
    refine .bind (.check _) fun new => ?_
    exact .bind (.perform (.write (.addOwnership new)) fun _ => rfl) fun _ => .pure _
  | replaceOwnership =>
    refine .bind (.check _) fun id => .bind (.check _) fun new => ?_
    exact .bind (.perform (.write (.replaceOwnership id new)) fun _ => rfl) fun _ => .pure _
  | removeOwnership =>
    refine .bind (.check _) fun id => ?_
    refine .bind (.perform (.write (.removeOwnership id)) fun _ => rfl) fun deleted => ?_
    cases deleted with
    | true => exact .pure _
    | false => exact .throw _

end Http

namespace Service

open Http

/-- What the operation of a route leaves is what is left. -/
theorem answer_snd {v : Service} {r : Request} {route : Route} {ps : Params} {op : Operation}
    (hroute : findRoute r.target = some (route, ps)) (hop : route.operation? r.method = some op) :
    (v.answer r).2 = ((op.handler ps r).eval v).2 := by
  rw [← Handler.run_snd]
  unfold answer
  rw [hroute]
  dsimp only
  rw [hop]
  dsimp only
  split <;> rfl

/-- **A request does to the service what some events do.** -/
theorem answer_eq_run (v : Service) (r : Request) : ∃ es, (v.answer r).2 = v.run es := by
  cases hroute : findRoute r.target with
  | none => exact ⟨[], by rw [answer, hroute]; rfl⟩
  | some found =>
    obtain ⟨route, ps⟩ := found
    cases hop : route.operation? r.method with
    | none => exact ⟨[], by simp only [answer, hroute, hop]; rfl⟩
    | some op =>
      obtain ⟨es, hes⟩ := runs_handler ps r op v
      exact ⟨es, by rw [answer_snd hroute hop, hes]⟩

/-- A service over a new store that has been asked things while time passed. -/
inductive Served (mode : CacheMode) : Service → Prop
  | start (now : Timestamp) : Served mode (initial mode now)
  | clock {v : Service} (now : Timestamp) : Served mode v → Served mode (v.step (.clock now))
  | answer {v : Service} (r : Request) : Served mode v → Served mode (v.answer r).2

namespace Served

variable {mode : CacheMode} {v : Service}

/-- What a service was asked was a run of it. -/
theorem exists_run (h : Served mode v) : ∃ now es, v = (initial mode now).run es := by
  induction h with
  | start now => exact ⟨now, [], rfl⟩
  | clock now _ ih =>
    obtain ⟨now₀, es, rfl⟩ := ih
    exact ⟨now₀, es ++ [.clock now], by rw [run_append]; rfl⟩
  | answer r _ ih =>
    obtain ⟨now, es, rfl⟩ := ih
    obtain ⟨es', hes'⟩ := answer_eq_run ((initial mode now).run es) r
    exact ⟨now, es ++ es', by rw [hes', run_append]⟩

/-- **Its store is sound.** -/
theorem sound (h : Served mode v) : v.store.Sound := by
  obtain ⟨now, es, rfl⟩ := h.exists_run
  exact sound_run mode now es

/-- **Its caches are what builds give.** -/
theorem coherent (h : Served mode v) : v.Coherent := by
  obtain ⟨now, es, rfl⟩ := h.exists_run
  exact coherent_run mode now es

end Served

end Service

end TeamAccess
