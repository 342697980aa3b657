import TeamAccess.Build
import TeamAccess.Proofs.Fallible
import TeamAccess.Index.Lemmas

/-!
# Resolving without a memory

A resolver remembers what it has looked up. The definitions here read everything anew; they are
what the resolver is meant to compute, and `buildCache_eq` says that a build computes it. The
argument is one relation, `Resolver.Computes`: from any memory that agrees with the store, a
computation gives the plain result and leaves a memory that agrees again. It holds of the one
look-up that remembers, and it is kept by chaining. So it holds of whatever is expanded one after
the other, failures included (`Resolver.expandEach_eq`).
-/

namespace TeamAccess

/-! ## The plain readings -/

namespace Store

/-- The key of an organization under a version. -/
def keyOf? (s : Store) (version : ApiVersion) (x : EdOrg) : Except Fault (Option EdOrgKey) :=
  match version with
  | .v1 => return some (.v1 x.organization)
  | .v2 => return (← s.ods? x.ods).bind fun o => EdOrgKey.under? .v2 o.instanceId x.organization

/-- The keys of organizations, without those that have none. -/
def keysOf (s : Store) (version : ApiVersion) : List EdOrg → Except Fault (List EdOrgKey)
  | [] => return []
  | x :: xs => do
    let key ← s.keyOf? version x
    let keys ← s.keysOf version xs
    return key.toList ++ keys

/-- The expansion of a part of an ODS, if everything above it is stored. -/
def partOf (s : Store) (ods : ResourceId) (ownsOds : Bool) (xs : List EdOrg) :
    Except Fault Expansion := do
  match ← s.ods? ods with
  | none => return .dangling
  | some o =>
    match ← s.tenant? o.tenant with
    | none => return .dangling
    | some t =>
      match ← s.environment? t.environment with
      | none => return .dangling
      | some e =>
        let keys ← s.keysOf e.version xs
        return .part ⟨e.id, t.id, ods, ownsOds, Index.ofList (xs.map EdOrg.id), Index.ofList keys⟩

/-- An organization together with those below it. -/
def withRoot (root : EdOrg) (below : List EdOrg) : List EdOrg :=
  if below.any fun x => x.id = root.id then below else below ++ [root]

/-- What a resource reaches. -/
def expansion (s : Store) : ResourceRef → Except Fault Expansion
  | .global => return .everything
  | .environment id => do
    match ← s.environment? id with
    | none => return .dangling
    | some _ => return .environment id ((← s.listTenants id .unrestricted).map Tenant.id)
  | .tenant id => do
    match ← s.tenant? id with
    | none => return .dangling
    | some t =>
      match ← s.environment? t.environment with
      | none => return .dangling
      | some _ => return .tenant t.environment id
  | .ods id => do s.partOf id true (← s.listOdsEdOrgs id)
  | .edOrg id => do
    match ← s.edOrg? id with
    | none => return .dangling
    | some root => s.partOf root.ods false (withRoot root (← s.listDescendants id))

/-- The cache with what an ownership of the team adds. -/
def addTo (s : Store) (c : Cache) (o : Ownership) : Except Fault Cache := do
  match ← s.role? o.role with
  | none => .error .notFound
  | some role =>
    if role.scope.admits c.team then
      c.addExpansion (← s.expansion o.resource) role.privileges.rows
    else return c

end Store

namespace Resolver

variable {α β : Type} {s : Store}

/-- What is remembered is what is stored. -/
structure Agrees (s : Store) (m : Memo) : Prop where
  environments : ∀ id found, m.environments.get? id = some found → s.environment? id = .ok found
  tenants : ∀ id found, m.tenants.get? id = some found → s.tenant? id = .ok found
  odss : ∀ id found, m.odss.get? id = some found → s.ods? id = .ok found
  roles : ∀ id found, m.roles.get? id = some found → s.role? id = .ok found

/-- A new resolver remembers nothing, and nothing wrong. -/
theorem agrees_empty : Agrees s .empty where
  environments := by simp [Memo.empty]
  tenants := by simp [Memo.empty]
  odss := by simp [Memo.empty]
  roles := by simp [Memo.empty]

/-- From every memory that agrees with the store, the computation gives the result, and the memory
it leaves agrees with the store too. -/
def Computes (s : Store) (x : Resolver α) (result : Except Fault α) : Prop :=
  ∀ m, Agrees s m → (x m).1 = result ∧ Agrees s (x m).2

/-- To ask for the memory changes nothing. -/
theorem get_bind (f : Memo → Resolver β) (m : Memo) : ((get : Resolver Memo) >>= f) m = f m m := rfl

/-- What a look-up that remembers does: it answers from memory, or it asks the store and keeps what
it finds. -/
theorem remembered_apply {known : Memo → KeyMap Int64 (Option α)}
    {keep : Memo → KeyMap Int64 (Option α) → Memo} {lookup : Int64 → Except Fault (Option α)}
    {id : Int64} {m : Memo} :
    remembered known keep lookup id m =
      match (known m).get? id, lookup id with
      | some found, _ => (.ok found, m)
      | none, .error e => (.error e, m)
      | none, .ok found => (.ok found, keep m ((known m).put id found)) := by
  rw [remembered, get_bind]
  cases (known m).get? id with
  | some found => rfl
  | none => cases lookup id <;> rfl

namespace Computes

theorem pure (a : α) : Computes s (pure a : Resolver α) (.ok a) := fun _ hm => ⟨rfl, hm⟩

theorem read (r : Except Fault α) : Computes s (Resolver.read r) r := fun _ hm => ⟨rfl, hm⟩

theorem throw (e : Fault) : Computes s (throw e : Resolver α) (.error e) := fun _ hm => ⟨rfl, hm⟩

/-- **Chaining keeps it**: where the first step fails the second is not made, and what was
remembered by then agrees. -/
theorem bind {x : Resolver α} {f : α → Resolver β} {r : Except Fault α} {g : α → Except Fault β}
    (hx : Computes s x r) (hf : ∀ a, Computes s (f a) (g a)) : Computes s (x >>= f) (r >>= g) := by
  intro m hm
  obtain ⟨rfl, hm'⟩ := hx m hm
  obtain ⟨found, m', hxm⟩ : ∃ found m', x m = (found, m') := ⟨_, _, rfl⟩
  -- Either way it is the memory that the first step left that counts.
  cases found with
  | error e =>
    have hstop : (x >>= f) m = (.error e, m') := by
      simp [Bind.bind, ExceptT.bind, ExceptT.mk, StateT.bind, ExceptT.bindCont, hxm]
      rfl
    rw [hstop, hxm]
    exact ⟨rfl, by simpa [hxm] using hm'⟩
  | ok a =>
    have hgo : (x >>= f) m = f a m' := by
      simp [Bind.bind, ExceptT.bind, ExceptT.mk, StateT.bind, ExceptT.bindCont, hxm]
    rw [hgo, hxm]
    exact hf a m' (by simpa [hxm] using hm')

/-- **A look-up that remembers is a look-up**, if the memory it asks is right and the answer it
keeps is kept in that memory. -/
theorem remembered {known : Memo → KeyMap Int64 (Option α)}
    {keep : Memo → KeyMap Int64 (Option α) → Memo} {lookup : Int64 → Except Fault (Option α)}
    (hknown : ∀ m, Agrees s m → ∀ id found, (known m).get? id = some found → lookup id = .ok found)
    (hkeep : ∀ m, Agrees s m → ∀ known' : KeyMap Int64 (Option α),
      (∀ id found, known'.get? id = some found → lookup id = .ok found) → Agrees s (keep m known'))
    (id : Int64) : Computes s (Resolver.remembered known keep lookup id) (lookup id) := by
  intro m hm
  rw [remembered_apply]
  cases hget : (known m).get? id with
  | some found =>
    rw [hknown m hm id found hget]
    exact ⟨rfl, hm⟩
  | none =>
    cases hfound : lookup id with
    | error e => exact ⟨rfl, hm⟩
    | ok found =>
      -- The memory now answers for this id too, and for the others as before.
      refine ⟨rfl, hkeep m hm _ fun id' found' h => ?_⟩
      rw [KeyMap.get?_put] at h
      split at h
      · subst id'
        cases h
        exact hfound
      · exact hknown m hm id' found' h

end Computes

/-! ## What the resolver computes -/

theorem computes_environment? (id : ResourceId) :
    Computes s (environment? s id) (s.environment? id) := by
  refine Computes.remembered (fun m hm => hm.environments) (fun m hm known h => ?_) id
  exact { hm with environments := h }

theorem computes_tenant? (id : ResourceId) : Computes s (tenant? s id) (s.tenant? id) := by
  refine Computes.remembered (fun m hm => hm.tenants) (fun m hm known h => ?_) id
  exact { hm with tenants := h }

theorem computes_ods? (id : ResourceId) : Computes s (ods? s id) (s.ods? id) := by
  refine Computes.remembered (fun m hm => hm.odss) (fun m hm known h => ?_) id
  exact { hm with odss := h }

theorem computes_role? (id : RoleId) : Computes s (role? s id) (s.role? id) := by
  refine Computes.remembered (fun m hm => hm.roles) (fun m hm known h => ?_) id
  exact { hm with roles := h }

/-- The key of an organization, whichever ODS was looked up before. -/
theorem computes_edOrgKey? (version : ApiVersion) (x : EdOrg) :
    Computes s (edOrgKey? s version x) (s.keyOf? version x) := by
  cases version with
  | v1 => exact .pure _
  | v2 => exact (computes_ods? x.ods).bind fun _ => .pure _

/-- The keys of organizations. -/
theorem computes_edOrgKeys (version : ApiVersion) (xs : List EdOrg) :
    Computes s (edOrgKeys s version xs) (s.keysOf version xs) := by
  induction xs with
  | nil => exact .pure _
  | cons x xs ih => exact (computes_edOrgKey? version x).bind fun _ => ih.bind fun _ => .pure _

/-- The part of an ODS. -/
theorem computes_part (ods : ResourceId) (ownsOds : Bool) (xs : List EdOrg) :
    Computes s (part s ods ownsOds xs) (s.partOf ods ownsOds xs) := by
  refine (computes_ods? ods).bind fun o => ?_
  cases o with
  | none => exact .pure _
  | some o =>
    refine (computes_tenant? o.tenant).bind fun t => ?_
    cases t with
    | none => exact .pure _
    | some t =>
      refine (computes_environment? t.environment).bind fun e => ?_
      cases e with
      | none => exact .pure _
      | some e => exact (computes_edOrgKeys e.version xs).bind fun _ => .pure _

/-- **A resource reaches what it reaches when everything is read anew.** -/
theorem computes_expand (r : ResourceRef) : Computes s (expand s r) (s.expansion r) := by
  cases r with
  | global => exact .pure _
  | environment id =>
    refine (computes_environment? id).bind fun e => ?_
    cases e with
    | none => exact .pure _
    | some e => exact (Computes.read _).bind fun _ => .pure _
  | tenant id =>
    refine (computes_tenant? id).bind fun t => ?_
    cases t with
    | none => exact .pure _
    | some t =>
      refine (computes_environment? t.environment).bind fun e => ?_
      cases e with
      | none => exact .pure _
      | some e => exact .pure _
  | ods id => exact (Computes.read _).bind fun _ => computes_part id true _
  | edOrg id =>
    refine (Computes.read _).bind fun root => ?_
    cases root with
    | none => exact .pure _
    | some root => exact (Computes.read _).bind fun _ => computes_part root.ods false _

/-- An ownership adds what it adds when everything is read anew. -/
theorem computes_addOwnership (c : Cache) (o : Ownership) :
    Computes s (addOwnership s c o) (s.addTo c o) := by
  refine (computes_role? o.role).bind fun role => ?_
  cases role with
  | none => exact .throw _
  | some role =>
    dsimp only
    split
    · exact (computes_expand o.resource).bind fun _ => .read _
    · exact .pure _

/-- Ownerships add one after the other what each adds by itself. -/
theorem computes_addOwnerships (c : Cache) (os : List Ownership) :
    Computes s (addOwnerships s c os) (os.foldlM s.addTo c) := by
  induction os generalizing c with
  | nil => exact .pure _
  | cons o os ih =>
    rw [List.foldlM_cons]
    exact (computes_addOwnership c o).bind ih

/-! ## One resource after the other -/

/-- What resources reach when one resolver expands them one after the other, and what it remembers
then. It goes on after an expansion that fails. -/
def expandEach (s : Store) : List ResourceRef → Memo → List (Except Fault Expansion) × Memo
  | [], m => ([], m)
  | r :: rs, m =>
    let (x, m) := expand s r m
    let (xs, m) := expandEach s rs m
    (x :: xs, m)

/-- **From a right memory, each resource of a series reaches what it reaches by itself**, and the
memory that is left is right. An expansion leaves such a memory whether or not it fails, so what
comes after it is expanded from such a one. -/
theorem expandEach_eq (rs : List ResourceRef) {m : Memo} (hm : Agrees s m) :
    (expandEach s rs m).1 = rs.map s.expansion ∧ Agrees s (expandEach s rs m).2 := by
  induction rs generalizing m with
  | nil => exact ⟨rfl, hm⟩
  | cons r rs ih =>
    obtain ⟨hfirst, hm'⟩ := computes_expand r m hm
    obtain ⟨hrest, hlast⟩ := ih hm'
    refine ⟨?_, hlast⟩
    show (expand s r m).1 :: (expandEach s rs (expand s r m).2).1 = (r :: rs).map s.expansion
    rw [hfirst, hrest, List.map_cons]

end Resolver

/-- **A team's cache is what its ownerships add one after the other, everything read anew.** -/
theorem Store.buildCache_eq (s : Store) (team : TeamId) :
    s.buildCache team = s.listOwnerships team >>= fun os => os.foldlM s.addTo (.empty team) := by
  unfold buildCache
  congr 1
  funext os
  exact (Resolver.computes_addOwnerships (.empty team) os _ Resolver.agrees_empty).1

/-- **Remembering changes no answer.** Whatever resources one resolver expands one after the other,
it gives for each the expansion or the fault that a new resolver gives, and that reading the store
anew gives, also for those that come after one that failed; and all that it remembers at the end,
absence included, is what is stored. So a team's cache, which is built with one resolver for
hierarchy and roles, is what its ownerships add one after the other with everything read anew. -/
theorem remembering_changes_no_answer (s : Store) :
    (∀ rs : List ResourceRef,
      (Resolver.expandEach s rs .empty).1 = rs.map (fun r => (Resolver.expand s r .empty).1) ∧
        (Resolver.expandEach s rs .empty).1 = rs.map s.expansion ∧
        Resolver.Agrees s (Resolver.expandEach s rs .empty).2) ∧
      ∀ team, s.buildCache team =
        s.listOwnerships team >>= fun os => os.foldlM s.addTo (.empty team) := by
  refine ⟨fun rs => ?_, s.buildCache_eq⟩
  obtain ⟨heach, hmemory⟩ := Resolver.expandEach_eq rs (Resolver.agrees_empty (s := s))
  have halone : ∀ r, (Resolver.expand s r .empty).1 = s.expansion r := by
    intro r
    exact (Resolver.computes_expand r _ Resolver.agrees_empty).1
  refine ⟨?_, heach, hmemory⟩
  simp only [heach, halone]

/-- A store whose table of ODSs is missing, with a tenant whose environment is missing too. -/
def Store.withoutOdss : Store :=
  { Store.blank .epoch with
    environments := some (Index.single ⟨1, "East", "v1"⟩)
    tenants := some (Index.ofList [⟨2, .int 1, "North"⟩, ⟨3, .int 9, "South"⟩])
    edOrgs := some Index.empty }

-- A failure between them, and the second tenant is still known to hang in the air.
example : (Resolver.expandEach .withoutOdss [.tenant 3, .ods 5, .tenant 2, .tenant 3] .empty).1 =
    [.ok .dangling, .error .storage, .ok (.tenant 1 2), .ok .dangling] := rfl

end TeamAccess
