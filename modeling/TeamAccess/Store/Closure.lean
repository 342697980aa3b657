import TeamAccess.Store.Transaction

/-!
# The closure of parent links

The closure table keeps, for organizations, who lies below whom and how many parent links away;
every organization lies below itself at no distance. It is rebuilt for one ODS at a time from the
parent links, which are followed at most `depthLimit` times, so that a cycle of links ends too. Of
several distances between two organizations the smallest is kept.
-/

namespace TeamAccess

/-- How many parent links are followed at most. -/
def depthLimit : Nat := 64

/-- A reference and those that parent links lead to from it, in order, following at most so many.
The link of a row is followed from wherever the row lies; a reference to no row has none. -/
def ancestors (edOrgs : Index EdOrgRow.id) : Nat → IntCell → List IntCell
  | 0, c => [c]
  | n + 1, c =>
    match (c.int?.bind edOrgs.find?).bind EdOrgRow.parent with
    | none => [c]
    | some parent => c :: ancestors edOrgs n parent

/-- The closure rows of an organization: its ancestors, each at its smallest distance. -/
def closureRows (edOrgs : Index EdOrgRow.id) (id : ResourceId) : Index ClosureRow.ends :=
  Index.ofList ((ancestors edOrgs depthLimit (.int id)).zipIdx.map fun (ancestor, depth) =>
    ⟨ancestor, .int id, .int (Int64.ofNat depth)⟩)

namespace Store

/-- The ids of the organizations of an ODS. -/
def membersOf (edOrgs : Index EdOrgRow.id) (ods : ResourceId) : List ResourceId :=
  (edOrgs.rows.filter fun r => r.ods.equals ods).map EdOrgRow.id

/-- Removes the closure rows below the organizations of an ODS. -/
def clearClosure (s : Store) (ods : ResourceId) : Except Fault Store := do
  let closure ← need s.closure
  let edOrgs ← need s.edOrgs
  let members := membersOf edOrgs ods
  return { s with closure := some (closure.filter fun r => !r.descendant.isOneOf members) }

/-- Adds the closure rows below the organizations of an ODS, those left out that are there. It fails
where one of them has an ancestor that is not stored. -/
def fillClosure (s : Store) (ods : ResourceId) : Except Fault Store := do
  let edOrgs ← need s.edOrgs
  let closure ← need s.closure
  let new := (membersOf edOrgs ods).map (closureRows edOrgs)
  if new.all fun rows => rows.rows.all fun r => refersTo r.ancestor edOrgs then
    return { s with closure := some (new.foldl Index.union closure) }
  else .error .storage

/-- Computes the closure rows below the organizations of an ODS anew. If they cannot be added, those
that were removed come back. -/
def rebuildingClosure (ods : ResourceId) : Statements Unit :=
  Statements.transaction do
    .change fun s => s.clearClosure ods
    .change fun s => s.fillClosure ods

/-- A rebuild is made as a whole or not at all. -/
theorem atomic_rebuildingClosure (ods : ResourceId) : (rebuildingClosure ods).Atomic :=
  Statements.atomic_transaction _

/-- Rebuilds the closure below the organizations of an ODS. -/
def rebuildClosure (s : Store) (ods : ResourceId) : Except Fault Store :=
  ((rebuildingClosure ods).written s).map Prod.snd

/-- The organization and those below it, as the closure has them. -/
def listDescendants (s : Store) (id : ResourceId) : Except Fault (List EdOrg) := do
  let closure ← need s.closure
  let edOrgs ← need s.edOrgs
  let below := closure.rows.filter fun r => r.ancestor.equals id
  (below.filterMap fun r => r.descendant.int?.bind edOrgs.find?).mapM EdOrgRow.load

end Store

end TeamAccess
