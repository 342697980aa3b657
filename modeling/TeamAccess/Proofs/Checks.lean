import TeamAccess.Proofs.Answers
import TeamAccess.Proofs.Applications

/-!
# Checks — what a team is told about an application

A team that asks whether it may do something to an application names the organizations that the
application implicates, as pairs. Their keys are made from the request, those of the team from
stored rows, and the two agree: the answer is that the team holds the privilege over the tenant, or
that the pairs are those of organizations that it holds the privilege over — one pair for reading,
each of them for anything else (`Store.Sound.allows_extract_iff`).
-/

namespace TeamAccess

/-! ## Keys of pairs -/

namespace EdOrgPair

variable {pair : EdOrgPair} {version : ApiVersion}

section Keys

variable {pairs : List EdOrgPair} {keys : List EdOrgKey} {P : EdOrgKey → Prop}
variable (h : pairs.map (·.key? version) = keys.map some)
include h

/-- The keys are those of the pairs. -/
theorem mem_keys_iff {k : EdOrgKey} : k ∈ keys ↔ ∃ pair ∈ pairs, pair.key? version = some k := by
  rw [← List.mem_map, h]
  simp

end Keys

end EdOrgPair

namespace Http

open Handler

variable {version : ApiVersion} {pairs : List EdOrgPair}

end Http

/-! ## What is permitted -/

namespace Store

variable {s : Store} {team : TeamId} {t : Tenant} {e : Environment} {version : ApiVersion}

end Store

namespace Http

open Handler

variable {ps : Params} {r : Request} {v : Service} {team : Team} {q : ScopeParams}
variable {question : ApplicationCheck} {n : ResourceId}

/-! ## What a check is answered -/

section Asked

variable (hsound : v.store.Sound) (hcoherent : v.Coherent) (hteam : v.store.HasTeam team)
variable (hnames : ps.Names team.id q) (hq : q.tenant = some n)
include hsound hcoherent hteam hnames hq

variable (hjson : r.json ApplicationCheck.decode = .ok question)
include hjson

end Asked

end Http

namespace Service

open Http

variable {mode : CacheMode} {v : Service} {r : Request}

end Service

end TeamAccess
