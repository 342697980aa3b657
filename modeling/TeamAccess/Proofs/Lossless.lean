import TeamAccess.Cache.Form
import TeamAccess.Proofs.Passing
import TeamAccess.Proofs.RoundTrip
import TeamAccess.Proofs.Totality

/-!
# Lossless — a cache is known by its JSON

What is written for a cache says all of it. The form is not tagged throughout: a set is `true` or an
array, an entry of it a number or a text, filed sets leave out what there is none of, and scopes are
members that are named by numbers. So each kind of value is shown apart from the others, up to the
order of members, which a reader need not keep (`Json.Alike`), and the texts of keys and of scopes
are known to be different where the keys and the scopes are. Two caches with one text, or with one
value up to that order, are one cache (`cache_json_is_lossless`).
-/

namespace TeamAccess

/-! ## Texts of JSON values -/

namespace Json

mutual

/-- The draft that says all of a value is that of no other. -/
theorem draft_inj : ∀ {v w : Json}, v.draft = w.draft → v = w
  | .null, w, h => by cases w <;> simp [draft] at h ⊢
  | .bool b, w, h => by cases w <;> simp [draft] at h ⊢; exact h
  | .int n, w, h => by cases w <;> simp [draft] at h ⊢; exact h
  | .str s, w, h => by cases w <;> simp [draft] at h ⊢; exact h
  | .arr vs, w, h => by
    cases w <;> simp only [draft, Draft.arr.injEq, and_true, reduceCtorEq] at h
    rw [draftItems_inj h]
  | .obj ms, w, h => by
    cases w <;> simp only [draft, Draft.obj.injEq, and_true, reduceCtorEq] at h
    rw [draftMembers_inj h]

theorem draftItems_inj : ∀ {vs ws : List Json}, draftItems vs = draftItems ws → vs = ws
  | [], ws, h => by cases ws <;> simp [draftItems] at h ⊢
  | v :: vs, ws, h => by
    cases ws with
    | nil => simp [draftItems] at h
    | cons w ws =>
      obtain ⟨hv, hvs⟩ := List.cons.inj h
      rw [draft_inj hv, draftItems_inj hvs]

theorem draftMembers_inj :
    ∀ {ms ns : List (String × Json)}, draftMembers ms = draftMembers ns → ms = ns
  | [], ns, h => by cases ns <;> simp [draftMembers] at h ⊢
  | (k, v) :: ms, ns, h => by
    cases ns with
    | nil => simp [draftMembers] at h
    | cons n ns =>
      obtain ⟨hm, hms⟩ := List.cons.inj h
      obtain ⟨hk, hv⟩ := Prod.mk.inj hm
      rw [Option.some.inj hk, draft_inj hv, draftMembers_inj hms]

end

/-- **A value is known by either of its texts**, if its numbers fit 64-bit words. -/
theorem layout_inj {layout : Json → List Char} (hlayout : layout ∈ [compact, pretty]) {v w : Json}
    (hv : v.Fits) (hw : w.Fits) : layout v = layout w ↔ v = w := by
  constructor
  · intro htext
    have hread := (reads_layout hlayout hv).ofText_eq
    rw [htext, (reads_layout hlayout hw).ofText_eq] at hread
    exact draft_inj (Prod.mk.inj hread).1.symm
  · rintro rfl
    rfl

/-! ## Values up to the order of members -/

/-- **The values are one but for the order of members**, at whatever depth. -/
inductive Alike : Json → Json → Prop
  | refl (v : Json) : Alike v v
  | arr {vs ws : List Json} : List.Forall₂ Alike vs ws → Alike (.arr vs) (.arr ws)
  /-- The members of one, in some order, have the names of the other's in theirs, and values that
  are alike. -/
  | obj {ms ns ns' : List (String × Json)} : ns.Perm ns' → ms.map Prod.fst = ns'.map Prod.fst →
      List.Forall₂ Alike (ms.map Prod.snd) (ns'.map Prod.snd) → Alike (.obj ms) (.obj ns)

namespace Alike

variable {vs ws : List Json} {ms ns : List (String × Json)}

theorem int_eq {m n : Int} (h : Alike (.int m) (.int n)) : m = n := by
  cases h
  rfl

theorem str_eq {s t : String} (h : Alike (.str s) (.str t)) : s = t := by
  cases h
  rfl

/-- Arrays are alike item by item. -/
theorem items (h : Alike (.arr vs) (.arr ws)) : List.Forall₂ Alike vs ws := by
  cases h with
  | refl => exact List.forall₂_same.2 fun v _ => .refl v
  | arr hitems => exact hitems

/-- Each member of one object has its like in the other. -/
theorem members (h : Alike (.obj ms) (.obj ns)) :
    (∀ m ∈ ms, ∃ n ∈ ns, m.1 = n.1 ∧ Alike m.2 n.2) ∧
      ∀ n ∈ ns, ∃ m ∈ ms, m.1 = n.1 ∧ Alike m.2 n.2 := by
  cases h with
  | refl => exact ⟨fun m hm => ⟨m, hm, rfl, .refl _⟩, fun n hn => ⟨n, hn, rfl, .refl _⟩⟩
  | @obj _ _ ns' hperm hnames hvalues =>
    have hpairs : List.Forall₂ (fun m n => m.1 = n.1 ∧ Alike m.2 n.2) ms ns' := by
      rw [← List.forall₂_eq_eq_eq, List.forall₂_map_left_iff, List.forall₂_map_right_iff] at hnames
      rw [List.forall₂_map_left_iff, List.forall₂_map_right_iff] at hvalues
      exact hvalues.mp (fun m n hvalue hname => ⟨hname, hvalue⟩) hnames
    have hboth : (∀ m ∈ ms, ∃ n ∈ ns', m.1 = n.1 ∧ Alike m.2 n.2) ∧
        ∀ n ∈ ns', ∃ m ∈ ms, m.1 = n.1 ∧ Alike m.2 n.2 := by
      clear hperm hnames hvalues
      induction hpairs with
      | nil => simp
      | cons hmn _ ih =>
        simp only [List.forall_mem_cons, List.exists_mem_cons_iff]
        exact ⟨⟨.inl hmn, fun m hm => .inr (ih.1 m hm)⟩, .inl hmn, fun n hn => .inr (ih.2 n hn)⟩
    simpa only [hperm.mem_iff] using hboth

/-- Objects that are alike have members of the same names. -/
theorem names (h : Alike (.obj ms) (.obj ns)) (k : String) :
    k ∈ ms.map Prod.fst ↔ k ∈ ns.map Prod.fst := by
  obtain ⟨hleft, hright⟩ := h.members
  simp only [List.mem_map]
  constructor
  · rintro ⟨m, hm, rfl⟩
    obtain ⟨n, hn, hname, -⟩ := hleft m hm
    exact ⟨n, hn, hname.symm⟩
  · rintro ⟨n, hn, rfl⟩
    obtain ⟨m, hm, hname, -⟩ := hright n hn
    exact ⟨m, hm, hname⟩

variable {k l : String} {v v' w w' : Json}

/-- Objects of one member are alike if its value is. -/
theorem single (h : Alike (.obj [(k, v)]) (.obj [(k, v')])) : Alike v v' := by
  obtain ⟨n, hn, -, hvalue⟩ := h.members.1 _ (List.mem_singleton.2 rfl)
  obtain rfl := List.mem_singleton.1 hn
  exact hvalue

/-- Objects of two members are alike if each value is. -/
theorem pair (hne : k ≠ l) (h : Alike (.obj [(k, v), (l, w)]) (.obj [(k, v'), (l, w')])) :
    Alike v v' ∧ Alike w w' := by
  obtain ⟨hleft, -⟩ := h.members
  simp only [List.forall_mem_cons, List.exists_mem_cons_iff, List.not_mem_nil, false_and,
    exists_false, or_false, hne, hne.symm, true_and, false_or, false_implies, implies_true,
    and_true] at hleft
  exact hleft

end Alike

/-- The values that are written are alike only for one and the same thing. -/
def Tells {α : Type} (toJson : α → Json) : Prop := ∀ a b, Alike (toJson a) (toJson b) → a = b

/-- Lists are told by their items. -/
theorem Tells.items {α : Type} {toJson : α → Json} (h : Tells toJson) {as bs : List α}
    (hitems : Alike (.arr (as.map toJson)) (.arr (bs.map toJson))) : as = bs := by
  have hpairs := hitems.items
  rw [List.forall₂_map_left_iff, List.forall₂_map_right_iff] at hpairs
  rw [← List.forall₂_eq_eq_eq]
  exact hpairs.imp h

/-- **Maps are told by their members**, if these are named apart. -/
theorem Tells.members {κ ν : Type} [Ord κ] [Std.TransOrd κ] [Std.LawfulEqOrd κ]
    {name : κ → String} (hname : Function.Injective name) {toJson : ν → Json} (h : Tells toJson)
    {m m' : KeyMap κ ν}
    (hmembers : Alike (.obj (m.rows.map fun r => (name r.1, toJson r.2)))
      (.obj (m'.rows.map fun r => (name r.1, toJson r.2)))) : m = m' := by
  obtain ⟨hleft, hright⟩ := hmembers.members
  refine Index.ext_mem fun r => ⟨fun hr => ?_, fun hr => ?_⟩
  · obtain ⟨_, hmem, hkey, hvalue⟩ := hleft _ (List.mem_map.2 ⟨r, hr, rfl⟩)
    obtain ⟨r', hr', rfl⟩ := List.mem_map.1 hmem
    have hsame : r = r' := Prod.ext (hname hkey) (h _ _ hvalue)
    rwa [hsame]
  · obtain ⟨_, hmem, hkey, hvalue⟩ := hright _ (List.mem_map.2 ⟨r, hr, rfl⟩)
    obtain ⟨r', hr', rfl⟩ := List.mem_map.1 hmem
    have hsame : r' = r := Prod.ext (hname hkey) (h _ _ hvalue)
    rwa [← hsame]

end Json

open Json (Tells Alike)

/-! ## Keys and sets -/

theorem AccessKey.tells : Tells AccessKey.toJson := by
  intro a b h
  cases a with
  | id m =>
    cases b with
    | id n => rw [Int64.toInt_inj.1 h.int_eq]
    | edOrg k => cases h
  | edOrg k =>
    cases b with
    | id n => cases h
    | edOrg k' => rw [EdOrgKey.text_inj.1 h.str_eq]

theorem IdSet.tells : Tells IdSet.toJson := by
  intro a b h
  cases a with
  | all =>
    cases b with
    | all => rfl
    | only ks => cases h
  | only ks =>
    cases b with
    | all => cases h
    | only js => exact congrArg only (Index.ext (AccessKey.tells.items h))

/-- Filed sets are written with a member for the flag, if it is set, and one for the scopes, if
there are any. -/
theorem ScopedIds.exists_members (s : ScopedIds) : ∃ ms, s.toJson = .obj ms ∧
    ∀ m, m ∈ ms ↔ s.isEverywhere = true ∧ m = ("all_scopes", .bool true) ∨
      s.scopes.rows.isEmpty = false ∧
        m = ("scopes", .obj (s.scopes.rows.map fun r => (Decimal.text r.1, r.2.toJson))) := by
  refine ⟨_, rfl, fun m => ?_⟩
  cases s.isEverywhere <;> cases s.scopes.rows.isEmpty <;> simp

/-- **Filed sets are told by the flag and by the scopes**, each of which has its own member. -/
theorem ScopedIds.tells : Tells ScopedIds.toJson := by
  intro a b h
  obtain ⟨ms, ha, hms⟩ := a.exists_members
  obtain ⟨ns, hb, hns⟩ := b.exists_members
  rw [ha, hb] at h
  have hflag : a.isEverywhere = b.isEverywhere := by
    simpa [hms, hns, ← Bool.eq_iff_iff] using h.names "all_scopes"
  have hsome : a.scopes.rows.isEmpty = false ↔ b.scopes.rows.isEmpty = false := by
    simpa [hms, hns] using h.names "scopes"
  have hscopes : a.scopes = b.scopes := by
    cases hrows : a.scopes.rows.isEmpty with
    | true =>
      have hnone : b.scopes.rows.isEmpty = true := by simpa [hrows] using hsome
      exact Index.ext ((List.isEmpty_iff.1 hrows).trans (List.isEmpty_iff.1 hnone).symm)
    | false =>
      obtain ⟨n, hn, hname, hvalue⟩ := h.members.1 _ ((hms _).2 (.inr ⟨hrows, rfl⟩))
      rcases (hns n).1 hn with ⟨-, rfl⟩ | ⟨-, rfl⟩
      · simp at hname
      · exact IdSet.tells.members (fun _ _ => Decimal.text_inj.1) hvalue
  obtain ⟨everywhere, scopes⟩ := a
  obtain ⟨everywhere', scopes'⟩ := b
  obtain rfl : everywhere = everywhere' := hflag
  exact congrArg (mk everywhere) hscopes

/-! ## Entries and caches -/

theorem Shape.name_inj {a b : Shape} : a.name = b.name ↔ a = b := by
  cases a <;> cases b <;> simp [name]

/-- An entry is told by its shape and, in that shape, by its ids. -/
theorem CacheEntry.tells : Tells CacheEntry.toJson := by
  intro a b h
  obtain ⟨hname, hids⟩ := h.pair (by decide)
  have hshape : a.shape = b.shape := Shape.name_inj.1 hname.str_eq
  cases a <;> cases b <;> simp only [shape, reduceCtorEq] at hshape
  case unscoped.unscoped ids ids' => rw [IdSet.tells ids ids' hids]
  case byEnvironment.byEnvironment ids ids' => rw [ScopedIds.tells ids ids' hids]
  case byTenant.byTenant ids ids' => rw [ScopedIds.tells ids ids' hids]

/-- **A cache is told by its team and its entries.** -/
theorem Cache.tells : Tells Cache.toJson := by
  intro a b h
  obtain ⟨team, entries⟩ := a
  obtain ⟨team', entries'⟩ := b
  obtain ⟨hteam, hentries⟩ := h.pair (by decide)
  obtain rfl : team = team' := Int64.toInt_inj.1 hteam.int_eq
  exact congrArg _ (CacheEntry.tells.members Privilege.code_injective hentries)

/-! ## Texts of caches -/

theorem IdSet.fits_toJson (ids : IdSet) : ids.toJson.Fits := by
  cases ids with
  | all => trivial
  | only ks =>
    refine Json.fits_arr fun v hv => ?_
    obtain ⟨k, -, rfl⟩ := List.mem_map.1 hv
    cases k <;> simp [AccessKey.toJson]

theorem ScopedIds.fits_toJson (s : ScopedIds) : s.toJson.Fits := by
  obtain ⟨ms, hs, hms⟩ := s.exists_members
  rw [hs]
  refine Json.fits_members fun m hm => ?_
  rcases (hms m).1 hm with ⟨-, rfl⟩ | ⟨-, rfl⟩
  · trivial
  · refine Json.fits_members fun m hm => ?_
    obtain ⟨r, -, rfl⟩ := List.mem_map.1 hm
    exact r.2.fits_toJson

theorem CacheEntry.fits_toJson (e : CacheEntry) : e.toJson.Fits := by
  refine ⟨trivial, ?_, trivial⟩
  cases e with
  | unscoped ids => exact ids.fits_toJson
  | byEnvironment ids | byTenant ids => exact ids.fits_toJson

/-- The numbers in a cache's value are its ids, which have 64 bits. -/
theorem Cache.fits_toJson (c : Cache) : c.toJson.Fits := by
  refine ⟨Json.fits_int64 c.team, Json.fits_members fun m hm => ?_, trivial⟩
  obtain ⟨r, -, rfl⟩ := List.mem_map.1 hm
  exact r.2.fits_toJson

/-- **Nothing of a cache is lost in its JSON.** Caches with one text, compact or laid out in lines,
are one cache, with one team and the same entries, shapes, scopes and sets; and so are caches whose
values differ in the order of members only. The keys of organizations in it are known by their
texts: no version 1 key has the text of a version 2 key, and version 2 keys with one text have one
instance and one organization, negative numbers included. -/
theorem cache_json_is_lossless :
    (∀ a b : Cache, (a.toJson.compact = b.toJson.compact ↔ a = b) ∧
      (a.toJson.pretty = b.toJson.pretty ↔ a = b) ∧ (Alike a.toJson b.toJson ↔ a = b)) ∧
    (∀ k k' : EdOrgKey, k.text = k'.text ↔ k = k') ∧
    (∀ i m n : Int64, (EdOrgKey.v1 m).text ≠ (EdOrgKey.v2 i n).text) ∧
    ∀ i j m n : Int64, (EdOrgKey.v2 i m).text = (EdOrgKey.v2 j n).text ↔ i = j ∧ m = n := by
  have halike (a b : Cache) : Alike a.toJson b.toJson ↔ a = b := by
    constructor
    · exact Cache.tells a b
    · rintro rfl
      exact .refl _
  have htext {layout : Json → List Char} (hlayout : layout ∈ [Json.compact, Json.pretty])
      (a b : Cache) : layout a.toJson = layout b.toJson ↔ a = b := by
    rw [Json.layout_inj hlayout a.fits_toJson b.fits_toJson, ← halike]
    constructor
    · intro hsame
      rw [hsame]
      exact .refl _
    · intro h
      rw [(halike a b).1 h]
  refine ⟨fun a b => ⟨htext (by simp) a b, htext (by simp) a b, halike a b⟩,
    fun k k' => EdOrgKey.text_inj, fun i m n htext => ?_, fun i j m n => ?_⟩
  · cases EdOrgKey.text_inj.1 htext
  · rw [EdOrgKey.text_inj]
    simp [EdOrgKey.v2]

-- Of the three hyphens the second stands between the numbers.
example : (EdOrgKey.v2 (-5) (-3)).text = "-5--3" := rfl

end TeamAccess
