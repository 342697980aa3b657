import Mathlib.Data.List.Forall2
import TeamAccess.Store.Basic

/-!
# Fallible computations taken apart

Every operation of the store is a chain of steps that may fail. A chain has a result exactly if each
step has one and the next goes on from it. The lemmas here say so for each kind of step, so that a
chain is opened from its front, one `obtain` a step, and no proof looks at how failure is passed on.
-/

namespace TeamAccess

variable {α β ε δ : Type}

/-- A result is a result. -/
@[simp] theorem pure_eq_ok_iff {a b : α} : (pure a : Except ε α) = .ok b ↔ a = b := by
  constructor
  · intro h
    exact Except.ok.inj h
  · rintro rfl
    rfl

/-- **A chain has a result if its first step has one and the rest goes on from there.** -/
theorem bind_eq_ok_iff {x : Except ε α} {f : α → Except ε β} {b : β} :
    x >>= f = .ok b ↔ ∃ a, x = .ok a ∧ f a = .ok b := by
  cases x with
  | error e => simp [bind, Except.bind]
  | ok a => simp [bind, Except.bind]

/-- A changed result comes from a result. -/
@[simp] theorem map_eq_ok_iff {x : Except ε α} {f : α → β} {b : β} :
    f <$> x = .ok b ↔ ∃ a, x = .ok a ∧ f a = b := by
  cases x <;> simp [Functor.map, Except.map]

/-- Another name for the fault keeps the result. -/
@[simp] theorem mapError_eq_ok_iff {x : Except ε α} {f : ε → δ} {a : α} :
    x.mapError f = .ok a ↔ x = .ok a := by
  cases x <;> simp [Except.mapError]

/-- A list is read item by item, in order. -/
theorem mapM_eq_ok_iff {f : α → Except ε β} {xs : List α} {ys : List β} :
    xs.mapM f = .ok ys ↔ List.Forall₂ (fun x y => f x = .ok y) xs ys := by
  induction xs generalizing ys with
  | nil => cases ys <;> simp
  | cons x xs ih =>
    rw [List.mapM_cons, bind_eq_ok_iff]
    simp only [bind_eq_ok_iff, pure_eq_ok_iff, List.forall₂_cons_left_iff, ih]
    constructor
    · rintro ⟨y, hy, zs, hzs, rfl⟩
      exact ⟨y, zs, hy, hzs, rfl⟩
    · rintro ⟨y, zs, hy, hzs, rfl⟩
      exact ⟨y, hy, zs, hzs, rfl⟩

/-- What a list reads as is what its items read as. -/
theorem mem_iff_of_mapM_eq_ok {f : α → Except ε β} {xs : List α} {ys : List β}
    (h : xs.mapM f = .ok ys) {y : β} : y ∈ ys ↔ ∃ x ∈ xs, f x = .ok y := by
  induction mapM_eq_ok_iff.1 h with
  | nil => simp
  | cons hxy _ ih =>
    rw [List.mem_cons, ih (mapM_eq_ok_iff.2 ‹_›)]
    constructor
    · rintro (rfl | ⟨x, hx, hy⟩)
      · exact ⟨_, by simp, hxy⟩
      · exact ⟨x, by simp [hx], hy⟩
    · rintro ⟨x, hx, hy⟩
      rcases List.mem_cons.1 hx with rfl | hx
      · exact .inl (Except.ok.inj (hy.symm.trans hxy))
      · exact .inr ⟨x, hx, hy⟩

/-- Each item of a list that was read reads as something. -/
theorem exists_of_mapM_eq_ok {f : α → Except ε β} {xs : List α} {ys : List β}
    (h : xs.mapM f = .ok ys) {x : α} (hx : x ∈ xs) : ∃ y, f x = .ok y := by
  induction mapM_eq_ok_iff.1 h with
  | nil => cases hx
  | cons hxy hrest ih =>
    rcases List.mem_cons.1 hx with rfl | hx
    · exact ⟨_, hxy⟩
    · exact ih (mapM_eq_ok_iff.2 hrest) hx

/-- What is read from a list stands to each other as the items do that it is read from. -/
theorem pairwise_of_mapM_eq_ok {f : α → Except ε β} {R : α → α → Prop} {S : β → β → Prop}
    (hRS : ∀ {a b a' b'}, f a = .ok a' → f b = .ok b' → R a b → S a' b') {xs : List α}
    {ys : List β} (h : xs.mapM f = .ok ys) (hx : xs.Pairwise R) : ys.Pairwise S := by
  induction mapM_eq_ok_iff.1 h with
  | nil => exact .nil
  | cons hxy hrest ih =>
    have hread := mapM_eq_ok_iff.2 hrest
    refine .cons (fun b' hb' => ?_) (ih hread hx.of_cons)
    obtain ⟨b, hb, hbb'⟩ := (mem_iff_of_mapM_eq_ok hread).1 hb'
    exact hRS hxy hbb' (List.rel_of_pairwise_cons hx hb)

/-! ## Having a result -/

/-- The computation has a result. -/
def Succeeds (x : Except ε α) : Prop := ∃ a, x = .ok a

theorem Succeeds.ok (a : α) : Succeeds (.ok a : Except ε α) := ⟨a, rfl⟩

theorem Succeeds.pure (a : α) : Succeeds (pure a : Except ε α) := ⟨a, rfl⟩

/-- **A chain has a result if each step has one**, whatever the steps before it gave. -/
theorem Succeeds.bind {x : Except ε α} {f : α → Except ε β} (hx : Succeeds x)
    (hf : ∀ a, x = .ok a → Succeeds (f a)) : Succeeds (x >>= f) := by
  obtain ⟨a, ha⟩ := hx
  obtain ⟨b, hb⟩ := hf a ha
  exact ⟨b, bind_eq_ok_iff.2 ⟨a, ha, hb⟩⟩

/-- A list can be read if each of its items can. -/
theorem Succeeds.mapM {f : α → Except ε β} {xs : List α} (h : ∀ x ∈ xs, Succeeds (f x)) :
    Succeeds (xs.mapM f) := by
  induction xs with
  | nil => exact .pure []
  | cons x xs ih =>
    rw [List.mapM_cons]
    refine .bind (h x List.mem_cons_self) fun y _ => ?_
    exact .bind (ih fun z hz => h z (List.mem_cons_of_mem _ hz)) fun ys _ => .pure _

/-- A chain succeeds if its first step does, and the rest from what the first step gave. -/
theorem succeeds_bind_iff {x : Except ε α} {f : α → Except ε β} :
    Succeeds (x >>= f) ↔ Succeeds x ∧ ∀ a, x = .ok a → Succeeds (f a) := by
  constructor
  · rintro ⟨b, hb⟩
    obtain ⟨a, ha, hfa⟩ := bind_eq_ok_iff.1 hb
    refine ⟨⟨a, ha⟩, fun a' ha' => ?_⟩
    obtain rfl := Except.ok.inj (ha.symm.trans ha')
    exact ⟨b, hfa⟩
  · rintro ⟨hx, hf⟩
    exact .bind hx hf

/-- A chain succeeds if its look-up does, and it goes on well whether or not something is found. -/
theorem Succeeds.found {x : Except ε (Option α)} {f : Option α → Except ε β} (hx : Succeeds x)
    (hnone : Succeeds (f none)) (hsome : ∀ a, x = .ok (some a) → Succeeds (f (some a))) :
    Succeeds (x >>= f) := by
  refine .bind hx fun found hfound => ?_
  cases found with
  | none => exact hnone
  | some a => exact hsome a hfound

/-- A list is read if each of its items is. -/
theorem succeeds_mapM_iff {f : α → Except ε β} {xs : List α} :
    Succeeds (xs.mapM f) ↔ ∀ x ∈ xs, Succeeds (f x) := by
  refine ⟨?_, .mapM⟩
  rintro ⟨ys, hys⟩ x hx
  exact exists_of_mapM_eq_ok hys hx

/-! ## Failing -/

/-- If the computation fails, its fault is such a one. -/
def FailsOnly (x : Except ε α) (P : ε → Prop) : Prop := ∀ e, x = .error e → P e

namespace FailsOnly

variable {P : ε → Prop}

/-- What has a result does not fail. -/
theorem of_succeeds {x : Except ε α} (h : Succeeds x) : FailsOnly x P := by
  rintro e rfl
  obtain ⟨a, ha⟩ := h
  cases ha

theorem ok (a : α) : FailsOnly (.ok a) P := .of_succeeds (.ok a)

theorem error {e : ε} (h : P e) : FailsOnly (.error e : Except ε α) P := by
  intro e' he'
  cases he'
  exact h

/-- Such a fault is one in every wider sense too. -/
theorem imp {R : ε → Prop} {x : Except ε α} (h : FailsOnly x P) (hPR : ∀ e, P e → R e) :
    FailsOnly x R :=
  fun e he => hPR e (h e he)

/-- What has no result has such a fault. -/
theorem exists_error {x : Except ε α} (h : FailsOnly x P) (hx : ¬ Succeeds x) :
    ∃ e, P e ∧ x = .error e := by
  cases x with
  | error e => exact ⟨e, h e rfl, rfl⟩
  | ok a => exact absurd (.ok a) hx

/-- **A chain fails as its steps do.** -/
theorem bind {x : Except ε α} {f : α → Except ε β} (hx : FailsOnly x P)
    (hf : ∀ a, x = .ok a → FailsOnly (f a) P) : FailsOnly (x >>= f) P := by
  intro e he
  cases x with
  | error e' =>
    cases he
    exact hx e rfl
  | ok a => exact hf a rfl e he

/-- A chain fails as its look-up does, or as it goes on when something is found or nothing is. -/
theorem found {x : Except ε (Option α)} {f : Option α → Except ε β} (hx : FailsOnly x P)
    (hnone : FailsOnly (f none) P) (hsome : ∀ a, FailsOnly (f (some a)) P) :
    FailsOnly (x >>= f) P := by
  refine .bind hx fun found _ => ?_
  cases found with
  | none => exact hnone
  | some a => exact hsome a

/-- Under another name the fault is what its name was changed to. -/
theorem mapError {f : ε → δ} {R : δ → Prop} {x : Except ε α} (h : FailsOnly x P)
    (hf : ∀ e, P e → R (f e)) : FailsOnly (x.mapError f) R := by
  intro d hd
  cases x with
  | error e =>
    cases hd
    exact hf e (h e rfl)
  | ok a => cases hd

/-- A list fails as one of its items does. -/
theorem mapM {f : α → Except ε β} {xs : List α} (h : ∀ x ∈ xs, FailsOnly (f x) P) :
    FailsOnly (xs.mapM f) P := by
  induction xs with
  | nil => exact .ok []
  | cons x xs ih =>
    rw [List.mapM_cons]
    refine .bind (h x List.mem_cons_self) fun y _ => ?_
    exact .bind (ih fun z hz => h z (List.mem_cons_of_mem _ hz)) fun ys _ => .ok _

end FailsOnly

namespace Store

/-- What is needed is there. -/
@[simp] theorem need_eq_ok_iff {a : Option α} {b : α} : need a = .ok b ↔ a = some b := by
  cases a <;> simp [need]

/-- What is needed and there is found. -/
theorem succeeds_need {a : Option α} {b : α} (h : a = some b) : Succeeds (need a) :=
  ⟨b, need_eq_ok_iff.2 h⟩

/-- What is needed and missing is a failure of the storage. -/
theorem failsOnly_need {P : Fault → Prop} (h : P .storage) (a : Option α) :
    FailsOnly (need a) P := by
  cases a with
  | none => exact .error h
  | some a => exact .ok a

/-- A chain that needs what is there goes on with it. -/
theorem succeeds_need_bind {a : Option α} {b : α} {f : α → Except Fault β} (h : a = some b)
    (hf : Succeeds (f b)) : Succeeds (need a >>= f) := by
  subst h
  exact hf

/-- What an insertion needs is there. -/
@[simp] theorem available_eq_ok_iff {a : Option α} {b : α} : available a = .ok b ↔ a = some b := by
  cases a <;> simp [available]

/-- A condition of an insertion holds. -/
@[simp] theorem holds_eq_ok_iff {c : Bool} {u : Unit} : holds c = .ok u ↔ c = true := by
  cases c <;> simp [holds]

end Store

end TeamAccess
