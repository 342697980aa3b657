import TeamAccess.Store.Basic

/-!
# Transactions — statements that are made together or not at all

A statement is made as a whole, or it fails and leaves the store as it was. Several of them are made
one after the other: each finds what those before it have written, and when one fails these are
still written. A transaction takes them back. So whatever its statements do, a transaction that
fails leaves the store as it was (`Statements.atomic_transaction`), and one that succeeds has made
all of them (`Statements.written_transaction`).
-/

namespace TeamAccess

/-- Statements on the store. They end with a result or a fault, and with a store either way. -/
abbrev Statements (α : Type) := ExceptT Fault (StateM Store) α

namespace Statements

/-- The result of the statements, and the store after them. -/
def run (x : Statements α) (s : Store) : Except Fault α × Store := x s

/-- What can be read from the store. -/
def query (read : Store → Except Fault α) : Statements α := fun s => (read s, s)

/-- One statement, which is made or not. -/
def one (write : Store → Except Fault (α × Store)) : Statements α := fun s =>
  match write s with
  | .error e => (.error e, s)
  | .ok (a, s') => (.ok a, s')

/-- One statement that has nothing to tell. -/
def change (write : Store → Except Fault Store) : Statements Unit :=
  one fun s => (write s).map fun s' => ((), s')

/-- The statements as a transaction: if one fails, the store is what it was before the first. -/
def transaction (x : Statements α) : Statements α := fun s =>
  match x.run s with
  | (.error e, _) => (.error e, s)
  | (.ok a, s') => (.ok a, s')

/-- The result of the statements and the store that they have written, if all are made. -/
def written (x : Statements α) (s : Store) : Except Fault (α × Store) :=
  (x.run s).1.map fun a => (a, (x.run s).2)

/-- Statements that leave the store as it was when one fails. -/
def Atomic (x : Statements α) : Prop := ∀ s e, (x.run s).1 = .error e → (x.run s).2 = s

variable {x : Statements α} {s : Store}

theorem run_one (write : Store → Except Fault (α × Store)) (s : Store) :
    (one write).run s =
      match write s with
      | .error e => (.error e, s)
      | .ok (a, s') => (.ok a, s') := rfl

theorem run_transaction (x : Statements α) (s : Store) :
    x.transaction.run s =
      match x.run s with
      | (.error e, _) => (.error e, s)
      | (.ok a, s') => (.ok a, s') := rfl

theorem run_bind (x : Statements α) (f : α → Statements β) (s : Store) :
    (x >>= f).run s =
      match x.run s with
      | (.error e, s') => (.error e, s')
      | (.ok a, s') => (f a).run s' := by
  unfold run
  simp only [bind, ExceptT.bind, ExceptT.mk, StateT.bind, ExceptT.bindCont]
  obtain ⟨result, s'⟩ := x s
  cases result <;> rfl

theorem atomic_one (write : Store → Except Fault (α × Store)) : (one write).Atomic := by
  intro s e h
  rw [run_one] at h ⊢
  cases hwrite : write s with
  | error _ => rfl
  | ok _ =>
    rw [hwrite] at h
    cases h

theorem atomic_change (write : Store → Except Fault Store) : (change write).Atomic :=
  atomic_one _

/-- **A transaction that fails leaves the store as it was**, whatever its statements have done. -/
theorem atomic_transaction (x : Statements α) : x.transaction.Atomic := by
  intro s e h
  rw [run_transaction] at h ⊢
  generalize x.run s = outcome at h ⊢
  obtain ⟨result, s'⟩ := outcome
  cases result with
  | error _ => rfl
  | ok _ => cases h

/-- Atomic statements do what they write if they succeed, and else nothing. -/
theorem Atomic.run_eq (h : x.Atomic) (s : Store) :
    x.run s =
      match x.written s with
      | .error e => (.error e, s)
      | .ok (a, s') => (.ok a, s') := by
  have hs := h s
  unfold written
  generalize x.run s = outcome at hs ⊢
  obtain ⟨result, s'⟩ := outcome
  cases result with
  | error e => exact congrArg (Prod.mk _) (hs e rfl)
  | ok a => rfl

/-- Atomic statements that fail leave the store as it was. -/
theorem Atomic.run_of_error (h : x.Atomic) {e : Fault} (he : x.written s = .error e) :
    x.run s = (.error e, s) := by
  rw [h.run_eq, he]

@[simp] theorem written_one (write : Store → Except Fault (α × Store)) :
    (one write).written s = write s := by
  rw [written, run_one]
  cases write s <;> rfl

@[simp] theorem written_change (write : Store → Except Fault Store) :
    (change write).written s = (write s).map fun s' => ((), s') :=
  written_one _

/-- **A transaction that succeeds has made all of its statements.** -/
@[simp] theorem written_transaction : x.transaction.written s = x.written s := by
  rw [written, run_transaction, written]
  obtain ⟨result, s'⟩ := x.run s
  cases result <;> rfl

@[simp] theorem written_query (read : Store → Except Fault α) :
    (query read).written s = (read s).map fun a => (a, s) := rfl

/-- Statements find what those before them have written. -/
theorem written_bind (x : Statements α) (f : α → Statements β) :
    (x >>= f).written s = x.written s >>= fun p => (f p.1).written p.2 := by
  rw [written, run_bind, written]
  obtain ⟨result, s'⟩ := x.run s
  cases result <;> rfl

end Statements

end TeamAccess
