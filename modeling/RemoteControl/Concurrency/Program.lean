import Mathlib.Logic.Relation

/-!
# Asynchronous Programs

The code of one asynchronous request handler, as a tree of requests to its
surroundings. A handler on a single-threaded event loop runs without
interruption until it waits for something, and other handlers run while it
waits. `Prog` keeps exactly that much: `op` asks the surroundings for
something and continues with the answer, in the same uninterrupted segment,
and `await` is the point where other handlers may run.

The requests are a parameter, a type of operations with a type of answers
for each. What an operation does to the shared state is not part of the
program; `Concurrency.Interleave` supplies it.

`onError` and `bind` follow the exceptions of the source language: a thrown
error skips everything up to the handler around it, and what was already
asked of the surroundings stays done.

A program is data, so what it may do can be read off it. `Prog.Uses` says so
of its operations, and the equations of `bind` and `onError` are simp lemmas,
with which a handler written in `do` notation is reduced to its tree. Proofs
about all programs are by induction on the tree, with a case for each of its
four constructors.

## Main definitions

* `Prog`: A program as a tree of operations and waits.
* `Prog.bind`: Sequencing.
* `Prog.onError`: Handling a thrown error.
* `Prog.request`: A program of a single operation.
* `Prog.returned`, `Prog.thrown`: How a program that is over has ended.
* `Prog.runAlone`: A run in which no other handler gets a turn.
* `Prog.Uses`: The operations a program may issue.

## Theorems

* `Prog.bind_assoc`: Sequencing is associative.
* `Prog.runAlone_bind`, `Prog.runAlone_onError`: A run alone of a sequence is
  two runs, one after the other.
* `Prog.Uses.bind`, `Prog.Uses.onError`: The operations of a sequence are
  those of its parts.
-/

namespace Concurrency

/-- A program over operations `Op`, each answered with a value of its own
    type, that returns a value of type `α` or throws an error of type `ε`. -/
inductive Prog (Op : Type) (Resp : Op → Type) (ε α : Type) where
  | ret (a : α)
  | throw (e : ε)
  | op (o : Op) (k : Resp o → Prog Op Resp ε α)
  | await (p : Prog Op Resp ε α)

namespace Prog

variable {Op : Type} {Resp : Op → Type} {ε α β γ σ Env : Type}

/-- Run one program and hand its value to the next. -/
def bind : Prog Op Resp ε α → (α → Prog Op Resp ε β) → Prog Op Resp ε β
  | ret a, f => f a
  | throw e, _ => throw e
  | op o k, f => op o (fun r => (k r).bind f)
  | await p, f => await (p.bind f)

/-- Run a program, and a handler in place of the error it throws. -/
def onError : Prog Op Resp ε α → (ε → Prog Op Resp ε α) → Prog Op Resp ε α
  | ret a, _ => ret a
  | throw e, h => h e
  | op o k, h => op o (fun r => (k r).onError h)
  | await p, h => await (p.onError h)

/-- A single operation, in the segment the handler is in. -/
def request (o : Op) : Prog Op Resp ε (Resp o) := op o ret

/-- A bare wait. -/
def pause : Prog Op Resp ε Unit := await (ret ())

/-- What a program that is over has returned. -/
def returned : Prog Op Resp ε α → Option α
  | ret a => some a
  | _ => none

/-- The error of a program that has failed. -/
def thrown : Prog Op Resp ε α → Option ε
  | throw e => some e
  | _ => none

/-- What has been returned, as an equation about the program. -/
theorem returned_eq_some {p : Prog Op Resp ε α} {a : α} : p.returned = some a ↔ p = ret a := by
  cases p <;> simp only [returned, Option.some.injEq, reduceCtorEq, ret.injEq]

/-- What has been thrown, as an equation about the program. -/
theorem thrown_eq_some {p : Prog Op Resp ε α} {e : ε} : p.thrown = some e ↔ p = throw e := by
  cases p <;> simp only [thrown, Option.some.injEq, reduceCtorEq, throw.injEq]

instance : Monad (Prog Op Resp ε) where
  pure := ret
  bind := bind

/-- The monad's `pure` is the program that has returned. -/
@[simp] theorem pure_eq (a : α) : (pure a : Prog Op Resp ε α) = ret a := rfl

/-- The monad's `>>=` is `bind`, so the lemmas below apply to `do` blocks. -/
@[simp] theorem bind_eq (p : Prog Op Resp ε α) (f : α → Prog Op Resp ε β) :
    p >>= f = p.bind f := rfl

/-- A value goes straight to what comes next. -/
@[simp] theorem ret_bind (a : α) (f : α → Prog Op Resp ε β) : (ret a).bind f = f a := rfl

/-- An error skips what would have come next. -/
@[simp] theorem throw_bind (e : ε) (f : α → Prog Op Resp ε β) :
    (throw e : Prog Op Resp ε α).bind f = throw e := rfl

/-- An operation comes first, and its answer decides what comes next. -/
@[simp] theorem op_bind (o : Op) (k : Resp o → Prog Op Resp ε α) (f : α → Prog Op Resp ε β) :
    (op o k).bind f = op o (fun r => (k r).bind f) := rfl

/-- A wait comes first. -/
@[simp] theorem await_bind (p : Prog Op Resp ε α) (f : α → Prog Op Resp ε β) :
    (await p).bind f = await (p.bind f) := rfl

/-- A value is not handled. -/
@[simp] theorem ret_onError (a : α) (h : ε → Prog Op Resp ε α) : (ret a).onError h = ret a := rfl

/-- An error is what the handler is for. -/
@[simp] theorem throw_onError (e : ε) (h : ε → Prog Op Resp ε α) : (throw e).onError h = h e := rfl

/-- The handler stays in place behind an operation. -/
@[simp] theorem op_onError (o : Op) (k : Resp o → Prog Op Resp ε α) (h : ε → Prog Op Resp ε α) :
    (op o k).onError h = op o (fun r => (k r).onError h) := rfl

/-- The handler stays in place behind a wait. -/
@[simp] theorem await_onError (p : Prog Op Resp ε α) (h : ε → Prog Op Resp ε α) :
    (await p).onError h = await (p.onError h) := rfl

/-- Sequencing is associative. Whether the first two programs or the last two are
    put together first, the tree is the same. -/
theorem bind_assoc (p : Prog Op Resp ε α) (f : α → Prog Op Resp ε β)
    (g : β → Prog Op Resp ε γ) :
    (p.bind f).bind g = p.bind (fun a => (f a).bind g) := by
  induction p with
  | ret a => rfl
  | throw e => rfl
  | op o k ih =>
      -- The same operation on both sides, so the continuations are compared answer by
      -- answer.
      simp only [op_bind, op.injEq, heq_eq_eq, true_and]
      funext r
      exact ih r
  | await p ih =>
      simp only [await_bind, await.injEq]
      exact ih

/-- A run in which the handler gets every turn. `exec` says what an operation
    answers and does; it answers `none` when the operation cannot happen in
    that state, and then the handler is stuck. -/
def runAlone (exec : (o : Op) → σ → Option (Resp o × σ)) :
    Prog Op Resp ε α → σ → Option (Except ε α × σ)
  | ret a, s => some (.ok a, s)
  | throw e, s => some (.error e, s)
  | op o k, s => match exec o s with
    | none => none
    | some (r, s') => (k r).runAlone exec s'
  | await p, s => p.runAlone exec s

/-- A run alone of a sequence is a run alone of the first program and, if that
    returns, one of the second with the value. If the first throws, so does the
    sequence. -/
theorem runAlone_bind (exec : (o : Op) → σ → Option (Resp o × σ)) (p : Prog Op Resp ε α)
    (f : α → Prog Op Resp ε β) (s : σ) :
    (p.bind f).runAlone exec s = match p.runAlone exec s with
      | none => none
      | some (.ok a, s') => (f a).runAlone exec s'
      | some (.error e, s') => some (.error e, s') := by
  induction p generalizing s with
  | ret a => rfl
  | throw e => rfl
  -- An operation that is stuck leaves both sides stuck.
  | op o k ih =>
      simp only [op_bind, runAlone]
      cases exec o s with
      | none => rfl
      | some rs => exact ih rs.1 rs.2
  | await p ih => exact ih s

/-- A run alone with a handler is a run alone without it and, if that throws, one
    of the handler. If it returns, the handler has no part in it. -/
theorem runAlone_onError (exec : (o : Op) → σ → Option (Resp o × σ)) (p : Prog Op Resp ε α)
    (h : ε → Prog Op Resp ε α) (s : σ) :
    (p.onError h).runAlone exec s = match p.runAlone exec s with
      | none => none
      | some (.ok a, s') => some (.ok a, s')
      | some (.error e, s') => (h e).runAlone exec s' := by
  induction p generalizing s with
  | ret a => rfl
  | throw e => rfl
  | op o k ih =>
      simp only [op_onError, runAlone]
      -- Stuck on both sides, or the same answer on both sides.
      cases exec o s with
      | none => rfl
      | some rs => exact ih rs.1 rs.2
  | await p ih => exact ih s

/-! ## The operations of a program -/

/-- The program issues no operation but these. -/
def Uses (O : Op → Prop) : Prog Op Resp ε α → Prop
  | ret _ => True
  | throw _ => True
  | op o k => O o ∧ ∀ r, Uses O (k r)
  | await p => Uses O p

variable {O : Op → Prop}

/-- A sequence issues the operations of its parts and no others. -/
theorem Uses.bind {p : Prog Op Resp ε α} {f : α → Prog Op Resp ε β} (h : p.Uses O)
    (hf : ∀ a, (f a).Uses O) : (p.bind f).Uses O := by
  induction p with
  | ret a => exact hf a
  | throw e => trivial
  | op o k ih => exact ⟨h.1, fun r => ih r (h.2 r)⟩
  | await p ih => exact ih h

/-- A program with a handler issues the operations of the two and no others. -/
theorem Uses.onError {p : Prog Op Resp ε α} {f : ε → Prog Op Resp ε α} (h : p.Uses O)
    (hf : ∀ e, (f e).Uses O) : (p.onError f).Uses O := by
  induction p with
  | ret a => trivial
  | throw e => exact hf e
  | op o k ih => exact ⟨h.1, fun r => ih r (h.2 r)⟩
  | await p ih => exact ih h

end Prog

end Concurrency
