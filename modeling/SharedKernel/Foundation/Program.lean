import Mathlib.Tactic.Common

/-! Effectful programs as trees: a program has finished, has failed, or awaits the reply
to one operation. Everything an environment can do to a program is a choice of replies.
-/

namespace Foundation

/-- The operations a program may await, each with the type of the reply it resumes on. -/
structure Signature where
  Op : Type
  Reply : Op → Type

/-- A program over the operations of `F`, failing with `ε` or finishing with `α`. -/
inductive Program (F : Signature) (ε α : Type) where
  | done (value : α)
  | fail (error : ε)
  | await (op : F.Op) (resume : F.Reply op → Program F ε α)

/-- One awaited operation together with the reply it received. -/
structure Event (F : Signature) where
  op : F.Op
  reply : F.Reply op

namespace Program

variable {F : Signature} {ε α β : Type}

/-- Sequencing: `next` starts where the first program finishes, and never after a failure. -/
def bind : Program F ε α → (α → Program F ε β) → Program F ε β
  | done value, next => next value
  | fail error, _ => fail error
  | await op resume, next => await op (fun reply => (resume reply).bind next)

/-- Recovery: `recover` starts where the first program fails, and never after it finishes. -/
def handle : Program F ε α → (ε → Program F ε α) → Program F ε α
  | done value, _ => done value
  | fail error, recover => recover error
  | await op resume, recover => await op (fun reply => (resume reply).handle recover)

instance : Monad (Program F ε) where
  pure := done
  bind := bind

instance : MonadExcept ε (Program F ε) where
  throw := fail
  tryCatch := handle

/-- Await one operation and return its reply. -/
def perform (op : F.Op) : Program F ε (F.Reply op) :=
  await op done

/-- A finished or failed program, according to a settled outcome. -/
def settle : Except ε α → Program F ε α
  | .ok value => done value
  | .error error => fail error

/-- Run a program to its end and return how it ended, without failing. -/
def attempt : Program F ε α → Program F ε (Except ε α)
  | done value => done (.ok value)
  | fail error => done (.error error)
  | await op resume => await op (fun reply => (resume reply).attempt)

/-- Carry out every operation of a program by a program over other operations. -/
def translate {G : Signature} (via : (op : F.Op) → Program G ε (F.Reply op))
    : Program F ε α → Program G ε α
  | done value => done value
  | fail error => fail error
  | await op resume => (via op).bind (fun reply => (resume reply).translate via)

@[simp] theorem pure_eq (value : α) : (pure value : Program F ε α) = done value := rfl

@[simp] theorem bind_eq (first : Program F ε α) (next : α → Program F ε β)
    : first >>= next = first.bind next :=
  rfl

@[simp] theorem throw_eq (error : ε) : (throw error : Program F ε α) = fail error := rfl

@[simp] theorem tryCatch_eq (body : Program F ε α) (recover : ε → Program F ε α)
    : tryCatch body recover = body.handle recover :=
  rfl

@[simp] theorem done_bind (value : α) (next : α → Program F ε β)
    : (done value : Program F ε α).bind next = next value :=
  rfl

@[simp] theorem fail_bind (error : ε) (next : α → Program F ε β)
    : (fail error : Program F ε α).bind next = fail error :=
  rfl

@[simp] theorem await_bind (op : F.Op) (resume : F.Reply op → Program F ε α)
    (next : α → Program F ε β)
    : (await op resume).bind next = await op (fun reply => (resume reply).bind next) :=
  rfl

@[simp] theorem perform_eq (op : F.Op)
    : (perform op : Program F ε (F.Reply op)) = await op done :=
  rfl

@[simp] theorem done_handle (value : α) (recover : ε → Program F ε α)
    : (done value : Program F ε α).handle recover = done value :=
  rfl

@[simp] theorem fail_handle (error : ε) (recover : ε → Program F ε α)
    : (fail error : Program F ε α).handle recover = recover error :=
  rfl

@[simp] theorem await_handle (op : F.Op) (resume : F.Reply op → Program F ε α)
    (recover : ε → Program F ε α)
    : (await op resume).handle recover
      = await op (fun reply => (resume reply).handle recover) :=
  rfl

@[simp] theorem settle_ok (value : α) : (settle (.ok value) : Program F ε α) = done value :=
  rfl

@[simp] theorem settle_error (error : ε)
    : (settle (.error error) : Program F ε α) = fail error :=
  rfl

end Program
end Foundation
