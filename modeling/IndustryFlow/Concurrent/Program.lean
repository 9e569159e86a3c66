import Mathlib.Data.List.Basic
import Mathlib.Logic.Function.Basic

/-!
# Request programs over shared stores

A service handles a request by a sequence of calls to stores that other
requests use at the same time.  `Program` is that sequence with the
continuation of every reply, so code written in `do` notation keeps the order
of its store calls and nothing else is atomic.

`Solo` runs one program at a time beside an environment; `Pool` runs any
number of them interleaved.  Every choice the code leaves open (a fresh name,
which call fails) is part of the event, so a run is a list of events.
-/

namespace Concurrent

/-- Calls to shared stores, each with the continuation of its reply. -/
inductive Program (Op : Type) (Reply : Op → Type) (Error Answer : Type) where
  | done (answer : Answer)
  | fail (error : Error)
  | call (op : Op) (next : Reply op → Program Op Reply Error Answer)

namespace Program

variable {Op : Type} {Reply : Op → Type} {Error Answer Result : Type}

def bind : Program Op Reply Error Answer →
    (Answer → Program Op Reply Error Result) →
    Program Op Reply Error Result
  | .done answer, continuation => continuation answer
  | .fail error, _ => .fail error
  | .call op next, continuation =>
      .call op fun reply => (next reply).bind continuation

instance : Monad (Program Op Reply Error) where
  pure := .done
  bind := bind

/-- One store call. -/
def perform (op : Op) : Program Op Reply Error (Reply op) :=
  .call op .done

@[simp] theorem pure_eq (answer : Answer) :
    (pure answer : Program Op Reply Error Answer) = .done answer := rfl

@[simp] theorem done_bind (answer : Answer)
    (continuation : Answer → Program Op Reply Error Result) :
    (Program.done answer >>= continuation) = continuation answer := rfl

@[simp] theorem fail_bind (error : Error)
    (continuation : Answer → Program Op Reply Error Result) :
    (Program.fail error >>= continuation) = .fail error := rfl

@[simp] theorem call_bind (op : Op)
    (next : Reply op → Program Op Reply Error Answer)
    (continuation : Answer → Program Op Reply Error Result) :
    (Program.call op next >>= continuation) =
      .call op fun reply => next reply >>= continuation := rfl

@[simp] theorem perform_bind (op : Op)
    (continuation : Reply op → Program Op Reply Error Result) :
    (perform op >>= continuation) = .call op continuation := rfl

theorem bind_assoc {Last : Type} (program : Program Op Reply Error Answer)
    (first : Answer → Program Op Reply Error Result)
    (second : Result → Program Op Reply Error Last) :
    program >>= first >>= second =
      program >>= fun answer => first answer >>= second := by
  induction program with
  | done answer => rfl
  | fail error => rfl
  | call op next induction =>
      simp only [call_bind]
      exact congrArg (Program.call op) (funext induction)

theorem bind_pure (program : Program Op Reply Error Answer) :
    program >>= pure = program := by
  induction program with
  | done answer => rfl
  | fail error => rfl
  | call op next induction =>
      rw [call_bind]
      exact congrArg (Program.call op) (funext induction)

/-- The call the program makes next. -/
def next? : Program Op Reply Error Answer → Option Op
  | .call op _ => some op
  | _ => none

/-- The program's answer, once it has one. -/
def answer? : Program Op Reply Error Answer → Option Answer
  | .done answer => some answer
  | _ => none

theorem answer?_eq_some {program : Program Op Reply Error Answer}
    {answer : Answer} (ended : program.answer? = some answer) :
    program = .done answer := by
  cases program with
  | done other =>
      cases ended
      rfl
  | fail error => cases ended
  | call op next => cases ended

/-- The error the program ended with, if it did. -/
def error? : Program Op Reply Error Answer → Option Error
  | .fail error => some error
  | _ => none

theorem error?_eq_some {program : Program Op Reply Error Answer}
    {error : Error} (ended : program.error? = some error) :
    program = .fail error := by
  cases program with
  | done answer => cases ended
  | fail other =>
      cases ended
      rfl
  | call op next => cases ended

/-- The program has answered, with a result or an error. -/
def Finished (program : Program Op Reply Error Answer) : Prop :=
  program.next? = none

instance (program : Program Op Reply Error Answer) :
    Decidable program.Finished :=
  match program with
  | .done _ => .isTrue rfl
  | .fail _ => .isTrue rfl
  | .call _ _ => .isFalse (by simp [Finished, next?])

/-- Along every path whose replies are `possible`, only `allowed` calls are
made and the program ends in an answer that `post` admits. -/
def Always (possible : ∀ op, Reply op → Prop) (allowed : Op → Prop)
    (post : Except Error Answer → Prop) :
    Program Op Reply Error Answer → Prop
  | .done answer => post (.ok answer)
  | .fail error => post (.error error)
  | .call op next => allowed op ∧
      ∀ reply, possible op reply → (next reply).Always possible allowed post

theorem always_any {possible : ∀ op, Reply op → Prop}
    (program : Program Op Reply Error Answer) :
    program.Always possible (fun _ => True) (fun _ => True) := by
  induction program with
  | done answer => trivial
  | fail error => trivial
  | call op next induction =>
      exact ⟨trivial, fun reply _ => induction reply⟩

theorem Always.bind {possible : ∀ op, Reply op → Prop} {allowed : Op → Prop}
    {middle : Except Error Answer → Prop}
    {post : Except Error Result → Prop}
    {program : Program Op Reply Error Answer}
    {continuation : Answer → Program Op Reply Error Result}
    (first : program.Always possible allowed middle)
    (answered : ∀ answer, middle (.ok answer) →
      (continuation answer).Always possible allowed post)
    (failed : ∀ error, middle (.error error) → post (.error error)) :
    (program >>= continuation).Always possible allowed post := by
  induction program with
  | done answer => exact answered answer first
  | fail error => exact failed error first
  | call op next induction =>
      exact ⟨first.1, fun reply admitted =>
        induction reply (first.2 reply admitted)⟩

theorem Always.mono {possible likely : ∀ op, Reply op → Prop}
    {few many : Op → Prop} {strong weak : Except Error Answer → Prop}
    {program : Program Op Reply Error Answer}
    (always : program.Always possible few strong)
    (replies : ∀ op reply, likely op reply → possible op reply)
    (calls : ∀ op, few op → many op)
    (implies : ∀ result, strong result → weak result) :
    program.Always likely many weak := by
  induction program with
  | done answer => exact implies _ always
  | fail error => exact implies _ always
  | call op next induction =>
      exact ⟨calls op always.1, fun reply admitted =>
        induction reply (always.2 reply (replies op reply admitted))⟩

end Program

end Concurrent
