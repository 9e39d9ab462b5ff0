/-!
# Programs — behaviour as requests and what follows each answer

A module is code that a host does not know. What such code can do is fixed by the requests it may
make: a program either is done or makes a request and goes on with the answer. So **whatever a
module does, it does through a handler**, and a fact about every request is a fact about every
program (`Program.run_invariant`).
-/

set_option autoImplicit false

namespace ServiceHost

/-- A program that makes requests `Op`, each answered in `Answer`, and ends with an `α`. -/
inductive Program (Op : Type) (Answer : Op → Type) (α : Type) : Type where
  | done (value : α)
  | ask (op : Op) (next : Answer op → Program Op Answer α)

namespace Program

variable {Op : Type} {Answer : Op → Type} {α β σ : Type}

/-- The program that goes on with what another one ends with. -/
def bind (program : Program Op Answer α) (rest : α → Program Op Answer β) :
    Program Op Answer β :=
  match program with
  | .done value => rest value
  | .ask op next => .ask op fun answer => bind (next answer) rest

instance : Monad (Program Op Answer) where
  pure := .done
  bind := bind

/-- The program that makes one request and ends with its answer. -/
def request (op : Op) : Program Op Answer (Answer op) :=
  .ask op .done

/-- Runs a program on a state, with a handler that answers requests and changes the state. -/
def run (handler : (op : Op) → σ → Answer op × σ) : Program Op Answer α → σ → α × σ
  | .done value, state => (value, state)
  | .ask op next, state =>
    let (answer, state) := handler op state
    run handler (next answer) state

/-- Every request that the program may make satisfies `p`. -/
def AllOps (p : Op → Prop) : Program Op Answer α → Prop
  | .done _ => True
  | .ask op next => p op ∧ ∀ answer, AllOps p (next answer)

/-- Running one program and then another is running the two in sequence. -/
theorem run_bind (handler : (op : Op) → σ → Answer op × σ) (program : Program Op Answer α)
    (rest : α → Program Op Answer β) (state : σ) :
    (program.bind rest).run handler state =
      (rest (program.run handler state).1).run handler (program.run handler state).2 := by
  induction program generalizing state with
  | done value => rfl
  | ask op next ih => exact ih _ _

/-- What every request keeps, the whole run keeps. -/
theorem run_invariant {handler : (op : Op) → σ → Answer op × σ} {p : Op → Prop}
    {invariant : σ → Prop} (keeps : ∀ op state, p op → invariant state →
      invariant (handler op state).2)
    {program : Program Op Answer α} (all : program.AllOps p) {state : σ}
    (start : invariant state) : invariant (program.run handler state).2 := by
  induction program generalizing state with
  | done value => exact start
  | ask op next ih => exact ih _ (all.2 _) (keeps op state all.1 start)

/-- Every program satisfies what all requests satisfy. -/
theorem allOps_of_forall {p : Op → Prop} (h : ∀ op, p op) (program : Program Op Answer α) :
    program.AllOps p := by
  induction program with
  | done value => trivial
  | ask op next ih => exact ⟨h op, ih⟩

end Program

end ServiceHost
