import BulkSync.Fault

namespace BulkSync

/-- The operations a callback may ask for, and what each is answered with. -/
structure Signature where
  Op : Type
  Answer : Op → Type

/-- A callback as data: it is done, it faults, or it asks for an operation and goes on with the
answer. -/
inductive Program (s : Signature) (α : Type) where
  | done (a : α)
  | fail (f : Fault)
  | call (op : s.Op) (next : s.Answer op → Program s α)

/-- An operation together with the answer it got. -/
structure Call (s : Signature) where
  op : s.Op
  answer : s.Answer op

/-- How operations act on a state. -/
abbrev Handler (s : Signature) (σ : Type) :=
  (op : s.Op) → σ → Outcome σ (s.Answer op)

/-- What performing a callback leaves: the state, the calls that were answered, and the result. -/
structure Performance (s : Signature) (σ α : Type) where
  state : σ
  calls : List (Call s)
  result : Except Fault α

namespace Program

variable {s t : Signature} {σ α β : Type}

def bind : Program s α → (α → Program s β) → Program s β
  | .done a, f => f a
  | .fail e, _ => .fail e
  | .call op next, f => .call op fun x => (next x).bind f

instance : Monad (Program s) where
  pure := .done
  bind := Program.bind

/-- The program that asks for one operation. -/
def ask (op : s.Op) : Program s (s.Answer op) :=
  .call op .done

/-- A program over fewer operations is a program over more. -/
def embed (inject : s.Op → t.Op) (answers : ∀ op, t.Answer (inject op) = s.Answer op) :
    Program s α → Program t α
  | .done a => .done a
  | .fail f => .fail f
  | .call op next => .call (inject op) fun x => (next (cast (answers op) x)).embed inject answers

/-- The value of a computation that may fault. -/
def ofExcept : Except Fault α → Program s α
  | .ok a => .done a
  | .error f => .fail f

/-- Answers the calls of a program one after the other. The first fault ends it. -/
def perform (handle : Handler s σ) : Program s α → σ → Performance s σ α
  | .done a, state => ⟨state, [], .ok a⟩
  | .fail f, state => ⟨state, [], .error f⟩
  | .call op next, state =>
    match handle op state with
    | .error f state => ⟨state, [], .error f⟩
    | .ok x state =>
      let rest := (next x).perform handle state
      ⟨rest.state, ⟨op, x⟩ :: rest.calls, rest.result⟩

end Program

end BulkSync
