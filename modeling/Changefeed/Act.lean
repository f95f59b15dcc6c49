import Changefeed.Notice

/-!
# Actions

Everything in this library that happens rather than merely is happens as an
`Act S α`: on a state `S` it gives notices, and ends with an `α` or with a fault.
An action that ends with a fault keeps what it had done to the state until then;
whoever wants more than that has to put it back.
-/

namespace Changefeed

/-- A state, and the notices given so far, oldest first. -/
structure Logged (S : Type) where
  state : S
  notices : List Notice

/-- An action on a state `S` that ends with an `α` or a fault. -/
abbrev Act (S α : Type) := EStateM Fault (Logged S) α

namespace Act

variable {S T α : Type}

/-- The state as it is. -/
def state : Act S S := fun s => .ok s.state s

/-- Something of the state as it is. -/
def read (f : S → α) : Act S α := fun s => .ok (f s.state) s

/-- Changes the state. -/
def update (f : S → S) : Act S Unit := fun s => .ok () ⟨f s.state, s.notices⟩

/-- Gives a notice. -/
def note (n : Notice) : Act S Unit := fun s => .ok () ⟨s.state, s.notices ++ [n]⟩

/-- Ends with a fault. -/
def fail (f : Fault) : Act S α := fun s => .error f s

/-- Ends as something already known does. -/
def ofExcept : Except Fault α → Act S α
  | .ok a => fun s => .ok a s
  | .error f => fail f

/-- Acts on a part of the state. -/
def within (part : S → T) (put : T → S → S) (act : Act T α) : Act S α := fun s =>
  match act ⟨part s.state, s.notices⟩ with
  | .ok a t => .ok a ⟨put t.state s.state, t.notices⟩
  | .error f t => .error f ⟨put t.state s.state, t.notices⟩

/-- Acts on a state of its own, which is gone if the action fails. -/
def apart (start : T) (act : Act T α) : Act S (α × T) := fun s =>
  match act ⟨start, s.notices⟩ with
  | .ok a t => .ok (a, t.state) ⟨s.state, t.notices⟩
  | .error f t => .error f ⟨s.state, t.notices⟩

/-- Acts, and ends with how the action ended. -/
def outcome (act : Act S α) : Act S (Except Fault α) := fun s =>
  match act s with
  | .ok a t => .ok (.ok a) t
  | .error f t => .ok (.error f) t

/-- Acts, and on a fault does something more before ending with it. -/
def onFault (act : Act S α) (more : Fault → Act S Unit) : Act S α := fun s =>
  match act s with
  | .ok a t => .ok a t
  | .error f t =>
    match more f t with
    | .ok _ u => .error f u
    | .error g u => .error g u

end Act

end Changefeed
