import ExpressModel.Error

/-! # Edits

An edit of a state answers a value or refuses with an error, and says in either case what the
state is afterwards.  That a refused edit leaves the state alone is therefore a fact about each
edit and not a matter of how edits are typed. -/

namespace ExpressModel

/-- An edit of a state of type `σ` that answers an `α` or is refused. -/
abbrev Edit (σ α : Type) : Type :=
  EStateM Error σ α

namespace Edit

variable {σ τ α : Type}

/-- The refusal of an edit, the state unchanged. -/
def refuse (e : Error) : Edit σ α :=
  fun s => .error e s

/-- The value of a query on the current state, which is kept. -/
def query (f : σ → Except Error α) : Edit σ α :=
  fun s => match f s with
    | .ok a => .ok a s
    | .error e => .error e s

/-- An edit of a part of the state: `view` finds the part or refuses, and `put` places it
back. -/
def focus (view : σ → Except Error τ) (put : τ → σ → σ) (e : Edit τ α) : Edit σ α :=
  fun s => match view s with
    | .error err => .error err s
    | .ok t => match e t with
      | .ok a t => .ok a (put t s)
      | .error err t => .error err (put t s)

/-- An edit of a part that the state always has. -/
def within (view : σ → τ) (put : τ → σ → σ) (e : Edit τ α) : Edit σ α :=
  focus (fun s => .ok (view s)) put e

end Edit

end ExpressModel
