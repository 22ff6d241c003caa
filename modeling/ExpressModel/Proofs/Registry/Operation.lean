import ExpressModel.Registry.Basic

/-! # Operations on registries

Everything that can be done to a registry and read from it, as data, with the reply each
operation gives.  A refused operation replies with the error and leaves the state that the edit
leaves. -/

namespace ExpressModel.Registry

/-- An operation on a registry. -/
inductive Operation (α : Type) : Type 1 where
  | append (a : α)
  | insert (a : α) (at? : Option Nat)
  | set (i : Nat) (a : α)
  | remove (i : Nat)
  | clear
  | applyOptions (options : RegistryOptions)
  | get (i : Nat)
  | count
  | isEmpty
  | capacity
  | policy
  | snapshot
  /-- A function of the elements, computed while the registry is held. -/
  | withItems {β : Type} (f : List α → β)
  | position (p : α → Bool)

/-- The reply to an operation on a registry. -/
inductive Reply (α : Type) : Type 1 where
  | done
  | number (n : Nat)
  | number? (n? : Option Nat)
  | element? (a? : Option α)
  | elements (as : List α)
  | flag (b : Bool)
  | policy (p : IndexPolicy)
  | computed {β : Type} (b : β)
  | refused (e : Error)

/-- The reply to an edit, with the state it leaves. -/
def Reply.ofResult {α β σ : Type} (reply : β → Reply α) : EStateM.Result Error σ β → Reply α × σ
  | .ok b s => (reply b, s)
  | .error e s => (.refused e, s)

variable {α : Type}

def perform : Operation α → Registry α → Reply α × Registry α
  | .append a, r => (.number r.count, r.append a)
  | .insert a at?, r => Reply.ofResult .number (Registry.insert a at? r)
  | .set i a, r => Reply.ofResult (fun _ => .done) (Registry.set i a r)
  | .remove i, r => (.element? (r.remove i).1, (r.remove i).2)
  | .clear, r => (.number r.clear.1, r.clear.2)
  | .applyOptions options, r => (.done, r.applyOptions options)
  | .get i, r => (.element? (r.get? i), r)
  | .count, r => (.number r.count, r)
  | .isEmpty, r => (.flag r.isEmpty, r)
  | .capacity, r => (.number r.capacity, r)
  | .policy, r => (.policy r.policy, r)
  | .snapshot, r => (.elements r.live, r)
  | .withItems f, r => (.computed (f r.live), r)
  | .position p, r => (.number? (r.position? p), r)

end ExpressModel.Registry
