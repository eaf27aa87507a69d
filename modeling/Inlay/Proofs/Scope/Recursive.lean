import Inlay.Proofs.Scope.Structure

/-!
Scopes by recursion. A procedure for scopes calls itself for each block and goes on where the call
stopped; another one takes an emitting directive together with the end of its region. The walk keeps
the open calls as frames instead, and comes to the same regions and the same fault. The procedures
write no messages, so numbers with too many digits do not stop them.
-/

namespace Inlay.Scope

/-- A procedure appends to the regions that were completed so far, and a fault leaves them. -/
abbrev Procedure (α : Type) := ExceptT Fault (StateM (List Region)) α

namespace Procedure

variable {α β : Type}

def call (procedure : Procedure α) (regions : List Region) : Except Fault α × List Region :=
  (procedure.run.run regions).run

@[simp] theorem call_throw (fault : Fault) (regions : List Region) :
    (throw fault : Procedure α).call regions = (.error fault, regions) := rfl

theorem call_bind (procedure : Procedure α) (next : α → Procedure β) (regions : List Region) :
    (procedure >>= next).call regions =
      match procedure.call regions with
      | (.ok value, completed) => (next value).call completed
      | (.error fault, completed) => (.error fault, completed) := by
  change (ExceptT.bindCont next (procedure.call regions).1).run (procedure.call regions).2 = _
  rcases procedure.call regions with ⟨outcome, completed⟩
  cases outcome with
  | ok value => rfl
  | error fault => rfl

end Procedure

section

variable {directives : List Directive} {index : Nat} {emitter : Directive}
  {arguments : List Value} {data : Fields} {regions : List Region}

end

end Inlay.Scope
