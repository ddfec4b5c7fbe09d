import RowFilter.Proofs.Registry.Reachable

/-!
# Registering more

`Registry.registerAll` registers one signature after another and goes on after a refusal, which
changes nothing. Main result: `resolve_registerAll`. What a name with operand types resolves to is
never replaced, so the functions that are there from the start stay what they are.
-/

namespace RowFilter

namespace Registry

/-- The registry after one more attempt to register a signature. -/
def attempt (r : Registry) (s : Signature) : Registry :=
  match r.register s with
  | .ok r' => r'
  | .error _ => r

/-- The registry after attempts to register each of the signatures, in this order. -/
def registerAll (r : Registry) (signatures : List Signature) : Registry :=
  signatures.foldl attempt r

/-- A signature that is registered comes after all those that a call may be resolved to already. -/
theorem resolve_attempt {r : Registry} {name : String} {args : List DataType} {s : Signature}
    (h : r.resolve name args = .ok s) (s' : Signature) :
    (r.attempt s').resolve name args = .ok s := by
  rw [attempt]
  cases hregister : r.register s' with
  | error e => exact h
  | ok r' =>
    rw [resolve_eq_ok_iff, overloads] at h ⊢
    rw [signatures_of_register hregister, List.filter_append, List.find?_append, h, Option.some_or]

/-- **What is resolved stays**: registering more signatures does not change what a name with operand
types resolves to. -/
theorem resolve_registerAll {r : Registry} {name : String} {args : List DataType} {s : Signature}
    (h : r.resolve name args = .ok s) (signatures : List Signature) :
    (r.registerAll signatures).resolve name args = .ok s := by
  rw [registerAll]
  induction signatures generalizing r with
  | nil => exact h
  | cons s' signatures ih => exact ih (resolve_attempt h s')

end Registry

end RowFilter
