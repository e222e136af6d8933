import CodeFirst.Injector

/-! What a request does first: it is refused, or it runs a factory with one more service under
construction. All inductions on construction are on the services that are not. -/
namespace CodeFirst.Injector

variable {σ α : Type} {injector : Injector σ α} {stack : List String} {service : String} {state : σ}

theorem resolve_of_mem (pending : service ∈ stack) :
    injector.resolve stack service state = (.error (.cycle (stack ++ [service])), state) := by
  rw [resolve, dif_pos pending]

theorem resolve_of_none (fresh : service ∉ stack) (unknown : injector.lookup service = none) :
    injector.resolve stack service state = (.error (.missing service), state) := by
  rw [resolve, dif_neg fresh]
  split
  · rfl
  · rename_i found
    cases unknown.symm.trans found

theorem resolve_of_some {factory : Factory σ α} (fresh : service ∉ stack)
    (found : injector.lookup service = some factory) :
    injector.resolve stack service state =
      factory.run (injector.resolve (stack ++ [service])) (stack.length + 1) state := by
  rw [resolve, dif_neg fresh]
  split
  · rename_i unknown
    cases unknown.symm.trans found
  · rename_i same
    cases found.symm.trans same
    rfl

/-- How a request is resolved. -/
inductive Resolution (injector : Injector σ α) (stack : List String) (service : String) : Prop
  | pending : service ∈ stack → Resolution injector stack service
  | unknown : service ∉ stack → injector.lookup service = none → Resolution injector stack service
  | provided {factory : Factory σ α} : service ∉ stack → injector.lookup service = some factory →
      Resolution injector stack service

theorem resolution (injector : Injector σ α) (stack : List String) (service : String) :
    injector.Resolution stack service := by
  by_cases pending : service ∈ stack
  · exact .pending pending
  · cases found : injector.lookup service with
    | none => exact .unknown pending found
    | some factory => exact .provided pending found

theorem stack_induction (injector : Injector σ α) {holds : List String → Prop}
    (each : ∀ stack, (∀ service factory, injector.lookup service = some factory →
      service ∉ stack → holds (stack ++ [service])) → holds stack) (stack : List String) :
    holds stack := by
  induction measured : (Keyed.outside injector stack).length using Nat.strongRecOn
    generalizing stack with
  | ind size ih =>
      apply each stack
      intro service factory found fresh
      have smaller : (Keyed.outside injector (stack ++ [service])).length < size := by
        rw [← measured]
        exact Keyed.outside_length_lt found fresh (by simp) (by simp +contextual)
      exact ih _ smaller _ rfl

end CodeFirst.Injector
