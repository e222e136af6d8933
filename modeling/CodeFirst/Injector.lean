import CodeFirst.Keyed

/-!
Construction of services. Each service has a factory, a program that asks for other services and
then finishes. Factories run depth first, and every request builds a fresh service.
-/

namespace CodeFirst

inductive InjectionError where
  /-- The services under construction, and the one among them that was asked for again. -/
  | cycle (path : List String)
  | missing (service : String)
  | failed (service message : String)
deriving DecidableEq, Inhabited

namespace InjectionError

def code : InjectionError → String
  | .cycle _ => "DEPENDENCY_CYCLE"
  | .missing _ => "MISSING_PROVIDER"
  | .failed .. => "PROVIDER_FAILED"

def message : InjectionError → String
  | .cycle path => "Dependency cycle detected: " ++ String.intercalate " -> " path
  | .missing service => "No provider registered for " ++ service
  | .failed service message => "Provider for " ++ service ++ " failed: " ++ message

end InjectionError

/-- The program of a factory that builds an `α` and may change a state `σ` at its end. What it does
next may depend on earlier answers, refusals among them. -/
inductive Factory (σ α : Type) where
  | finish (build : σ → Except InjectionError α × σ)
  | request (service : String) (next : Except InjectionError α → Factory σ α)
  /-- Asks how many services are under construction. -/
  | measure (next : Nat → Factory σ α)

namespace Factory

variable {σ α : Type}

/-- Runs a program, with a way to answer its requests and the depth it runs at. -/
def run (answer : String → σ → Except InjectionError α × σ) (depth : Nat) :
    Factory σ α → σ → Except InjectionError α × σ
  | .finish build, state => build state
  | .request service next, state =>
    let (result, after) := answer service state
    run answer depth (next result) after
  | .measure next, state => run answer depth (next depth) state

end Factory

/-- The factories, under the names of the services that they build. -/
abbrev Injector (σ α : Type) := Keyed (Factory σ α)

namespace Injector

variable {σ α : Type}

def provide (injector : Injector σ α) (service : String) (factory : Factory σ α) : Injector σ α :=
  Keyed.put service factory injector

def provides (injector : Injector σ α) (service : String) : Bool :=
  (injector.lookup service).isSome

/-- Builds a service while those on the stack are under construction. -/
def resolve (injector : Injector σ α) (stack : List String) (service : String) (state : σ) :
    Except InjectionError α × σ :=
  if _ : service ∈ stack then (.error (.cycle (stack ++ [service])), state)
  else
    match found : injector.lookup service with
    | none => (.error (.missing service), state)
    | some factory =>
      factory.run (fun dependency state => resolve injector (stack ++ [service]) dependency state)
        (stack.length + 1) state
termination_by (Keyed.outside injector stack).length
decreasing_by exact Keyed.outside_length_lt found (by assumption) (by simp) (by simp +contextual)

def construct (injector : Injector σ α) (service : String) (state : σ) :
    Except InjectionError α × σ :=
  injector.resolve [] service state

end Injector

end CodeFirst
