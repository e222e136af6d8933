import CodeFirst.Injector
import CodeFirst.Script

/-!
Recipes of services: a factory written down as the services it asks for, with how it fails or what
it builds, and an account of every construction.
-/

namespace CodeFirst

inductive Account where
  /-- By its default, of which nothing is told. -/
  | plain
  /-- The number of the construction, the depth before and after its dependencies were built, and
  their own accounts. -/
  | made (label : String) (serial depth depthAfter : Nat) (parts : List Account)
  /-- It did not, and could be done without. -/
  | refused (error : InjectionError)

structure Service where
  account : Account
  script : Script

/-- A service asked for; the refusal of an optional one is no error. -/
structure Dependency where
  service : String
  isOptional : Bool
deriving DecidableEq

structure Recipe where
  /-- How the service is called in its account and in its own failure. -/
  label : String
  dependencies : List Dependency := []
  /-- The service is never built, for this reason. -/
  failure : Option String := none
  script : Script := []

namespace Recipe

/-- Asks for dependencies in order, and goes on with their accounts. -/
def request (next : List Account → Factory Nat Service) :
    List Account → List Dependency → Factory Nat Service
  | accounts, [] => next accounts
  | accounts, dependency :: rest =>
    .request dependency.service fun
      | .ok service => request next (accounts ++ [service.account]) rest
      | .error error =>
        if dependency.isOptional then request next (accounts ++ [.refused error]) rest
        else .finish fun state => (.error error, state)

/-- The factory of a recipe. The state counts the services that were built. -/
def factory (recipe : Recipe) : Factory Nat Service :=
  .measure fun depth =>
    request (fun parts => .measure fun depthAfter => .finish fun built =>
      match recipe.failure with
      | some reason => (.error (.failed recipe.label reason), built)
      | none =>
        (.ok ⟨.made recipe.label (built + 1) depth depthAfter parts, recipe.script⟩, built + 1))
      [] recipe.dependencies

/-- The factory of a service that is built from nothing. -/
def defaultFactory : Factory Nat Service :=
  .finish fun built => (.ok ⟨.plain, []⟩, built)

end Recipe

end CodeFirst
