import CodeFirst.Workspace

/-!
Runs of a workspace, step by step.
-/

namespace CodeFirst.Workspace

inductive Step where
  | register (registration : Registration ScriptedResolver)
  | processField (kind : FieldKind) (declaration : FieldDeclaration)
  | processArgument (declaration : ArgumentDeclaration)
  /-- Keeps a field as it is. -/
  | storeField (field : Field)
  /-- Keeps an argument as it is. -/
  | storeArgument (argument : Argument)
  | bind (name : String) (script : Script)
  | lookup (name : String)
  | entry (name : String)
  | slots (name method : String)
  | registry
  | introspect (site : Site)
  | provide (service : String) (factory : Factory Nat Service)
  | provides (service : String)
  | construct (service : String)
  | bindService (service name : String) (isObserved : Bool)
  | build (resolvers : List String) (session : String) (config : Except DecodeError Config)
  | execute (session document : String) (given : Option Json) (shape : Shape)
  | inspect (subject : Subject)

def step (workspace : Workspace) : Step → Workspace × Outcome
  | .register registration => workspace.register registration
  | .processField kind declaration => (workspace, workspace.processField kind declaration)
  | .processArgument declaration => (workspace, workspace.processArgument declaration)
  | .storeField kept => workspace.store (workspace.registry.addField kept)
  | .storeArgument kept => workspace.store (workspace.registry.addArgument kept)
  | .bind name script => workspace.bind name script
  | .lookup name =>
    let registry := workspace.registry.lookup name
    ({ workspace with registry }, .ok (.entry (registry.get? name)))
  | .entry name => (workspace, .ok (.entry (workspace.registry.get? name)))
  | .slots name method =>
    (workspace, .ok (.slots ((workspace.registry.get? name).bind fun entry =>
      entry.arguments.lookup method)))
  | .registry => (workspace, .ok (.names workspace.registry.names))
  | .introspect site => (workspace, .ok (.introspected (workspace.introspect site)))
  | .provide service factory =>
    ({ workspace with injector := workspace.injector.provide service factory }, .ok .nothing)
  | .provides service => (workspace, .ok (.flag (workspace.injector.provides service)))
  | .construct service =>
    match workspace.construct service with
    | (workspace, .ok built) => (workspace, .ok (.account built.account))
    | (workspace, .error error) => (workspace, .fail (.fault (.injection error)))
  | .bindService service name isObserved => workspace.bindService service name isObserved
  | .build resolvers session config =>
    match config with
    | .ok config => workspace.build resolvers session config
    | .error error => (workspace, .fail (.configuration error))
  | .execute session document given shape =>
    workspace.execute session document given shape
  | .inspect subject => (workspace, .ok (.text (workspace.dump subject).text))

/-- Takes steps one after the other, and gives the outcome of each. -/
def run (workspace : Workspace) : List Step → List Outcome
  | [] => []
  | next :: rest =>
    let (after, outcome) := workspace.step next
    outcome :: run after rest

end CodeFirst.Workspace
