import CodeFirst.Inspection
import CodeFirst.Recipe
import CodeFirst.Schema.Compilation
import CodeFirst.Session
import CodeFirst.Startup

/-!
A workspace holds what an application declares, the services it can build and the sessions it has
opened, and is changed step by step. The resolvers are scripted.
-/

namespace CodeFirst

structure Workspace where
  introspect : Introspector := .nothing
  registry : Registry ScriptedResolver := {}
  injector : Injector Nat Service := []
  built : Nat := 0
  cells : Cells := []
  sessions : Keyed (Schema ScriptedResolver) := []

namespace Workspace

inductive Failure where
  | fault (cause : Fault)
  | build (error : BuildError)
  | configuration (error : DecodeError)
  | session (error : SessionError)
  | noSession

def Failure.message : Failure → String
  | .fault cause => cause.message
  | .build error => error.message
  | .configuration error => error.message
  | .session error => error.message
  | .noSession => "no session was built under this name"

/-- What a step gives back. -/
inductive Answer where
  | nothing
  | field (field : Field)
  | argument (argument : Argument)
  | entry (entry : Option (Entry ScriptedResolver))
  | slots (slots : Option (List (Option Argument)))
  | size (count : Nat)
  | names (names : List String)
  | introspected (type : Option Introspected)
  | flag (value : Bool)
  | account (account : Account)
  | schema (schema : Schema ScriptedResolver)
  | data (json : Json)
  | text (text : String)

/-- The outcome of a step, with what it told those who wait for fields or for services. -/
structure Outcome where
  result : Except Failure Answer
  notices : List String := []
  observed : Option Account := none

namespace Outcome

def ok (answer : Answer) : Outcome :=
  ⟨.ok answer, [], none⟩

def fail (failure : Failure) : Outcome :=
  ⟨.error failure, [], none⟩

end Outcome

def declarationFault (error : DeclarationError) : Failure :=
  .fault (.declaration error)

variable (workspace : Workspace)

def ofRegistered : Registered → Answer
  | .nothing => .nothing
  | .field kept => .field kept
  | .argument kept => .argument kept

/-- Takes an operation of a startup on the registry and the services. -/
def startup (operation : Startup Service ScriptedResolver) :
    Workspace × Startup.Outcome Service :=
  let ((registry, built), outcome) :=
    workspace.registry.startup workspace.introspect workspace.injector workspace.built operation
  ({ workspace with registry, built }, outcome)

def ofStartup (outcome : Startup.Outcome Service) : Outcome where
  result := match outcome.result with
    | .ok registered => .ok (ofRegistered registered)
    | .error cause => .error (.fault cause)
  notices := outcome.notices

/-- Makes a registration, and tells those who wait for it. -/
def register (registration : Registration ScriptedResolver) : Workspace × Outcome :=
  let (workspace, outcome) := workspace.startup (.registration registration)
  (workspace, ofStartup outcome)

def processField (kind : FieldKind) (declaration : FieldDeclaration) : Outcome :=
  match declaration.process workspace.introspect kind with
  | .ok field => .ok (.field field)
  | .error error => .fail (declarationFault error)

def processArgument (declaration : ArgumentDeclaration) : Outcome :=
  match declaration.process workspace.introspect with
  | .ok argument => .ok (.argument argument)
  | .error error => .fail (declarationFault error)

/-- Replaces the registry, and tells how many entries it has. -/
def store (registry : Registry ScriptedResolver) : Workspace × Outcome :=
  ({ workspace with registry }, .ok (.size registry.entries.length))

def newResolver (script : Script) : Workspace × ScriptedResolver :=
  ({ workspace with cells := workspace.cells ++ [.null] }, ⟨workspace.cells.length, script⟩)

def bind (name : String) (script : Script) : Workspace × Outcome :=
  let (workspace, resolver) := workspace.newResolver script
  workspace.register (.resolver name resolver)

def construct (service : String) : Workspace × Except InjectionError Service :=
  let (result, built) := workspace.injector.construct service workspace.built
  ({ workspace with built }, result)

/-- Builds a service and binds it to a name as a resolver with a cell of its own. Whoever observes is
told of the service before it is bound. -/
def bindService (service name : String) (isObserved : Bool) : Workspace × Outcome :=
  let (after, outcome) := workspace.startup (.service service name fun built =>
    ⟨workspace.cells.length, built.script⟩)
  let cells := if outcome.built.isSome then workspace.cells ++ [.null] else workspace.cells
  let observed := if isObserved then outcome.built.map (·.account) else none
  ({ after with cells }, { ofStartup outcome with observed })

/-- Builds a schema and opens a session on it. A build that fails leaves an older session open. -/
def build (resolvers : List String) (session : String) (config : Config) : Workspace × Outcome :=
  match Schema.build workspace.registry config resolvers with
  | .error error => (workspace, .fail (.build error))
  | .ok schema =>
    let sessions := Keyed.put session schema workspace.sessions
    ({ workspace with sessions }, .ok (.schema schema))

/-- Answers a document in a session, as data of a shape if one is asked for. -/
def execute (session document : String) (given : Option Json) (shape : Shape) :
    Workspace × Outcome :=
  match workspace.sessions.lookup session with
  | none => (workspace, .fail .noSession)
  | some schema =>
    let (result, cells) :=
      schema.executeAs ScriptedResolver.call shape document given workspace.cells
    let workspace := { workspace with cells }
    match result with
    | .ok data => (workspace, .ok (.data data))
    | .error error => (workspace, .fail (.session error))

inductive Subject where
  | entry (name : String)
  | registry
  | injector
  | introspector
  | declaration (declaration : FieldDeclaration)
  | session (name : String)
  | site (site : Site)

def dump : Subject → Text.Dump
  | .entry name => .option Entry.dump (workspace.registry.get? name)
  | .registry => workspace.registry.dump
  | .injector => workspace.injector.dump
  | .introspector => workspace.introspect.dump
  | .declaration declared => declared.dump
  | .session name => .option Schema.dump (workspace.sessions.lookup name)
  | .site site => .option Introspected.dump (workspace.introspect site)


end Workspace

end CodeFirst
