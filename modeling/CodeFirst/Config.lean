import CodeFirst.Json.Decoder

/-!
Configuration of a schema build.
-/

namespace CodeFirst

structure Config where
  queryRoot : String := "RootQuery"
  mutationRoot : String := "RootMutation"
  placeholderQuery : Bool := true
  /-- A gap between argument positions is an error. -/
  strictArgumentIndices : Bool := false
  maxDepth : Nat := 15
  maxComplexity : Nat := 500
  introspection : Bool := true
deriving DecidableEq, Inhabited

inductive ConfigError where
  | emptyQueryRoot
  | emptyMutationRoot
  | sameRoots
  | zeroDepth
  | zeroComplexity
deriving DecidableEq

def ConfigError.message : ConfigError → String
  | .emptyQueryRoot => "schema.query_root must not be empty"
  | .emptyMutationRoot => "schema.mutation_root must not be empty"
  | .sameRoots => "schema.query_root and schema.mutation_root must differ"
  | .zeroDepth => "schema.max_depth must be > 0"
  | .zeroComplexity => "schema.max_complexity must be > 0"

namespace Config

/-- The roots need different names, and the limits must allow something. -/
def validate (config : Config) : Except ConfigError Unit :=
  if config.queryRoot = "" then .error .emptyQueryRoot
  else if config.mutationRoot = "" then .error .emptyMutationRoot
  else if config.queryRoot = config.mutationRoot then .error .sameRoots
  else if config.maxDepth = 0 then .error .zeroDepth
  else if config.maxComplexity = 0 then .error .zeroComplexity
  else .ok ()

/-- The settings by name, in the order in which an array gives them. -/
def settings : List (String × (Json → Except DecodeError (Config → Config))) :=
  [("query_root", fun value => do
      let name ← value.asString
      return fun config => { config with queryRoot := name }),
    ("mutation_root", fun value => do
      let name ← value.asString
      return fun config => { config with mutationRoot := name }),
    ("placeholder_query", fun value => do
      let flag ← value.asBool
      return fun config => { config with placeholderQuery := flag }),
    ("strict_argument_indices", fun value => do
      let flag ← value.asBool
      return fun config => { config with strictArgumentIndices := flag }),
    ("max_depth", fun value => do
      let limit ← value.asInteger .size
      return fun config => { config with maxDepth := limit.toNat }),
    ("max_complexity", fun value => do
      let limit ← value.asInteger .size
      return fun config => { config with maxComplexity := limit.toNat }),
    ("introspection", fun value => do
      let flag ← value.asBool
      return fun config => { config with introspection := flag })]

/-- A configuration from JSON; what is not set keeps its default. -/
def decode : Json → Except DecodeError Config :=
  Json.asRecord "BuildConfig" settings {}

/-- The configuration in a file, which stands under `schema`. -/
def decodeFile : Json → Except DecodeError Config :=
  Json.asRecord "TypegraphConfig"
    [("schema", fun value => do
      let config ← decode value
      return fun _ => config)] {}

def toJson (config : Config) : Json :=
  .ofMembers
    [("query_root", .string config.queryRoot),
      ("mutation_root", .string config.mutationRoot),
      ("placeholder_query", .boolean config.placeholderQuery),
      ("strict_argument_indices", .boolean config.strictArgumentIndices),
      ("max_depth", .ofInt config.maxDepth),
      ("max_complexity", .ofInt config.maxComplexity),
      ("introspection", .boolean config.introspection)]

end Config

end CodeFirst
