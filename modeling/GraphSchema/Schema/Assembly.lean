/-
  GraphSchema.Schema.Assembly — publication, phase by phase.

  One pass over the entries disposes of scalars, enums and objects and puts the
  configurations of unions, interfaces and input objects aside; then each of these three
  lists is worked off. Fields that were added to a type are taken from a store they share
  when the type is built. A built type is put under the name it has itself, and a fault is
  noted after those noted before, which stops nothing. Objects are put in their places
  last, the promises of interfaces are checked against what was built, and the types are
  collected by the registered names.
-/

import GraphSchema.Schema.Publication

namespace GraphSchema

/-- How far a publication has come. -/
structure Assembly where
  /-- The fields added to types that are still to be built. -/
  added : Keyed (Keyed FieldConfig)
  objects : List ObjectType := []
  unions : List UnionConfig := []
  interfaces : List InterfaceConfig := []
  inputs : List InputObjectConfig := []
  types : Keyed TypeDefinition := .empty
  errors : List TypeError := []

namespace Assembly

def addedTo (assembly : Assembly) (name : String) : Keyed FieldConfig :=
  (assembly.added.get? name).getD .empty

/-- Puts a type under its own name, or notes why it could not be built. -/
def settle (assembly : Assembly) : Except TypeError TypeDefinition → Assembly
  | .ok type => { assembly with types := assembly.types.insert type.name type }
  | .error error => { assembly with errors := assembly.errors ++ [error] }

section

variable (kinds : KindTable) (options : BuildOptions)

/-! ## Phases -/

def buildObject (assembly : Assembly) (name : String) (config : ObjectConfig) : Assembly :=
  let rest := { assembly with added := assembly.added.erase name }
  match config.define (assembly.addedTo name) kinds options with
  | .ok object => { rest with objects := rest.objects ++ [object] }
  | .error error => { rest with errors := rest.errors ++ [error] }

/-- Disposes of an entry, or puts its configuration aside. -/
def sort (assembly : Assembly) (named : String × Registered) : Assembly :=
  match named.2 with
  | .scalar type => { assembly with types := assembly.types.insert named.1 (.scalar type) }
  | .enum type => { assembly with types := assembly.types.insert named.1 (.enum type) }
  | .object config => assembly.buildObject kinds options named.1 config
  | .interface config => { assembly with interfaces := assembly.interfaces ++ [config] }
  | .union config => { assembly with unions := assembly.unions ++ [config] }
  | .inputObject config => { assembly with inputs := assembly.inputs ++ [config] }

def buildUnion (assembly : Assembly) (config : UnionConfig) : Assembly :=
  assembly.settle ((config.define assembly.objects kinds).map .union)

def buildUnions (assembly : Assembly) : Assembly :=
  assembly.unions.foldl (buildUnion kinds) assembly

def buildInterface (assembly : Assembly) (config : InterfaceConfig) : Assembly :=
  let rest := { assembly with added := assembly.added.erase config.name }
  rest.settle ((config.define (assembly.addedTo config.name) assembly.objects kinds).map .interface)

def buildInterfaces (assembly : Assembly) : Assembly :=
  assembly.interfaces.foldl (buildInterface kinds) assembly

def buildInput (assembly : Assembly) (config : InputObjectConfig) : Assembly :=
  assembly.settle ((config.define kinds).map .inputObject)

def buildInputs (assembly : Assembly) : Assembly :=
  assembly.inputs.foldl (buildInput kinds) assembly

def placeObjects (assembly : Assembly) : Assembly :=
  assembly.objects.foldl (fun assembly object => assembly.settle (.ok (.object object))) assembly

end

/-- After the pass over the entries. -/
def sorted (registry : TypeRegistry) (options : BuildOptions) : Assembly :=
  registry.entries.entries.foldl (sort registry.kindTable options) { added := registry.added }

/-- After all phases. -/
def ofRegistry (registry : TypeRegistry) (options : BuildOptions) : Assembly :=
  let kinds := registry.kindTable
  ((((sorted registry options).buildUnions kinds).buildInterfaces kinds).buildInputs kinds).placeObjects

/-- Notes the promises that are broken to an interface. -/
def checkPromises (assembly : Assembly) (name : String) : Assembly :=
  match assembly.types.get? name with
  | some (.interface interface) => { assembly with
      errors := assembly.errors ++
        interface.implementations.flatMap (checkImplementation assembly.types interface) }
  | _ => assembly

/-- The types under the given names, in the order of these. -/
def collect (assembly : Assembly) (names : List String) : Keyed TypeDefinition :=
  .ofList (names.filterMap fun name => (assembly.types.get? name).map fun type => (name, type))

end Assembly

/-- Publishes a registry phase by phase. -/
def assemble (registry : TypeRegistry) (options : BuildOptions) :
    Except SchemaError (Keyed TypeDefinition) :=
  let assembly := registry.names.foldl Assembly.checkPromises (.ofRegistry registry options)
  if assembly.errors.isEmpty then .ok (assembly.collect registry.names)
  else .error ⟨assembly.errors⟩

end GraphSchema
