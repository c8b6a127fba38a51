import GraphRules.Lifetime
import GraphRules.Validator

/-! Sessions: a store with the names given to its parts, and the rules and registries in use. -/

namespace GraphRules

/-- A validator together with the registry that it was made for. -/
structure Deployment where
  validator : Validator
  registry : Nat

/-- Everything that is at hand. -/
structure Session where
  store : Store
  /-- Labelled nodes in the order of labelling, not kept alive by it. -/
  labels : List (String × Node)
  /-- Named values, which stay alive. -/
  values : List (String × Value)
  descriptors : List (String × Descriptor)
  /-- Registries under their number, since a validator may share one with the session. -/
  registries : Array Registry
  /-- The number of the registry in use. -/
  current : Nat
  book : RuleBook
  deployment : Option Deployment
  nextDescriptor : Nat
  nextThread : Nat

namespace Session

/-- A session without values and rules, with the built-in extractors. -/
def initial : Session where
  store := .empty
  labels := []
  values := []
  descriptors := []
  registries := #[.withDefaults]
  current := 0
  book := .empty
  deployment := none
  nextDescriptor := 0
  nextThread := 1

/-! ### Names -/

/-- Labels a node; an earlier label of the node or of the same name is kept. -/
def addLabel (session : Session) (label : String) (node : Node) : Session :=
  { session with labels := session.labels ++ [(label, node)] }

/-- The first label of a node. -/
def labelOf? (session : Session) (id : NodeId) : Option String :=
  (session.labels.find? (·.2.id == id)).map (·.1)

/-- Names a value; the name leaves the value that it stood for. -/
def nameValue (session : Session) (name : String) (value : Value) : Session :=
  { session with values := (name, value) :: session.values.filter (·.1 != name) }

/-- Takes a name off its value. -/
def dropValue (session : Session) (name : String) : Session :=
  { session with values := session.values.filter (·.1 != name) }

/-- The value of a name, or else the node that got the label last, if it is still there. -/
def valueOf? (session : Session) (name : String) : Option Value :=
  match session.values.lookup name with
  | some value => some value
  -- A label names its node only while something else keeps the node alive.
  | none =>
    (session.labels.reverse.lookup name).bind fun node => session.store.upgrade? (some node)

/-- Names a descriptor. -/
def nameDescriptor (session : Session) (name : String) (descriptor : Descriptor) : Session :=
  { session with
    descriptors := (name, descriptor) :: session.descriptors.filter (·.1 != name) }

/-- An identity that no descriptor node has yet. -/
def freshDescriptor (session : Session) : DescriptorId × Session :=
  (⟨session.nextDescriptor⟩, { session with nextDescriptor := session.nextDescriptor + 1 })

/-- A thread that has not run yet. -/
def freshThread (session : Session) : Thread × Session :=
  (⟨session.nextThread⟩, { session with nextThread := session.nextThread + 1 })

/-! ### Registries and validators -/

/-- The registry of a number. -/
def registryAt (session : Session) (number : Nat) : Registry :=
  (session.registries[number]?).getD .empty

/-- The registry in use. -/
def registry (session : Session) : Registry := session.registryAt session.current

/-- Replaces the registry of a number wherever it is in use. -/
def setRegistryAt (session : Session) (number : Nat) (registry : Registry) : Session :=
  { session with registries := session.registries.setIfInBounds number registry }

/-- Replaces the registry in use. -/
def setRegistry (session : Session) (registry : Registry) : Session :=
  session.setRegistryAt session.current registry

/-- Puts a registry in use and leaves the former one to its validator. -/
def openRegistry (session : Session) (registry : Registry) : Session :=
  { session with
    registries := session.registries.push registry
    current := session.registries.size }

/-- Makes a validator of the rules filed so far and the registry in use. -/
def deploy (session : Session) (settings : ValidatorSettings) :
    Except SettingsError Validator × Session :=
  -- The book moves into the validator, and the session goes on with an empty one.
  let emptied := { session with book := .empty }
  match Validator.make session.book settings with
  | .ok validator =>
    (.ok validator, { emptied with deployment := some ⟨validator, session.current⟩ })
  | .error error => (.error error, emptied)

/-- Validates a value with the validator made last. -/
def validate (session : Session) (deployment : Deployment) (descriptor : Descriptor)
    (value : Value) : Report × Session :=
  let (report, registry) := deployment.validator.validate session.store descriptor value
    (session.registryAt deployment.registry)
  (report, session.setRegistryAt deployment.registry registry)

/-! ### Lifetime -/

/-- The registries that are still in use. -/
def usedRegistries (session : Session) : List Registry :=
  session.registry ::
    (session.deployment.map fun deployed => session.registryAt deployed.registry).toList

/-- The values that a session keeps alive: the named ones and those that extractors hold. -/
def roots (session : Session) : List Value :=
  session.values.map (·.2) ++ session.usedRegistries.flatMap Registry.holds ++
    session.descriptors.flatMap (·.2.holds)

/-- Removes the nodes that neither the session nor one of the given values keeps alive. -/
def reclaim (session : Session) (temporaries : List Value) : Session :=
  { session with store := session.store.reclaim (temporaries ++ session.roots) }

end Session

end GraphRules
