import BoardRpc.Rpc.Core

/-! APIs: the classes that are known, each with the verbs that can be called by name. -/

namespace BoardRpc

/-- What a device says in place of a signature or names that it cannot describe. -/
def undescribed : String := "*"

/-- The description of verbs that the device leaves without one. -/
def undocumented : String := "\x7bundocumented on firmware side\x7d"

/-- What a device tells of a verb. -/
structure VerbDescriptor where
  number : UInt32
  name : String
  inSignature : String
  outSignature : String
  doc : String
  inParamNames : Option (List String)
  outParamNames : Option (List String)
  deriving DecidableEq, Repr, Inhabited

namespace VerbDescriptor

/-- Whether the device could describe the arguments and the reply. -/
def isDescribable (verb : VerbDescriptor) : Bool :=
  -- One star is enough, as a call needs both.
  verb.inSignature != undescribed && verb.outSignature != undescribed

/-- The verb as a binding of a class, if it can be described at all. -/
def binding? (verb : VerbDescriptor) (classNumber : UInt32) :
    Except FormatError (Option RpcBinding) :=
  if !verb.isDescribable then .ok none
  else match RpcBinding.ofTexts classNumber verb.number verb.name verb.inSignature
      verb.outSignature with
    | .error error => .error error
    | .ok binding => .ok (some
      -- The two formats are what can go wrong; the other texts are taken as they are.
      { binding with
        doc := verb.doc
        inParamNames := verb.inParamNames
        outParamNames := verb.outParamNames })

end VerbDescriptor

/-- A class and what can be called of it. -/
structure ClassDescriptor where
  number : UInt32
  name : String
  docs : String
  verbs : List RpcBinding := []
  /-- Verbs that the device could not describe. -/
  opaqueVerbs : List UInt32 := []
  deriving BEq, Repr, Inhabited

/-- The first verb of a name. -/
def ClassDescriptor.verb? (descriptor : ClassDescriptor) (name : String) : Option RpcBinding :=
  -- Devices number their verbs, so that two may go by one name.
  descriptor.verbs.find? (·.name == name)

/-- The known classes, sorted by name. No two have one name. -/
structure ApiCollection where
  classes : List ClassDescriptor := []
  deriving BEq, Repr, Inhabited

namespace ApiCollection

/-- Puts a class among sorted ones, in place of one of its name. -/
def insertSorted (descriptor : ClassDescriptor) : List ClassDescriptor → List ClassDescriptor
  | [] => [descriptor]
  | other :: rest =>
    -- The other classes keep their order.
    if descriptor.name = other.name then descriptor :: rest
    else if descriptor.name < other.name then descriptor :: other :: rest
    else other :: insertSorted descriptor rest

/-- Adds a class, in place of one of its name. -/
def insert (api : ApiCollection) (descriptor : ClassDescriptor) : ApiCollection :=
  ⟨insertSorted descriptor api.classes⟩

/-- The class of a name. -/
def find? (api : ApiCollection) (name : String) : Option ClassDescriptor :=
  api.classes.find? (·.name == name)

/-- Whether there is a class of a name. -/
def contains (api : ApiCollection) (name : String) : Bool := (api.find? name).isSome

/-- The number of classes. -/
def size (api : ApiCollection) : Nat := api.classes.length

/-- Whether there are no classes. -/
def isEmpty (api : ApiCollection) : Bool := api.classes.isEmpty

/-- The class of a name, or the error of its absence. -/
def getClass (api : ApiCollection) (name : String) : Except RpcError ClassDescriptor :=
  match api.find? name with
  | some descriptor => .ok descriptor
  | none => .error (.unknownClass name)

/-- The verb of a name in the class of a name, or the error of its absence. -/
def getBinding (api : ApiCollection) (className verbName : String) :
    Except RpcError RpcBinding :=
  match api.getClass className with
  | .error error => .error error
  | .ok descriptor =>
    -- The class is looked up first, so that its absence is told first.
    match descriptor.verb? verbName with
    | some binding => .ok binding
    | none => .error (.unknownVerb className verbName)

/-- The core class alone. -/
def withCore : Except FormatError ApiCollection :=
  match coreBindings with
  | .error error => .error error
  | .ok verbs => .ok (ApiCollection.insert {}
      { number := coreClassNumber, name := coreClassName, docs := coreClassDocs, verbs })

end ApiCollection

end BoardRpc
