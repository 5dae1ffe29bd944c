import BoardRpc.Rpc.Api

/-! Discovery: the classes and verbs that a device tells of through its core class. -/

namespace BoardRpc

variable {σ : Type} [Transport σ]

/-- Everything that the device tells of one verb. -/
def describeVerb (classNumber verbNumber : UInt32) : Action σ VerbDescriptor := do
  -- Six texts are asked for, one command each.
  let name ← Core.getVerbName classNumber verbNumber
  let inSignature ← Core.getVerbDescriptor classNumber verbNumber .inSignature
  let outSignature ← Core.getVerbDescriptor classNumber verbNumber .outSignature
  let doc ← Core.getVerbDescriptor classNumber verbNumber .doc
  let inNames ← Core.getVerbDescriptor classNumber verbNumber .inParamNames
  let outNames ← Core.getVerbDescriptor classNumber verbNumber .outParamNames
  return {
    number := verbNumber
    name := if name.isEmpty then s!"verb_{verbNumber.toNat}" else name
    inSignature
    outSignature
    doc := if doc = undescribed then undocumented else doc
    inParamNames := readParamNames inNames
    outParamNames := readParamNames outNames }

/-- A class with one more verb, callable if the device could describe it. -/
def ClassDescriptor.addVerb (descriptor : ClassDescriptor) (verb : VerbDescriptor) :
    Except RpcError ClassDescriptor :=
  match verb.binding? descriptor.number with
  | .error error => .error (.format (descriptor.name ++ "." ++ verb.name) error)
  | .ok (some binding) => .ok { descriptor with verbs := descriptor.verbs ++ [binding] }
  -- Without signatures a verb can be called by its numbers only.
  | .ok none => .ok { descriptor with opaqueVerbs := descriptor.opaqueVerbs ++ [verb.number] }

/-- Adds verbs one after the other as the device describes them. -/
def discoverVerbs (descriptor : ClassDescriptor) : List UInt32 → Action σ ClassDescriptor
  | [] => return descriptor
  | verbNumber :: rest => do
    let verb ← describeVerb descriptor.number verbNumber
    -- A verb that is described badly is an error of its whole class.
    discoverVerbs (← ExceptT.mk (pure (descriptor.addVerb verb))) rest

/-- Everything that the device tells of one class, unless a class of its name is known already and
is to be kept. -/
def discoverClass (known : ApiCollection) (config : DiscoveryConfig) (classNumber : UInt32) :
    Action σ (Option ClassDescriptor) := do
  let name ← Core.getClassName classNumber
  -- The name is asked for first, so that nothing else is asked about a class that is known.
  if known.contains name && !config.overwrite then return none
  let docs ← Core.getClassDocs classNumber
  let verbs ← Core.getAvailableVerbs classNumber
  return some (← discoverVerbs { number := classNumber, name, docs } verbs)

/-- Whether discovery goes on with the next class after an error: the device rejected a command or
described something badly, but the link works. -/
def RpcError.isSkippable : RpcError → Bool
  | .commandFailed _ _ _ _ _ | .format _ _ => true
  | _ => false

/-- Adds classes one after the other, leaving out those that cannot be described. -/
def discoverClasses (config : DiscoveryConfig) (api : ApiCollection) :
    List UInt32 → Action σ ApiCollection
  | [] => return api
  | classNumber :: rest => do
    -- What the session has learned stays, whether the class is left out or not.
    let found ← tryCatch (discoverClass api config classNumber) fun error =>
      if error.isSkippable then return none else throw error
    match found with
    | some descriptor => discoverClasses config (api.insert descriptor) rest
    | none => discoverClasses config api rest

/-- The known core class and all that the device tells of. Where the classes cannot be listed, the
device is of no use. -/
def discover (config : DiscoveryConfig) : Action σ ApiCollection := do
  let api ← match ApiCollection.withCore with
    | .ok api => pure api
    | .error error => throw (.format coreClassName error)
  -- Whatever is wrong with the list, the error tells that it was this one.
  let classes ← tryCatch Core.getAvailableClasses fun error =>
    throw (.discovery "listing classes" error)
  discoverClasses config api classes

end BoardRpc
