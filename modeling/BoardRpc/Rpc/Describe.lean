import BoardRpc.Json.Printer
import BoardRpc.Rpc.Api

/-! APIs as JSON. -/

namespace BoardRpc

/-- Names in a list, or null. -/
def namesToJson (names : Option (List String)) : Json :=
  Json.ofOption (fun names => .arr (names.map .str)) names

/-- A binding as JSON, each format as its text. -/
def RpcBinding.toJson (binding : RpcBinding) : Json :=
  .obj [
    ("class_number", .nat binding.classNumber.toNat),
    ("verb_number", .nat binding.verbNumber.toNat),
    ("name", .str binding.name),
    ("in_format", .str binding.inFormat.source),
    ("out_format", .str binding.outFormat.source),
    ("doc", .str binding.doc),
    ("in_param_names", namesToJson binding.inParamNames),
    ("out_param_names", namesToJson binding.outParamNames)]

/-- What a device tells of a verb as JSON. -/
def VerbDescriptor.toJson (verb : VerbDescriptor) : Json :=
  .obj [
    ("number", .nat verb.number.toNat),
    ("name", .str verb.name),
    ("in_signature", .str verb.inSignature),
    ("out_signature", .str verb.outSignature),
    ("doc", .str verb.doc),
    ("in_param_names", namesToJson verb.inParamNames),
    ("out_param_names", namesToJson verb.outParamNames)]

/-- A class as JSON. -/
def ClassDescriptor.toJson (descriptor : ClassDescriptor) : Json :=
  .obj [
    ("number", .nat descriptor.number.toNat),
    ("name", .str descriptor.name),
    ("docs", .str descriptor.docs),
    ("verbs", .arr (descriptor.verbs.map RpcBinding.toJson)),
    ("opaque_verbs", .arr (descriptor.opaqueVerbs.map fun number => .nat number.toNat))]

/-- Classes by name as JSON. -/
def ApiCollection.toJson (api : ApiCollection) : Json :=
  .obj (api.classes.map fun descriptor => (descriptor.name, descriptor.toJson))

end BoardRpc
