import BoardRpc.Format.Annotation
import BoardRpc.Rpc.Session

/-! Bindings: verbs that can be called, with their formats and names. -/

namespace BoardRpc

/-- A verb of a class with the formats of its arguments and its reply. -/
structure RpcBinding where
  classNumber : UInt32
  verbNumber : UInt32
  name : String
  inFormat : Format
  outFormat : Format
  doc : String := ""
  inParamNames : Option (List String) := none
  outParamNames : Option (List String) := none
  /-- Options of every call that does not set them itself. -/
  defaults : CallOptions := {}
  deriving BEq, Repr, Inhabited

/-- The name given to an index, unless it is empty. -/
def paramName? (names : Option (List String)) (index : Nat) : Option String :=
  -- There may be fewer names than arguments, or none to know.
  match names.bind (·[index]?) with
  | some name => if name.isEmpty then none else some name
  | none => none

/-- The mark of an argument that may be given any number of times. -/
def variadicMark (annotated : String) : String := if isVariadic annotated then "*" else ""

/-- The names in a text, separated by commas; a lone star tells that there are none to know. -/
def readParamNames (text : String) : Option (List String) :=
  let trimmed := Text.trim text.toList
  -- Blanks are cut off for these tests and off each name, but not off the whole text.
  if trimmed = ['*'] then none
  else if trimmed.isEmpty then some []
  else some ((text.splitOn ",").map fun name => String.ofList (Text.trim name.toList))

namespace RpcBinding

/-- The binding of a verb whose formats are given as texts. -/
def ofTexts (classNumber verbNumber : UInt32) (name inFormat outFormat : String) :
    Except FormatError RpcBinding :=
  -- Of two texts that are no formats the first is told.
  match Format.parse inFormat with
  | .error error => .error error
  | .ok inFormat =>
    match Format.parse outFormat with
    | .error error => .error error
    | .ok outFormat => .ok { classNumber, verbNumber, name, inFormat, outFormat }

/-- Calls the verb; what the options leave open is taken from the binding. -/
def invoke [Transport σ] (binding : RpcBinding) (session : Session σ) (args : List Value)
    (options : CallOptions) : Except RpcError Reply × Session σ :=
  -- The formats were read with the binding, so none has to be fetched.
  session.executeFormats binding.classNumber binding.verbNumber binding.inFormat binding.outFormat
    args (options.orElse binding.defaults) binding.name

/-- The arguments with names and types; an argument without a name has one from its position. -/
def parameters (binding : RpcBinding) : List String :=
  binding.inFormat.annotations.mapIdx fun index annotated =>
    variadicMark annotated
      ++ (paramName? binding.inParamNames index).getD s!"arg{index + 1}" ++ ": " ++ annotated

/-- The results with types, and with names where they have them. -/
def results (binding : RpcBinding) : List String :=
  binding.outFormat.annotations.mapIdx fun index annotated =>
    match paramName? binding.outParamNames index with
    | some name => variadicMark annotated ++ name ++ ": " ++ annotated
    | none => variadicMark annotated ++ annotated

/-- The arguments with names and types, provided that they can be listed. -/
def parameters? (binding : RpcBinding) : Option (List String) :=
  binding.inFormat.annotations?.map fun _ => binding.parameters

/-- The results with types, provided that they can be listed. -/
def results? (binding : RpcBinding) : Option (List String) :=
  binding.outFormat.annotations?.map fun _ => binding.results

/-- The verb's name, arguments and results. -/
def signature (binding : RpcBinding) : String :=
  let call := binding.name ++ "(" ++ ", ".intercalate binding.parameters ++ ")"
  -- A verb without results has no arrow.
  if binding.results.isEmpty then call
  else call ++ " -> " ++ ", ".intercalate binding.results

/-- The verb's name, arguments and results, provided that these can be listed. -/
def signature? (binding : RpcBinding) : Option String :=
  if binding.parameters?.isSome && binding.results?.isSome then some binding.signature else none

end RpcBinding

end BoardRpc
