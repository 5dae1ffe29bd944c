import BoardRpc.Rpc.Binding

/-! The verbs of the core class, which every device has. They tell what the device is, and what it
has beside them. -/

namespace BoardRpc

/-- The number of the core class. -/
def coreClassNumber : UInt32 := 0

/-- The name of the core class. -/
def coreClassName : String := "core"

/-- The description of the core class. -/
def coreClassDocs : String := "Core API, which all libgreat devices must support."

/-- A part of a verb's description. -/
inductive DescriptorKind
  | outSignature
  | inSignature
  | doc
  | outParamNames
  | inParamNames
  deriving DecidableEq, Repr, Inhabited

/-- The number by which a device knows a part of a description. -/
def DescriptorKind.number : DescriptorKind → Nat
  | .outSignature => 0
  | .inSignature => 1
  | .doc => 2
  | .outParamNames => 3
  | .inParamNames => 4

/-- A verb of the core class. -/
structure CoreVerb where
  number : UInt32
  name : String
  inFormat : String
  outFormat : String
  doc : String
  inParamNames : List String
  outParamNames : List String
  expectsResponse : Bool := true
  deriving DecidableEq, Repr, Inhabited

namespace CoreVerb

/-- The type of the board. -/
def readBoardId : CoreVerb where
  number := 0x0
  name := "read_board_id"
  inFormat := ""
  outFormat := "<I"
  doc := "Fetches the board's type identifier."
  inParamNames := []
  outParamNames := ["id"]

/-- The version of the board. -/
def readVersionString : CoreVerb where
  number := 0x1
  name := "read_version_string"
  inFormat := ""
  outFormat := "<S"
  doc := "Fetches the board's version."
  inParamNames := []
  outParamNames := ["version"]

/-- The part on the board. -/
def readPartId : CoreVerb where
  number := 0x2
  name := "read_part_id"
  inFormat := ""
  outFormat := "<2I"
  doc := "Fetches the part ID used on the board."
  inParamNames := []
  outParamNames := ["part_id"]

/-- The serial number of the board. -/
def readSerialNumber : CoreVerb where
  number := 0x3
  name := "read_serial_number"
  inFormat := ""
  outFormat := "<4I"
  doc := "Fetches the board's serial number."
  inParamNames := []
  outParamNames := ["serial_number"]

/-- The classes that the device has. -/
def getAvailableClasses : CoreVerb where
  number := 0x4
  name := "get_available_classes"
  inFormat := ""
  outFormat := "<*I"
  doc := "Fetches the available class numbers."
  inParamNames := []
  outParamNames := ["numbers"]

/-- The verbs that a class has. -/
def getAvailableVerbs : CoreVerb where
  number := 0x5
  name := "get_available_verbs"
  inFormat := "<I"
  outFormat := "<*I"
  doc := "Fetches the available verb numbers for a given class."
  inParamNames := ["class_number"]
  outParamNames := ["numbers"]

/-- The name of a verb. -/
def getVerbName : CoreVerb where
  number := 0x6
  name := "get_verb_name"
  inFormat := "<II"
  outFormat := "<S"
  doc := "Fetches the string name for the given verb."
  inParamNames := ["class_number", "verb_number"]
  outParamNames := ["name"]

/-- A part of the description of a verb. -/
def getVerbDescriptor : CoreVerb where
  number := 0x7
  name := "get_verb_descriptor"
  inFormat := "<IIB"
  outFormat := "<S"
  doc := "Fetches information about the given verb."
  inParamNames := ["class_number", "verb_number", "descriptor_number"]
  outParamNames := ["descriptor"]

/-- The name of a class. -/
def getClassName : CoreVerb where
  number := 0x8
  name := "get_class_name"
  inFormat := "<I"
  outFormat := "<S"
  doc := "Fetches the string name for the given class."
  inParamNames := ["class_number"]
  outParamNames := ["name"]

/-- The description of a class. -/
def getClassDocs : CoreVerb where
  number := 0x9
  name := "get_class_docs"
  inFormat := "<I"
  outFormat := "<S"
  doc := "Fetches the documentation for the given class."
  inParamNames := ["class_number"]
  outParamNames := ["docstring"]

/-- A restart of the board, to which there is no response. -/
def requestReset : CoreVerb where
  number := 0x20
  name := "request_reset"
  inFormat := "<I"
  outFormat := ""
  doc := "Resets the relevant board."
  inParamNames := ["reset_type"]
  outParamNames := []
  expectsResponse := false

/-- Every verb of the core class, by number. -/
def all : List CoreVerb := [
  readBoardId, readVersionString, readPartId, readSerialNumber, getAvailableClasses,
  getAvailableVerbs, getVerbName, getVerbDescriptor, getClassName, getClassDocs, requestReset]

/-- The options of every call of the verb. -/
def options (verb : CoreVerb) : CallOptions := if verb.expectsResponse then {} else .noResponse

/-- The verb as a binding. -/
def binding (verb : CoreVerb) : Except FormatError RpcBinding :=
  match RpcBinding.ofTexts coreClassNumber verb.number verb.name verb.inFormat verb.outFormat with
  | .error error => .error error
  | .ok binding => .ok
    { binding with
      doc := verb.doc
      inParamNames := some verb.inParamNames
      outParamNames := some verb.outParamNames
      defaults := verb.options }

/-- The verb's name with that of its class. -/
def rpcName (verb : CoreVerb) : String := coreClassName ++ "." ++ verb.name

end CoreVerb

/-- The bindings of the core class. -/
def coreBindings : Except FormatError (List RpcBinding) := CoreVerb.all.mapM CoreVerb.binding

end BoardRpc
