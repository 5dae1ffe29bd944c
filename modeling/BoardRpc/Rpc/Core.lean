import BoardRpc.Rpc.CoreVerb

/-! Calls of the core class, with the shapes of their replies. -/

namespace BoardRpc

namespace CoreVerb

/-- The error of a reply that has not the shape the verb's format promises. -/
def shapeError (verb : CoreVerb) (expected actual : String) : RpcError :=
  .format verb.rpcName ⟨verb.outFormat, .inField 0 (.typeMismatch expected actual)⟩

/-- The word that a value holds. -/
def word (verb : CoreVerb) (value : Value) : Except RpcError UInt32 :=
  match value.toUInt32? with
  | some n => .ok n
  | none => .error (verb.shapeError "a uint32" value.kind)

/-- The one word of a reply. -/
def singleWord (verb : CoreVerb) : Reply → Except RpcError UInt32
  | .single value => verb.word value
  | .multiple _ => .error (verb.shapeError "a uint32" "list")

/-- The one string of a reply. -/
def singleText (verb : CoreVerb) : Reply → Except RpcError String
  | .single (.str text) => .ok text
  | .single value => .error (verb.shapeError "a string" value.kind)
  -- A reply that does not collapse has another number of values than one.
  | .multiple _ => .error (verb.shapeError "a string" "list")

/-- The words of a reply. -/
def words (verb : CoreVerb) (reply : Reply) : Except RpcError (List UInt32) :=
  -- Whatever its shape is, a reply has values.
  reply.values.mapM verb.word

/-- The words of a reply that has a fixed number of them. -/
def fixedWords (verb : CoreVerb) (count : Nat) (reply : Reply) : Except RpcError (List UInt32) :=
  match verb.words reply with
  | .error error => .error error
  | .ok words =>
    -- The complaint names the shape only, not how many words there were.
    if words.length = count then .ok words
    else .error (verb.shapeError "a fixed-size array" "list")

/-- Calls the verb. -/
def call [Transport σ] (verb : CoreVerb) (args : List Value) : Action σ Reply := fun session =>
  session.executeNamed coreClassNumber verb.number verb.inFormat verb.outFormat args verb.options
    verb.rpcName

/-- Calls the verb and reads its reply. -/
def callAs [Transport σ] (verb : CoreVerb) (args : List Value)
    (read : Reply → Except RpcError α) : Action σ α := do
  ExceptT.mk (pure (read (← verb.call args)))

end CoreVerb

/-- A word as an argument. -/
def wordArgument (n : UInt32) : Value := .ofNat n.toNat

namespace Core

variable {σ : Type} [Transport σ]

/-- The type of the board. -/
def readBoardId : Action σ UInt32 :=
  CoreVerb.readBoardId.callAs [] CoreVerb.readBoardId.singleWord

/-- The version of the board. -/
def readVersionString : Action σ String :=
  CoreVerb.readVersionString.callAs [] CoreVerb.readVersionString.singleText

/-- The part on the board, as two words. -/
def readPartId : Action σ (List UInt32) :=
  CoreVerb.readPartId.callAs [] (CoreVerb.readPartId.fixedWords 2)

/-- The serial number of the board, as four words. -/
def readSerialNumber : Action σ (List UInt32) :=
  CoreVerb.readSerialNumber.callAs [] (CoreVerb.readSerialNumber.fixedWords 4)

/-- The numbers of the device's classes. -/
def getAvailableClasses : Action σ (List UInt32) :=
  CoreVerb.getAvailableClasses.callAs [] CoreVerb.getAvailableClasses.words

/-- The numbers of a class's verbs. -/
def getAvailableVerbs (classNumber : UInt32) : Action σ (List UInt32) :=
  CoreVerb.getAvailableVerbs.callAs [wordArgument classNumber] CoreVerb.getAvailableVerbs.words

/-- The name of a verb. -/
def getVerbName (classNumber verbNumber : UInt32) : Action σ String :=
  CoreVerb.getVerbName.callAs [wordArgument classNumber, wordArgument verbNumber]
    CoreVerb.getVerbName.singleText

/-- A part of the description of a verb. -/
def getVerbDescriptor (classNumber verbNumber : UInt32) (kind : DescriptorKind) :
    Action σ String :=
  CoreVerb.getVerbDescriptor.callAs
    [wordArgument classNumber, wordArgument verbNumber, .ofNat kind.number]
    CoreVerb.getVerbDescriptor.singleText

/-- The name of a class. -/
def getClassName (classNumber : UInt32) : Action σ String :=
  CoreVerb.getClassName.callAs [wordArgument classNumber] CoreVerb.getClassName.singleText

/-- The description of a class. -/
def getClassDocs (classNumber : UInt32) : Action σ String :=
  CoreVerb.getClassDocs.callAs [wordArgument classNumber] CoreVerb.getClassDocs.singleText

/-- Asks the board to restart. -/
def requestReset (resetType : UInt32) : Action σ Unit :=
  CoreVerb.requestReset.callAs [wordArgument resetType] fun _ => .ok ()

end Core

end BoardRpc
