import BoardRpc.Cli.Output
import BoardRpc.Rpc.Describe

/-! Listings: classes and verbs as the program prints them. -/

namespace BoardRpc.Cli

/-- The lines that tell of a class in words. -/
def describeClass (descriptor : ClassDescriptor) : List String :=
  let heading := descriptor.name ++ " (class " ++ Text.hexLiteral descriptor.number.toNat ++ "): "
    ++ descriptor.docs
  let verbs := descriptor.verbs.flatMap fun verb =>
    ("  " ++ verb.signature) :: if verb.doc.isEmpty then [] else ["      " ++ verb.doc]
  let numbers := descriptor.opaqueVerbs.map fun number => Text.hexLiteral number.toNat
  let others :=
    if numbers.isEmpty then [] else ["  (not describable: " ++ ", ".intercalate numbers ++ ")"]
  heading :: verbs ++ others

/-- Classes in an output format. -/
def renderClasses (classes : List ClassDescriptor) : OutputFormat → String
  | .json => jsonLine (.arr (classes.map ClassDescriptor.toJson))
  | .table => Table.render
      { header := ["CLASS", "VERB", "SIGNATURE"]
        rows := classes.flatMap fun descriptor => descriptor.verbs.map fun verb =>
          [descriptor.name ++ " (" ++ Text.hexLiteral descriptor.number.toNat ++ ")",
            Text.hexLiteral verb.verbNumber.toNat, verb.signature] }
  | .pretty => unlines (classes.flatMap describeClass)
  | .raw => unlines (classes.flatMap fun descriptor => descriptor.verbs.map fun verb =>
      descriptor.name ++ "." ++ verb.name)

end BoardRpc.Cli
