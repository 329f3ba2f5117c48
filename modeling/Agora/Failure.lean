/-!
Why a request cannot be carried out, and the words in which the one who asked is told.
-/

namespace Agora

/-- Why a request fails. -/
inductive Failure where
  | alreadyExists (entity id : String)
  | notFound (entity id : String)
  | invalid (reason : String)
  | internal (reason : String)
  deriving DecidableEq, Repr

/-- The words for a failure. -/
def Failure.message : Failure → String
  | .alreadyExists entity id => entity ++ " already exists: " ++ id
  | .notFound entity id => entity ++ " not found: " ++ id
  | .invalid reason => "validation failure: " ++ reason
  | .internal reason => "internal error: " ++ reason

end Agora
