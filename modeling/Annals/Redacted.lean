namespace Annals

/-- A credential.  The only way to see it is `Redacted.expose`. -/
structure Redacted (α : Type) where
  conceal ::
  expose : α
  deriving DecidableEq

namespace Redacted

variable {α : Type}

def mask : String := "***REDACTED***"

def render (_ : Redacted α) : String := mask

instance : ToString (Redacted α) where
  toString := render

instance : Repr (Redacted α) where
  reprPrec secret _ := secret.render

def renderOption : Option (Redacted α) → String
  | some secret => "Some(" ++ secret.render ++ ")"
  | none => "None"

end Redacted

end Annals
