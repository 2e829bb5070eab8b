namespace DeclarationWatch.Json

-- Why a text could not be read as a value of the wanted kind.
inductive Fault where
  -- The text ends inside a value.
  | endsEarly
  -- The text is no JSON.
  | malformed
  -- The text is JSON so far, of another shape than wanted.
  | wrongShape
  deriving Repr, DecidableEq

end DeclarationWatch.Json
