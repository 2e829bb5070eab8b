namespace DeclarationWatch.Text

-- Every `stride`-th code point from `first` to `last` has its other case at distance `shift`.
structure CaseRun where
  first : Nat
  last : Nat
  stride : Nat
  shift : Int

def CaseRun.covers (run : CaseRun) (code : Nat) : Bool :=
  run.first ≤ code && code ≤ run.last && (code - run.first) % run.stride == 0

-- A character that no run covers stays as it is.
def CaseRun.apply (runs : List CaseRun) (c : Char) : Char :=
  match runs.find? (·.covers c.toNat) with
  | some run => Char.ofNat (c.toNat + run.shift).toNat
  | none => c

end DeclarationWatch.Text
