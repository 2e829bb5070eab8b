namespace DeclarationWatch.Text

-- Membership in a table of closed, ascending ranges of code points.
def inRanges (ranges : List (Nat × Nat)) (code : Nat) : Bool :=
  ranges.any fun range => range.1 ≤ code && code ≤ range.2

end DeclarationWatch.Text
