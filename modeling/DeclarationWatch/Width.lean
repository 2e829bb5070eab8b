namespace DeclarationWatch.Width

def words32 : Nat := 0x100000000

def words64 : Nat := 0x10000000000000000

-- The first positive number that does not fit into 64 bits with a sign.
def signed64 : Int := 0x8000000000000000

def fitsSigned64 (n : Int) : Bool := -signed64 ≤ n && n < signed64

theorem fitsSigned64_iff (n : Int) : fitsSigned64 n = true ↔ -signed64 ≤ n ∧ n < signed64 := by
  simp [fitsSigned64]

end DeclarationWatch.Width
