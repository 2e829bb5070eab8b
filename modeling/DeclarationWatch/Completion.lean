import DeclarationWatch.Gmr
import DeclarationWatch.Ledger.Item

namespace DeclarationWatch

inductive CompletionReason where
  | matchedTerminal
  | expired
  deriving Repr, DecidableEq

def CompletionReason.label : CompletionReason → String
  | .matchedTerminal => "matched-terminal"
  | .expired => "expired"

namespace Completion

-- Equality without regard to the case of ASCII letters.
def sameState (a b : String) : Bool :=
  a.toList.map Char.toLower == b.toList.map Char.toLower

def allTerminal (terminal : String) (gmrs : List Gmr) : Bool :=
  !gmrs.isEmpty && gmrs.all fun gmr => sameState gmr.state terminal

-- Matching comes before expiry. An item without records is never matched.
def decide (item : Item) (gmrs : List Gmr) (now : Time.Instant) (terminal : String) :
    Option CompletionReason :=
  if allTerminal terminal gmrs then some .matchedTerminal
  else if item.expiry.before now then some .expired
  else none

end Completion

end DeclarationWatch
