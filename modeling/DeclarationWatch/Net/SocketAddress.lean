import DeclarationWatch.Net.Url.Host
import DeclarationWatch.Width

namespace DeclarationWatch.Net.SocketAddress

def isPort (s : List Char) : Bool :=
  !s.isEmpty && s.all Host.isDigit && (Host.readBase 10 s).any (· < 65536)

-- The number of a network device after a percent sign.
def isScope (s : List Char) : Bool :=
  !s.isEmpty && s.all Host.isDigit && (Host.readBase 10 s).any (· < Width.words32)

def isBracketed (s : List Char) : Bool :=
  match s.dropWhile (· != '%') with
  | [] => Host.isIpv6 s
  | _ :: scope => Host.isIpv6 (s.takeWhile (· != '%')) && isScope scope

-- An address, a colon and a number. Addresses with colons of their own stand in brackets.
def isValid (text : String) : Bool :=
  let s := text.toList
  match s with
  | '[' :: rest =>
      isBracketed (rest.takeWhile (· != ']')) &&
        match rest.dropWhile (· != ']') with
        | ']' :: ':' :: portNumber => isPort portNumber
        | _ => false
  | _ =>
      Host.isPlainQuad (s.takeWhile (· != ':')) &&
        match s.dropWhile (· != ':') with
        | ':' :: portNumber => isPort portNumber
        | _ => false

end DeclarationWatch.Net.SocketAddress
