import DeclarationWatch.Gmr

namespace DeclarationWatch

-- A record that is new or changed for a declaration.
structure Sighting where
  mrn : String
  gmr : Gmr

namespace Sighting

-- The same for every resending, so that receivers can tell repeats.
def identifier (s : Sighting) : String := s.mrn ++ "-" ++ s.gmr.id

def toJson (s : Sighting) : Json := .object [("mrn", .string s.mrn), ("gmr", s.gmr.toJson)]

def text (s : Sighting) : String := s.toJson.text

end Sighting

end DeclarationWatch
