import DeclarationWatch.Gmr.SearchAnswer
import DeclarationWatch.Mrn

namespace DeclarationWatch.SearchAnswer

-- The records by id. Of a repeated id the last record counts.
def recordsById (answer : SearchAnswer) : Keyed Gmr :=
  Keyed.ofList (answer.gmrs.map fun gmr => (gmr.id, gmr))

-- The records among `table` that an association names. Ids that name no record are passed over.
def named (table : Keyed Gmr) (association : Association) : List Gmr :=
  association.gmrIds.filterMap fun id => table.get? id

def addAssociation (table : Keyed Gmr) (groups : Keyed (Keyed Gmr)) (association : Association) :
    Keyed (Keyed Gmr) :=
  let mrn := Mrn.canonical association.declaration
  let group := (groups.get? mrn).getD []
  groups.insert mrn ((named table association).foldl (fun g gmr => g.insert gmr.id gmr) group)

-- The records of each declaration, by its canonical number, in the order of their ids. Repeated
-- associations collapse.
def byDeclaration (answer : SearchAnswer) : Keyed (Keyed Gmr) :=
  answer.associations.foldl (addAssociation answer.recordsById) []

def recordsOf (groups : Keyed (Keyed Gmr)) (id : String) : List Gmr :=
  ((groups.get? id).getD []).values

-- Is there a group for the declaration, and is it more than a name?
def hasRecords (groups : Keyed (Keyed Gmr)) (id : String) : Bool :=
  (groups.get? id).any fun group => !group.values.isEmpty

end DeclarationWatch.SearchAnswer
