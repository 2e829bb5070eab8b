import DeclarationWatch.Gmr

namespace DeclarationWatch

-- The ids of the records on which a declaration appears.
structure Association where
  declaration : String
  gmrIds : List String
  deriving Repr, DecidableEq

structure SearchAnswer where
  associations : List Association
  gmrs : List Gmr

def Association.toJson (a : Association) : Json :=
  .object [("dec", .string a.declaration), ("gmrs", Json.strings a.gmrIds)]

def Association.decode : Json.Decoder Association := fun levels node => do
  let (declaration, gmrIds) ← Json.Decoder.record (σ := Option String × Option (List String))
    [.required "dec" Json.Decoder.string (·.1) fun draft value => (value, draft.2),
      .defaulted "gmrs" (Json.Decoder.list Json.Decoder.string) (·.2)
        fun draft value => (draft.1, value)]
    (none, none) levels node
  .ok ⟨declaration.getD "", gmrIds.getD []⟩

namespace SearchAnswer

def empty : SearchAnswer := ⟨[], []⟩

def toJson (answer : SearchAnswer) : Json :=
  .object [("gmrByDeclarationId", .array (answer.associations.map Association.toJson)),
    ("gmrs", .array (answer.gmrs.map Gmr.toJson))]

def text (answer : SearchAnswer) : String := answer.toJson.text

def decode : Json.Decoder SearchAnswer := fun levels node => do
  let (associations, gmrs) ←
    Json.Decoder.record (σ := Option (List Association) × Option (List Gmr))
      [.defaulted "gmrByDeclarationId" (Json.Decoder.list Association.decode) (·.1)
          fun draft value => (value, draft.2),
        .defaulted "gmrs" (Json.Decoder.list Gmr.decode) (·.2)
          fun draft value => (draft.1, value)]
      (none, none) levels node
  .ok ⟨associations.getD [], gmrs.getD []⟩

def ofText (s : String) : Except Json.Fault SearchAnswer := Json.decodeText decode s

end SearchAnswer

end DeclarationWatch
