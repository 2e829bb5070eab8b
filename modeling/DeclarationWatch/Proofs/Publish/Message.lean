import DeclarationWatch.Proofs.Gmr.Codec
import DeclarationWatch.Proofs.Publish.Webhook
import Mathlib.Data.List.Forall2

namespace DeclarationWatch

-- A record whose message can be read: no number in it is one that a text cannot hold, and there is
-- room for its payload two levels down.
structure Sighting.Sendable (sighting : Sighting) : Prop where
  exact : sighting.gmr.Exact
  fits : ∀ pair ∈ sighting.gmr.payload, pair.2.Fits 125

namespace Publish

theorem ofText?_text {sighting : Sighting} (h : sighting.Sendable) :
    Json.ofText? sighting.text =
      some (.object [("gmr", .object sighting.gmr.members), ("mrn", .string sighting.mrn)]) := by
  have hexact : sighting.toJson.Exact := ⟨trivial, Gmr.exact_toJson h.exact, trivial⟩
  have hgmr := Gmr.value_nodeOf_of_fits h.fits
  have hsorted (gmr mrn : Json) :
      Keyed.insert "gmr" gmr [("mrn", mrn)] = [("gmr", gmr), ("mrn", mrn)] := if_pos (by decide)
  rw [Json.ofText?, Sighting.text, Json.decodeText_text _ _ hexact]
  simp only [Sighting.toJson, Json.maxDepth, Json.nodeOf, Json.membersOf, Json.Decoder.value,
    Json.Decoder.valueMembers, hgmr, Json.Decoder.close, Except.map, bind, Except.bind]
  exact congrArg (fun members => some (Json.object members)) (hsorted _ _)

end Publish

end DeclarationWatch
