import DeclarationWatch.Proofs.Api.Access
import DeclarationWatch.Proofs.Api.Hold
import DeclarationWatch.Proofs.Mrn
import DeclarationWatch.Proofs.Settings.Expiry

namespace DeclarationWatch.Api

theorem Route.resource?_queueItem {segment : List Char} (hne : segment ≠ [])
    (hslash : '/' ∉ segment) :
    resource? ("/polling-queue/items/".toList ++ segment) = some (.queueItem segment) := by
  have hpath : "/polling-queue/items/".toList ++ segment =
      [] ++ '/' :: ("polling-queue".toList ++ '/' :: ("items".toList ++ '/' :: segment)) := by
    simp
  have hlast : segment.splitOnP (· == '/') = [segment] := by
    refine List.splitOnP_eq_singleton fun c hc => ?_
    have hother : c ≠ '/' := fun heq => hslash (heq ▸ hc)
    simpa using hother
  rw [resource?, segments, hpath, splitOnP_slash (by simp), splitOnP_slash (by simp),
    splitOnP_slash (by simp), hlast]
  simp [hne]

-- The reference in the path of a request, if that is the path of an item.
def Incoming.reference? (request : Incoming) : Option String :=
  match Route.resource? (Route.pathOf request.uri.toList) with
  | some (.queueItem segment) => Route.parameter? segment
  | _ => none

namespace App

variable {ω : Type}

-- A caller who is known asks to put this text on the queue. It is one segment of the path.
structure Asks (app : App ω) (request : Incoming) (raw : String) : Prop where
  known : app.recognizes request = true
  method : request.method = "POST"
  path : ∃ segment, Route.pathOf request.uri.toList = "/polling-queue/items/".toList ++ segment ∧
    segment ≠ [] ∧ '/' ∉ segment ∧ Route.parameter? segment = some raw

variable {app : App ω} {outage : Outage} {now : Time.Instant} {request : Incoming} {raw : String}
  {state : State ω}

theorem Asks.reference?_eq (h : app.Asks request raw) : request.reference? = some raw := by
  obtain ⟨segment, hpath, hne, hslash, hraw⟩ := h.path
  rw [Incoming.reference?, hpath, Route.resource?_queueItem hne hslash]
  exact hraw

theorem handle_of_asks (h : app.Asks request raw) :
    app.handle outage now request state = app.register outage now raw state := by
  obtain ⟨segment, hpath, hne, hslash, hraw⟩ := h.path
  have hguarded : app.credentials.isSome = true := by
    have hknown := h.known
    unfold recognizes at hknown
    cases hcredentials : app.credentials with
    | none => simp [hcredentials] at hknown
    | some credentials => rfl
  have hfind : Route.find app.credentials.isSome request.method
      (Route.pathOf request.uri.toList) = .found (.register segment) := by
    rw [hpath, hguarded, h.method, Route.find, Route.resource?_queueItem hne hslash]
    rfl
  have hpermits : app.permits request (.register segment) = true := h.known
  simp only [handle, hfind, hpermits, if_true, perform, hraw]

section Register

theorem register_of_malformed {failure : Failure} (h : Mrn.ofText raw = .error failure) :
    app.register outage now raw state =
      (some (.problem 400 "INVALID_INPUT"
        ("Malformed MRN: " ++ String.ofList (Text.trim raw.toList))), state) := by
  have hform : ¬Mrn.HasForm (Mrn.canonical raw).toList := by
    rw [← Mrn.exists_ofText_eq_ok_iff, h]
    rintro ⟨mrn, hmrn⟩
    cases hmrn
  rw [register, Mrn.ofText_of_not_hasForm hform]
  rfl

-- The number that is taken over is canonical, so the ledger keeps it as the caller is told it.
theorem register_of_wellFormed {mrn : Mrn} (h : Mrn.ofText raw = .ok mrn)
    (hopen : outage.register = none) :
    app.register outage now raw state =
      match app.policy.expiry? now with
      | none => (none, state)
      | some expiry =>
          let id := Mrn.canonical raw
          let result := state.ledger.register ⟨id, [], false, now, expiry, none⟩
          (some (.json (if result.1 == .created then 201 else 200)
            (.object [("mrn", .string id), ("created", .bool (result.1 == .created))])),
            ⟨result.2, state.world⟩) := by
  have htext : mrn.text = Mrn.canonical raw := Mrn.ofText_eq_ok_iff.mp h
  simp only [register, h, htext, watch_of_expiry? hopen, Mrn.canonical_canonical]
  cases app.policy.expiry? now <;> rfl

end Register

section Serve

-- An answer that tells of a new item.
def isCreation (entry : Arrival × Option Response) : Bool := entry.2.any (·.status == 201)

-- The ids of the items that are new by these answers, in the order of the requests.
def createdIds (log : List (Arrival × Option Response)) : List String :=
  log.filterMap fun entry =>
    if isCreation entry then entry.1.request.reference?.map Mrn.canonical else none

theorem createdIds_cons (entry : Arrival × Option Response)
    (log : List (Arrival × Option Response)) :
    createdIds (entry :: log) = createdIds [entry] ++ createdIds log :=
  List.filterMap_append (l := [entry])

-- One request adds the item that its answer tells of, and no other.
theorem map_id_handle {arrival : Arrival} (hopen : arrival.outage.register = none)
    (hasks : app.Asks arrival.request raw) :
    (app.handle arrival.outage arrival.now arrival.request state).2.ledger.items.map (·.id) =
      state.ledger.items.map (·.id) ++
        createdIds [(arrival, (app.handle arrival.outage arrival.now arrival.request state).1)] := by
  rw [handle_of_asks hasks]
  cases hmrn : Mrn.ofText raw with
  | error failure =>
      rw [register_of_malformed hmrn]
      simp [createdIds, isCreation, Response.problem, Response.json]
  | ok mrn =>
      rw [register_of_wellFormed hmrn hopen]
      cases app.policy.expiry? arrival.now with
      | none => simp [createdIds, isCreation]
      | some expiry =>
          simp only [Ledger.register]
          split
          · simp [createdIds, isCreation, Response.json]
          · simp [createdIds, isCreation, Response.json, hasks.reference?_eq]

-- By induction on the requests, each of which starts from another state.
theorem map_id_serve {arrivals : List Arrival}
    (h : ∀ arrival ∈ arrivals,
      arrival.outage.register = none ∧ ∃ raw, app.Asks arrival.request raw) :
    (app.serve arrivals state).2.ledger.items.map (·.id) =
      state.ledger.items.map (·.id) ++ createdIds (app.serve arrivals state).1 := by
  induction arrivals generalizing state with
  | nil => simp [serve, createdIds]
  | cons arrival rest ih =>
      obtain ⟨hopen, raw, hasks⟩ := h arrival List.mem_cons_self
      have hrest := fun other hother => h other (List.mem_cons_of_mem arrival hother)
      simp only [serve_cons]
      rw [ih hrest, map_id_handle hopen hasks, List.append_assoc, ← createdIds_cons]

-- No two answers tell of a new item for the same number.
theorem pairwise_serve {arrivals : List Arrival}
    (h : ∀ arrival ∈ arrivals,
      arrival.outage.register = none ∧ ∃ raw, app.Asks arrival.request raw) :
    (app.serve arrivals state).1.Pairwise fun first second => ∀ raw other,
      app.Asks first.1.request raw → app.Asks second.1.request other →
      Mrn.canonical raw = Mrn.canonical other →
      ¬(isCreation first = true ∧ isCreation second = true) := by
  have hdistinct := (app.serve arrivals state).2.ledger.distinct
  rw [map_id_serve h] at hdistinct
  have hcreated := (List.nodup_append.mp hdistinct).2.1
  rw [createdIds, List.Nodup, List.pairwise_filterMap] at hcreated
  refine hcreated.imp ?_
  rintro first second hne raw other hfirst hsecond hsame ⟨hone, htwo⟩
  rw [if_pos hone, if_pos htwo, hfirst.reference?_eq, hsecond.reference?_eq] at hne
  exact hne _ rfl _ rfl hsame

end Serve

-- The answer to a registration and the ledger say the same. A text that is no number is refused and
-- changes nothing. A number is stored in the form in which the caller is told it: as one new item if
-- it was not there, and as the item that was there if it was. So a number is created once, however
-- it is spelled. There is no answer to a number exactly when its expiry lies beyond the calendar.
theorem registration_agrees (app : App ω) :
    (∀ outage now request raw state, outage.register = none → app.Asks request raw →
      let id := Mrn.canonical raw
      let handled := app.handle outage now request state
      (∀ failure, Mrn.ofText raw = .error failure →
        handled = (some (.problem 400 "INVALID_INPUT"
          ("Malformed MRN: " ++ String.ofList (Text.trim raw.toList))), state)) ∧
      ∀ mrn, Mrn.ofText raw = .ok mrn →
        (app.policy.expiry? now = none → handled = (none, state)) ∧
        ∀ expiry, app.policy.expiry? now = some expiry →
          (state.ledger.find? id = none → ∃ after,
            handled = (some (.json 201 (.object [("mrn", .string id), ("created", .bool true)])),
              ⟨after, state.world⟩) ∧
            ∀ other, after.find? other =
              if other = id then some ⟨id, [], false, now, expiry, none⟩
              else state.ledger.find? other) ∧
          (state.ledger.find? id ≠ none →
            handled = (some (.json 200 (.object [("mrn", .string id), ("created", .bool false)])),
              state))) ∧
    (∀ arrivals state, (∀ arrival ∈ arrivals,
        arrival.outage.register = none ∧ ∃ raw, app.Asks arrival.request raw) →
      let served := app.serve arrivals state
      served.2.ledger.items.map (·.id) = state.ledger.items.map (·.id) ++ createdIds served.1 ∧
      served.1.Pairwise fun first second => ∀ raw other,
        app.Asks first.1.request raw → app.Asks second.1.request other →
        Mrn.canonical raw = Mrn.canonical other →
        ¬(isCreation first = true ∧ isCreation second = true)) ∧
    (1 ≤ app.policy.expiryDays → ∀ now : Time.Instant, now.IsReading →
      (app.policy.expiry? now = none ↔
        (now.plus (app.policy.expiryDays * 86400)).inRange = false)) := by
  refine ⟨fun outage now request raw state hopen hasks => ?one,
    fun arrivals state h => ⟨map_id_serve h, pairwise_serve h⟩, fun hpos now hnow => ?never⟩
  case one =>
    intro id handled
    have hhandled : handled = app.register outage now raw state := handle_of_asks hasks
    rw [hhandled]
    refine ⟨fun failure hfailure => register_of_malformed hfailure, fun mrn hmrn => ?_⟩
    rw [register_of_wellFormed hmrn hopen]
    refine ⟨fun hnever => by rw [hnever], fun expiry hexpiry => ?_⟩
    rw [hexpiry]
    obtain ⟨hnew, hknown⟩ := register_outcome state.ledger ⟨id, [], false, now, expiry, none⟩
    constructor
    · intro habsent
      obtain ⟨after, hregister, hfind⟩ := hnew habsent
      refine ⟨after, ?_, hfind⟩
      simp only [hregister, id]
      rfl
    · intro hpresent
      simp only [hknown hpresent, id]
      rfl
  case never =>
    rw [expiry?_of_isReading hpos hnow]
    by_cases hrange : (now.plus (app.policy.expiryDays * 86400)).inRange = true
    · simp [hrange]
    · simp [hrange]

section Runs

-- A service with one caller, who asks for two spellings of one number and for a text that is none.
def granting (days : Int) : App Unit :=
  ⟨{ expiryDays := days }, some ⟨"dev", "s3cret"⟩, fun _ _ world => (.ok (), world)⟩

def posted (uri : String) : Incoming :=
  ⟨"POST", uri, [("Authorization", "Basic ZGV2OnMzY3JldA==")], ""⟩

def small : Incoming := posted "/polling-queue/items/24gbabcdefghijklm1"

def padded : Incoming := posted "/polling-queue/items/%2024GBABCDEFGHIJKLM1?again"

def short : Incoming := posted "/polling-queue/items/24GB"

theorem recognizes_posted (days : Int) (uri : String) :
    (granting days).recognizes (posted uri) = true :=
  show (granting 0).recognizes (posted "") = true by decide +kernel

theorem asks_small (days : Int) : (granting days).Asks small "24gbabcdefghijklm1" where
  known := recognizes_posted days _
  method := rfl
  path := ⟨"24gbabcdefghijklm1".toList, by decide⟩

theorem asks_padded (days : Int) : (granting days).Asks padded " 24GBABCDEFGHIJKLM1" where
  known := recognizes_posted days _
  method := rfl
  path := ⟨"%2024GBABCDEFGHIJKLM1".toList, by decide⟩

theorem asks_short (days : Int) : (granting days).Asks short "24GB" where
  known := recognizes_posted days _
  method := rfl
  path := ⟨"24GB".toList, by decide⟩

theorem canonical_spellings :
    Mrn.canonical "24gbabcdefghijklm1" = "24GBABCDEFGHIJKLM1" ∧
      Mrn.canonical " 24GBABCDEFGHIJKLM1" = "24GBABCDEFGHIJKLM1" := by
  decide

theorem exists_ofText_of_canonical (h : Mrn.canonical raw = "24GBABCDEFGHIJKLM1") :
    ∃ mrn, Mrn.ofText raw = .ok mrn := by
  rw [Mrn.exists_ofText_eq_ok_iff, ← Mrn.isWellFormed_iff, h]
  decide

theorem exists_ofText_short : ∃ failure, Mrn.ofText "24GB" = .error failure := by
  refine ⟨_, Mrn.ofText_of_not_hasForm ?_⟩
  rw [← Mrn.isWellFormed_iff]
  decide

-- The second spelling finds the item of the first, and the text that is no number leaves it alone. A
-- service that grants a term beyond the calendar does not answer.
theorem registration_agrees_respelled :
    let app := granting 30
    let now : Time.Instant := ⟨1762513200, 0⟩
    let id := "24GBABCDEFGHIJKLM1"
    let arrivals : List Arrival := [⟨{}, now, small⟩, ⟨{}, now, padded⟩]
    (∃ after,
      app.handle {} now small ⟨.empty, ()⟩ =
        (some (.json 201 (.object [("mrn", .string id), ("created", .bool true)])), ⟨after, ()⟩) ∧
      after.find? id = some ⟨id, [], false, now, ⟨1765105200, 0⟩, none⟩ ∧
      app.handle {} now padded ⟨after, ()⟩ =
        (some (.json 200 (.object [("mrn", .string id), ("created", .bool false)])),
          ⟨after, ()⟩) ∧
      app.handle {} now short ⟨after, ()⟩ =
        (some (.problem 400 "INVALID_INPUT" "Malformed MRN: 24GB"), ⟨after, ()⟩)) ∧
      (app.serve arrivals ⟨.empty, ()⟩).2.ledger.items.map (·.id) =
        createdIds (app.serve arrivals ⟨.empty, ()⟩).1 ∧
      (granting 100000000).handle {} now small ⟨.empty, ()⟩ = (none, ⟨.empty, ()⟩) := by
  intro app now id arrivals
  obtain ⟨hone, hall, -⟩ := registration_agrees app
  obtain ⟨hstopped, -, hnever⟩ := registration_agrees (granting 100000000)
  obtain ⟨hsmall, hpadded⟩ := canonical_spellings
  obtain ⟨mrn, hmrn⟩ := exists_ofText_of_canonical hsmall
  obtain ⟨other, hother⟩ := exists_ofText_of_canonical hpadded
  obtain ⟨failure, hfailure⟩ := exists_ofText_short
  have hexpiry : app.policy.expiry? now = some ⟨1765105200, 0⟩ := by decide
  have hbeyond : (granting 100000000).policy.expiry? now = none :=
    (hnever (by decide) now ⟨by decide, by decide, by decide⟩).mpr (by decide)
  have hfirst := ((hone {} now small _ ⟨.empty, ()⟩ rfl (asks_small 30)).2 mrn hmrn).2 _ hexpiry
  rw [hsmall] at hfirst
  obtain ⟨after, hcreated, hfind⟩ := hfirst.1 (Ledger.find?_empty _)
  have hstored : after.find? id = some ⟨id, [], false, now, ⟨1765105200, 0⟩, none⟩ :=
    (hfind id).trans (if_pos rfl)
  have hpresent : after.find? id ≠ none := Option.ne_none_iff_exists'.mpr ⟨_, hstored⟩
  have hagain := ((hone {} now padded _ ⟨after, ()⟩ rfl (asks_padded 30)).2 other hother).2 _ hexpiry
  rw [hpadded] at hagain
  have hrefused := (hone {} now short _ ⟨after, ()⟩ rfl (asks_short 30)).1 failure hfailure
  refine ⟨⟨after, hcreated, hstored, hagain.2 hpresent, hrefused⟩,
    (hall arrivals ⟨.empty, ()⟩ ?_).1.trans (List.nil_append _),
    ((hstopped {} now small _ ⟨.empty, ()⟩ rfl (asks_small _)).2 mrn hmrn).1 hbeyond⟩
  rintro arrival harrival
  rcases List.mem_pair.mp harrival with rfl | rfl
  · exact ⟨rfl, _, asks_small 30⟩
  · exact ⟨rfl, _, asks_padded 30⟩

-- Under settings that are accepted a request for a good number can be left without an answer.
theorem not_forall_registration_answered :
    ¬∀ (app : App Unit) env settings, Settings.Accepted env settings →
      app.policy = settings.polling → ∀ now : Time.Instant, now.IsReading →
      ∀ request raw mrn state, app.Asks request raw → Mrn.ofText raw = .ok mrn →
        ∃ response, (app.handle {} now request state).1 = some response := by
  intro hall
  have haccepted := @Settings.accepted_usual 100000000 (by decide) (by decide)
  have hnow : Time.Instant.IsReading ⟨1762513200, 0⟩ := ⟨by decide, by decide, by decide⟩
  obtain ⟨mrn, hmrn⟩ := exists_ofText_of_canonical canonical_spellings.1
  obtain ⟨response, hresponse⟩ := hall (granting 100000000) _ _ haccepted rfl ⟨1762513200, 0⟩ hnow
    small _ mrn ⟨.empty, ()⟩ (asks_small 100000000) hmrn
  have hbeyond : (granting 100000000).policy.expiry? ⟨1762513200, 0⟩ = none := by decide
  rw [handle_of_asks (asks_small 100000000), register_of_wellFormed hmrn rfl, hbeyond] at hresponse
  cases hresponse

end Runs

end App

end DeclarationWatch.Api
