import DeclarationWatch.Proofs.History
import DeclarationWatch.Proofs.Json.Lexeme
import DeclarationWatch.Proofs.Time.Reading
import DeclarationWatch.Settings.Load
import DeclarationWatch.Settings.Rules

namespace DeclarationWatch

namespace Settings

section Numbers

-- An integer that is set has 64 bits.
def Scalar.Fits : Scalar → Prop
  | .integer n => Width.fitsSigned64 n = true
  | _ => True

theorem Scalar.fits_of_integer? {s : List Char} {n : Int} (h : integer? s = some n) :
    (Scalar.integer n).Fits := by
  unfold integer? at h
  simp only at h
  split at h
  · rename_i hread
    cases h
    simp only [Bool.and_eq_true] at hread
    exact hread.2
  · cases h

theorem Scalar.fits_ofText (s : String) : (ofText s).Fits := by
  unfold ofText
  simp only
  split
  · trivial
  · split
    · trivial
    · split
      · exact fits_of_integer? ‹_›
      · trivial
      · trivial

theorem Scalar.fits_clamp (n : Int) :
    Width.fitsSigned64 (clamp (-Width.signed64) (Width.signed64 - 1) n) = true := by
  rw [Width.fitsSigned64_iff]
  simp only [clamp, Width.signed64]
  omega

theorem Scalar.fits_bit (b : Bool) : Width.fitsSigned64 (bit b) = true := by
  cases b <;> decide

-- Whatever its form, a setting is taken for an integer of 64 bits or for none.
theorem Scalar.fits_of_asInteger? {value : Scalar} {n : Int} (hfits : value.Fits)
    (h : value.asInteger? = some n) : Width.fitsSigned64 n = true := by
  cases value with
  | bool b =>
      cases h
      exact fits_bit b
  | integer m =>
      cases h
      exact hfits
  | real x =>
      cases h
      unfold rounded
      split
      · decide
      · simp only
        split
        · split <;> decide
        · exact fits_clamp _
  | text s =>
      obtain ⟨b, -, rfl⟩ := Option.map_eq_some_iff.mp h
      exact fits_bit b

def Layer.Fits (layer : Layer) : Prop := ∀ entry ∈ layer, entry.2.Fits

theorem Layer.mem_of_mem_overlaid {layer : Layer} {entries : List (Path × Scalar)}
    {entry : Path × Scalar} (h : entry ∈ layer.overlaid entries) :
    entry ∈ layer ∨ entry ∈ entries := by
  induction entries generalizing layer with
  | nil => exact Or.inl h
  | cons first rest ih =>
      rcases ih h with hset | hrest
      · rcases List.mem_append.mp hset with hkept | hnew
        · exact Or.inl (List.mem_of_mem_filter hkept)
        · exact Or.inr (List.mem_cons.mpr (Or.inl (List.mem_singleton.mp hnew)))
      · exact Or.inr (List.mem_cons_of_mem _ hrest)

theorem Layer.exists_of_find {layer : Layer} {path : Path} {value : Scalar}
    (h : layer.find path = .scalar value) : ∃ entry ∈ layer, entry.2 = value := by
  unfold find at h
  simp only at h
  split at h
  · cases h
  · rename_i value' hinside
    cases h
    have hmem := List.mem_singleton_self (([], value) : Path × Scalar)
    rw [← hinside, List.mem_filterMap] at hmem
    obtain ⟨entry, hentry, hstrip⟩ := hmem
    obtain ⟨rest, -, hrest⟩ := Option.map_eq_some_iff.mp hstrip
    exact ⟨entry, hentry, congrArg Prod.snd hrest⟩
  · cases h

theorem fits_of_required {layer : Layer} {names : List String} {n : Int} (hlayer : layer.Fits)
    (h : required layer names Scalar.asInteger? = some n) : Width.fitsSigned64 n = true := by
  unfold required at h
  split at h
  · rename_i value hfind
    obtain ⟨entry, hmem, rfl⟩ := Layer.exists_of_find hfind
    exact Scalar.fits_of_asInteger? (hlayer entry hmem) h
  · cases h

theorem fits_defaults : Layer.Fits defaults := by
  simp [Layer.Fits, defaults, Scalar.Fits, Width.fitsSigned64, Width.signed64]

theorem fits_overlaid (env : Environment) : Layer.Fits (defaults.overlaid env.entries) := by
  intro entry hentry
  rcases Layer.mem_of_mem_overlaid hentry with hdefault | hset
  · exact fits_defaults entry hdefault
  · obtain ⟨⟨name, value⟩, -, rfl⟩ := List.mem_map.mp hset
    exact Scalar.fits_ofText value

theorem fits_expiryDays {env : Environment} {settings : Settings}
    (h : ofEnvironment? env = some settings) :
    Width.fitsSigned64 settings.polling.expiryDays = true := by
  unfold ofEnvironment? ofLayer? at h
  simp only [Option.bind_eq_bind, Option.bind_eq_some_iff, Option.some.injEq] at h
  obtain ⟨_, -, _, -, _, -, policy, hpolicy, _, -, _, -, _, -, _, -, _, -, rfl⟩ := h
  unfold polling? at hpolicy
  simp only [Option.bind_eq_bind, Option.bind_eq_some_iff, Option.some.injEq] at hpolicy
  obtain ⟨_, -, days, hdays, _, -, rfl⟩ := hpolicy
  exact fits_of_required (fits_overlaid env) hdays

end Numbers

-- Settings with which the program goes on after it has read them.
structure Accepted (env : Environment) (settings : Settings) : Prop where
  loaded : ofEnvironment? env = some settings
  valid : settings.violations = []

theorem checkNumber_eq_nil_iff {path : String} {low n : Int} {high : Option Int} :
    checkNumber path low high n = [] ↔ isWithin low high n = true := by
  unfold checkNumber
  split <;> simp_all

theorem Accepted.expiryDays_pos {env : Environment} {settings : Settings}
    (h : Accepted env settings) : 1 ≤ settings.polling.expiryDays := by
  have hvalid := h.valid
  simp only [violations, List.append_eq_nil_iff, checkNumber_eq_nil_iff] at hvalid
  obtain ⟨⟨⟨⟨⟨⟨-, hdays⟩, -⟩, -⟩, -⟩, -⟩, -⟩ := hvalid
  simpa [isWithin] using hdays

section Days

theorem lowerChar_of_isDigit {c : Char} (h : Scalar.isDigit c = true) : Text.lowerChar c = [c] := by
  have hcode : '0' ≤ c ∧ c ≤ '9' := by simpa [Scalar.isDigit] using h
  have hlow : 48 ≤ c.toNat := hcode.1
  have hhigh : c.toNat ≤ 57 := hcode.2
  have hsame : c.toLower = c := by
    unfold Char.toLower
    rw [dif_neg]
    rintro ⟨hupper, -⟩
    have hupper : 65 ≤ c.toNat := hupper
    omega
  rw [Text.lowerChar, if_pos (by omega), hsame]

theorem lowerCase_of_isDigit {digits : List Char}
    (h : ∀ c ∈ digits, Scalar.isDigit c = true) : Text.lowerCase digits = digits := by
  have hfrom : ∀ afterLetter, Text.lowerFrom afterLetter digits = digits := by
    induction digits with
    | nil => exact fun _ => rfl
    | cons c rest ih =>
        intro afterLetter
        have hdigit := h c List.mem_cons_self
        have hsigma : c ≠ 'Σ' := by
          rintro rfl
          cases hdigit
        rw [Text.lowerFrom, ih (fun d hd => h d (List.mem_cons_of_mem _ hd)),
          lowerChar_of_isDigit hdigit]
        simp [hsigma]
  exact hfrom false

theorem splitSign_of_isDigit {s : List Char} (h : ∀ c ∈ s, Scalar.isDigit c = true) :
    Scalar.splitSign s = (false, s) := by
  unfold Scalar.splitSign
  split
  · exact absurd (h '-' List.mem_cons_self) (by decide)
  · exact absurd (h '+' List.mem_cons_self) (by decide)
  · rfl

theorem isDigit_of_mem_toDigits {n : Nat} {c : Char} (h : c ∈ Nat.toDigits 10 n) :
    Scalar.isDigit c = true :=
  Json.isDigit_of_mem_toDigits h

theorem integer?_toDigits {n : Nat} (hfits : (n : Int) < Width.signed64) :
    Scalar.integer? (Nat.toDigits 10 n) = some (n : Int) := by
  have hdigits : (Nat.toDigits 10 n).all Scalar.isDigit = true :=
    List.all_eq_true.mpr fun c hc => isDigit_of_mem_toDigits hc
  have hsign := splitSign_of_isDigit (List.all_eq_true.mp hdigits)
  have hvalue : Scalar.readDigits (Nat.toDigits 10 n) = n := Json.naturalOf_toDigits n
  have hwide : Width.fitsSigned64 n = true := by
    rw [Width.fitsSigned64_iff]
    simp only [Width.signed64] at *
    omega
  unfold Scalar.integer?
  simp [hsign, hvalue, Scalar.signed, hwide, hdigits]

-- Digits spell no truth value.
theorem ofText_toDigits {n : Nat} (hfits : (n : Int) < Width.signed64) :
    Scalar.ofText (String.ofList (Nat.toDigits 10 n)) = .integer n := by
  have hlower : Scalar.lower (String.ofList (Nat.toDigits 10 n)) =
      String.ofList (Nat.toDigits 10 n) := by
    rw [Scalar.lower, String.toList_ofList,
      lowerCase_of_isDigit fun c hc => isDigit_of_mem_toDigits hc]
  have hword : ∀ word : List Char, 'e' ∈ word →
      String.ofList (Nat.toDigits 10 n) ≠ String.ofList word := by
    intro word hletter hsame
    rw [← String.ofList_inj.mp hsame] at hletter
    exact absurd (isDigit_of_mem_toDigits hletter) (by decide)
  unfold Scalar.ofText
  simp only [hlower]
  rw [if_neg (hword ['t', 'r', 'u', 'e'] (by decide)),
    if_neg (hword ['f', 'a', 'l', 's', 'e'] (by decide)), String.toList_ofList,
    integer?_toDigits hfits]

def daysVariable : String := "POLLING__EXPIRY_DAYS"

-- What is loaded where nothing but the days is set.
def usual (days : Int) : Settings where
  databaseUrl := "postgresql://localhost/gmr_finder"
  bindAddress := "0.0.0.0:8080"
  store := .postgres
  polling := { expiryDays := days }
  movement := ⟨"https://test-api.service.hmrc.gov.uk", "", "", 30⟩
  publisher := ⟨none, ⟨4, 1000, 10⟩, 30⟩
  jobs := [(pollJob, "0 */1 * * * *")]
  stopTimeoutSeconds := 30
  features := ⟨true, false, none, none⟩

theorem ofLayer?_days (days : Int) :
    ofLayer? (defaults.overlaid [(members ["polling", "expiry_days"], .integer days)]) =
      some (usual days) := rfl

theorem violations_usual {days : Int} (h : 1 ≤ days) : (usual days).violations = [] := by
  have hurl : checkUrl "gvms.base_url" (usual days).movement.baseUrl = [] :=
    if_pos (show (Net.Url.ofText? "https://test-api.service.hmrc.gov.uk").isSome = true by
      decide +kernel)
  have hdays : checkNumber "polling.expiry_days" 1 none (usual days).polling.expiryDays = [] := by
    rw [checkNumber_eq_nil_iff, isWithin, Option.all_none, Bool.and_true]
    exact decide_eq_true h
  unfold violations
  rw [hurl, hdays]
  rfl

theorem accepted_usual {days : Int} (hpos : 1 ≤ days) (hfits : days < Width.signed64) :
    Accepted [(daysVariable, String.ofList (Nat.toDigits 10 days.toNat))] (usual days) where
  loaded := by
    have hpath : Name.path daysVariable = members ["polling", "expiry_days"] := by decide +kernel
    have hnat : (days.toNat : Int) = days := by omega
    have hvalue : Scalar.ofText (String.ofList (Nat.toDigits 10 days.toNat)) = .integer days := by
      rw [ofText_toDigits (by rw [hnat]; exact hfits), hnat]
    have hentries := congrArg₂ (fun path value => [((path, value) : Path × Scalar)]) hpath hvalue
    exact (congrArg (fun entries => ofLayer? (defaults.overlaid entries)) hentries).trans
      (ofLayer?_days days)
  valid := violations_usual hpos

theorem exists_accepted_iff {days : Int} :
    (∃ env settings, Accepted env settings ∧ settings.polling.expiryDays = days) ↔
      1 ≤ days ∧ days < Width.signed64 := by
  constructor
  · rintro ⟨env, settings, haccepted, rfl⟩
    exact ⟨haccepted.expiryDays_pos, ((Width.fitsSigned64_iff _).mp
      (fits_expiryDays haccepted.loaded)).2⟩
  · rintro ⟨hpos, hfits⟩
    exact ⟨_, _, accepted_usual hpos hfits, rfl⟩

end Days

end Settings

open Time (Instant)

section Registration

variable {policy : Policy} {now : Instant}

theorem eq_of_ttl?_eq_some {ttl : Int} (h : policy.ttl? = some ttl) :
    ttl = policy.expiryDays * 86400 * 1000 := by
  unfold Policy.ttl? Time.spanOf? at h
  split at h
  · cases h
    omega
  · cases h

-- Days that the calendar has are a span.
theorem ttl?_of_le (hpos : 1 ≤ policy.expiryDays)
    (h : policy.expiryDays * 86400 ≤ Instant.lastSecond) :
    policy.ttl? = some (policy.expiryDays * 86400 * 1000) := by
  have hmillis : policy.expiryDays * 86400000 = policy.expiryDays * 86400 * 1000 := by omega
  rw [Policy.ttl?, hmillis]
  refine Time.spanOf?_seconds ?_ h
  rw [Instant.firstSecond_eq, Instant.lastReading_eq]
  omega

-- When the time of an item is over that is registered now. There need not be such a time.
def Policy.expiry? (policy : Policy) (now : Instant) : Option Instant :=
  policy.ttl?.bind now.add?

theorem watch_of_expiry? {outage : Outage} (hopen : outage.register = none) (ledger : Ledger)
    (reference : String) :
    watch policy outage now ledger reference =
      match policy.expiry? now with
      | none => .error .outOfRange
      | some expiry =>
          .ok (ledger.register ⟨Mrn.canonical reference, [], false, now, expiry, none⟩) := by
  unfold watch Policy.expiry?
  cases policy.ttl? with
  | none => rfl
  | some ttl =>
      simp only [Option.bind_some, Item.fresh?, hopen]
      cases now.add? ttl <;> rfl

-- There are two ways in which days can be too many: they make no span, or the span leads out of
-- the calendar. No reading is so early that the first could happen without the second.
theorem expiry?_of_isReading (hpos : 1 ≤ policy.expiryDays) (hnow : now.IsReading) :
    let expiry := now.plus (policy.expiryDays * 86400)
    policy.expiry? now = if expiry.inRange then some expiry else none := by
  intro expiry
  obtain ⟨hzero, -, hfraction⟩ := Instant.isReading_iff.mp hnow
  have hadd : now.add? (policy.expiryDays * 86400 * 1000) =
      if expiry.inRange then some expiry else none := Instant.add?_seconds hfraction _
  by_cases hrange : expiry.inRange = true
  · have hwithin := (Instant.inRange_plus_iff.mp hrange).2
    rw [Policy.expiry?, ttl?_of_le hpos (by omega), Option.bind_some, hadd]
  · rw [if_neg hrange] at hadd ⊢
    rw [Policy.expiry?, Option.bind_eq_none_iff]
    intro ttl httl
    rw [eq_of_ttl?_eq_some httl, hadd]

theorem watch_of_isReading (hpos : 1 ≤ policy.expiryDays) (hnow : now.IsReading) (ledger : Ledger)
    (reference : String) :
    let expiry := now.plus (policy.expiryDays * 86400)
    watch policy {} now ledger reference =
      if expiry.inRange then
        .ok (ledger.register ⟨Mrn.canonical reference, [], false, now, expiry, none⟩)
      else .error .outOfRange := by
  intro expiry
  rw [watch_of_expiry? rfl, expiry?_of_isReading hpos hnow]
  by_cases hrange : expiry.inRange = true
  · rw [if_pos hrange, if_pos hrange]
  · rw [if_neg hrange, if_neg hrange]

-- What a registration makes of its reference where the expiry is a time.
theorem register_outcome (ledger : Ledger) (item : Item) :
    (ledger.find? item.id = none → ∃ after, ledger.register item = (.created, after) ∧
      ∀ id, after.find? id = if id = item.id then some item else ledger.find? id) ∧
    (ledger.find? item.id ≠ none → ledger.register item = (.alreadyExists, ledger)) := by
  constructor
  · intro hnew
    refine ⟨(ledger.register item).2,
      Prod.ext ((Ledger.register_eq_created_iff ledger item).mpr hnew) rfl, fun id => ?_⟩
    rw [Ledger.find?_register]
    by_cases hid : id = item.id
    · simp [hid, hnew]
    · simp [hid]
  · intro hknown
    have hthere : (ledger.register item).1 = .alreadyExists := by
      cases hresult : (ledger.register item).1 with
      | created => exact absurd ((Ledger.register_eq_created_iff ledger item).mp hresult) hknown
      | alreadyExists => rfl
    exact Prod.ext hthere (Ledger.register_of_alreadyExists hthere)

-- Which days can be set, and when a registration under them stops the program. The check asks for
-- one day at least, and for no more than 64 bits hold. That the expiry is a time is left to chance.
theorem registration_of_days (days : Int) :
    ((∃ env settings, Settings.Accepted env settings ∧ settings.polling.expiryDays = days) ↔
      1 ≤ days ∧ days < Width.signed64) ∧
    ∀ env settings, Settings.Accepted env settings → settings.polling.expiryDays = days →
      (∀ ledger reference (now : Instant), now.IsReading →
        let id := Mrn.canonical reference
        let expiry := now.plus (days * 86400)
        let result := watch settings.polling {} now ledger reference
        (expiry.inRange = false → result = .error .outOfRange) ∧
        (expiry.inRange = true →
          now.before expiry = true ∧
          (ledger.find? id = none → ∃ after, result = .ok (.created, after) ∧
            ∀ other, after.find? other =
              if other = id then some ⟨id, [], false, now, expiry, none⟩
              else ledger.find? other) ∧
          (ledger.find? id ≠ none → result = .ok (.alreadyExists, ledger)))) ∧
      ((∀ ledger reference (now : Instant), now.IsReading →
          watch settings.polling {} now ledger reference ≠ .error .outOfRange) ↔
        days * 86400 ≤ Instant.lastSecond - Instant.lastReading) := by
  refine ⟨Settings.exists_accepted_iff, ?_⟩
  rintro env settings haccepted rfl
  have hpos := haccepted.expiryDays_pos
  refine ⟨fun ledger reference now hnow => ?one, ?all⟩
  case one =>
    intro id expiry result
    have hresult : result =
        if expiry.inRange then .ok (ledger.register ⟨id, [], false, now, expiry, none⟩)
        else .error .outOfRange := watch_of_isReading hpos hnow ledger reference
    constructor
    · intro hout
      rw [hresult, hout]
      rfl
    · intro hin
      rw [hin, if_pos rfl] at hresult
      obtain ⟨hnew, hknown⟩ := register_outcome ledger ⟨id, [], false, now, expiry, none⟩
      refine ⟨Instant.before_plus (by omega), fun habsent => ?_, fun hpresent => ?_⟩
      · obtain ⟨after, hregister, hfind⟩ := hnew habsent
        exact ⟨after, hresult.trans (congrArg Except.ok hregister), hfind⟩
      · exact hresult.trans (congrArg Except.ok (hknown hpresent))
  case all =>
    have hone : ∀ ledger reference (now : Instant), now.IsReading →
        (watch settings.polling {} now ledger reference ≠ .error .outOfRange ↔
          (now.plus (settings.polling.expiryDays * 86400)).inRange = true) := by
      intro ledger reference now hnow
      rw [watch_of_isReading hpos hnow]
      split <;> simp_all
    have hall := @Instant.forall_inRange_plus_iff (settings.polling.expiryDays * 86400)
    constructor
    · intro hnever
      exact (hall.mp fun now hnow => (hone .empty "" now hnow).mp (hnever .empty "" now hnow)).2
    · intro hfew ledger reference now hnow
      refine (hone ledger reference now hnow).mpr (hall.mpr ⟨?_, hfew⟩ now hnow)
      rw [Instant.firstSecond_eq]
      omega

-- Thirty days, which hold where nothing is set, are never too many.
theorem registration_of_thirty_days :
    let settings := Settings.usual 30
    let now : Instant := ⟨1762513200, 0⟩
    Settings.Accepted [] settings ∧
      (∀ ledger reference (time : Instant), time.IsReading →
        watch settings.polling {} time ledger reference ≠ .error .outOfRange) ∧
      ∃ after, watch settings.polling {} now .empty " mrn-c" = .ok (.created, after) ∧
        after.find? "MRN-C" = some ⟨"MRN-C", [], false, now, ⟨1765105200, 0⟩, none⟩ := by
  intro settings now
  have haccepted : Settings.Accepted [] settings := ⟨rfl, Settings.violations_usual (by decide)⟩
  have hnow : now.IsReading := ⟨by decide, by decide, by decide⟩
  have hid : Mrn.canonical " mrn-c" = "MRN-C" := by decide +kernel
  obtain ⟨hone, hall⟩ := (registration_of_days 30).2 [] settings haccepted rfl
  obtain ⟨-, hnew, -⟩ := (hone .empty " mrn-c" now hnow).2 (by decide)
  obtain ⟨after, hresult, hfind⟩ := hnew (Ledger.find?_empty _)
  refine ⟨haccepted, hall.mpr (by decide), after, hresult, ?_⟩
  rw [hfind, hid]
  rfl

-- A hundred million days may be set, and they lead out of the calendar.
theorem not_forall_registration :
    ¬∀ env settings, Settings.Accepted env settings → ∀ ledger reference (now : Instant),
      now.IsReading → ∃ result, watch settings.polling {} now ledger reference = .ok result := by
  intro hall
  have haccepted := @Settings.accepted_usual 100000000 (by decide) (by decide)
  have hnow : Instant.IsReading ⟨1762513200, 0⟩ := ⟨by decide, by decide, by decide⟩
  obtain ⟨result, hresult⟩ := hall _ _ haccepted .empty "M" ⟨1762513200, 0⟩ hnow
  rw [watch_of_isReading haccepted.expiryDays_pos hnow, if_neg (by decide)] at hresult
  cases hresult

end Registration

end DeclarationWatch
