import DeclarationWatch.Api.Credentials
import DeclarationWatch.Proofs.Net.Base64

namespace DeclarationWatch.Api.Credentials

open Text (AllBlank Tight)

theorem stripFront?_eq_some_iff {front s rest : List Char} :
    stripFront? front s = some rest ↔ s = front ++ rest := by
  induction front generalizing s with
  | nil => simp [stripFront?, eq_comm]
  | cons a front ih =>
      cases s with
      | nil => simp [stripFront?]
      | cons b s =>
          by_cases h : a = b
          · simp [stripFront?, h, ih]
          · simp [stripFront?, h, Ne.symm h]

-- The first colon divides. A password may have more of them.
theorem splitColon?_eq_some_iff {s username password : List Char} :
    splitColon? s = some (username, password) ↔
      s = username ++ ':' :: password ∧ ':' ∉ username := by
  unfold splitColon?
  constructor
  · intro h
    split at h
    · cases h
    · rename_i first rest hdrop
      cases h
      have hcolon := List.head?_dropWhile_not (· != ':') s
      rw [hdrop] at hcolon
      obtain rfl : first = ':' := by simpa using hcolon
      refine ⟨?_, fun hmem => by simpa using List.mem_takeWhile_imp hmem⟩
      rw [← hdrop, List.takeWhile_append_dropWhile]
  · rintro ⟨rfl, hname⟩
    have hgoes : ∀ c ∈ username, (c != ':') = true := by
      intro c hc
      rw [bne_iff_ne]
      rintro rfl
      exact hname hc
    rw [List.dropWhile_append_of_pos hgoes, List.takeWhile_append_of_pos hgoes]
    simp

-- A field with a name and a password is the scheme, and the digits of both with blanks around them.
theorem ofField?_eq_some_iff {field username password : List Char} :
    ofField? field = some (username, password) ↔ ':' ∉ username ∧
      ∃ before after, AllBlank before ∧ AllBlank after ∧ field = scheme ++ (before ++
        Net.Base64.encode (Text.Utf8.encode (username ++ ':' :: password)) ++ after) := by
  have htight : ∀ bytes, Tight (Net.Base64.encode bytes) := fun bytes =>
    Tight.of_forall fun c hc => Net.Base64.isBlank_of_mem_encode hc
  simp only [ofField?, Option.bind_eq_bind, Option.bind_eq_some_iff, stripFront?_eq_some_iff,
    Net.Base64.decode?_eq_some_iff, Text.Utf8.decode?_eq_some_iff, splitColon?_eq_some_iff,
    Text.trim_eq_iff]
  constructor
  · rintro ⟨encoded, rfl, bytes, ⟨-, before, after, hbefore, hafter, rfl⟩, text, rfl, rfl, hname⟩
    exact ⟨hname, before, after, hbefore, hafter, rfl⟩
  · rintro ⟨hname, before, after, hbefore, hafter, rfl⟩
    exact ⟨_, rfl, _, ⟨htight _, before, after, hbefore, hafter, rfl⟩, _, rfl, rfl, hname⟩

-- The fields that are accepted: one for each way to put blanks around the digits, if the name can
-- be told from the password, and none otherwise.
theorem accepts_exactly (credentials : Credentials) (field : List Char) :
    (':' ∉ credentials.username.toList → (credentials.accepts field = true ↔
      ∃ before after, AllBlank before ∧ AllBlank after ∧ field = "Basic ".toList ++ (before ++
        Net.Base64.encode (Text.utf8 (credentials.username ++ ":" ++ credentials.password)) ++
        after))) ∧
      (':' ∈ credentials.username.toList → credentials.accepts field = false) := by
  have hsecret : Text.utf8 (credentials.username ++ ":" ++ credentials.password) =
      Text.Utf8.encode (credentials.username.toList ++ ':' :: credentials.password.toList) := by
    simp [Text.utf8]
  have haccepts : credentials.accepts field = true ↔
      ofField? field = some (credentials.username.toList, credentials.password.toList) := by
    rw [accepts, beq_iff_eq]
  rw [haccepts, ← Bool.not_eq_true, haccepts, ofField?_eq_some_iff, hsecret]
  exact ⟨fun hname => and_iff_right hname, fun hname h => h.1 hname⟩

-- A password with a colon, and blanks of several kinds around the digits.
theorem accepts_exactly_colons :
    let credentials : Credentials := ⟨"dev", "a:b"⟩
    ':' ∉ credentials.username.toList ∧
      credentials.accepts "Basic \t ZGV2OmE6Yg==\u3000".toList = true ∧
      (⟨"de:v", "a"⟩ : Credentials).accepts "Basic ZGU6djph".toList = false := by
  intro credentials
  have hname : ':' ∉ credentials.username.toList := by decide
  have hother : ':' ∈ (⟨"de:v", "a"⟩ : Credentials).username.toList := by decide
  refine ⟨hname, ?_, (accepts_exactly _ _).2 hother⟩
  exact ((accepts_exactly credentials _).1 hname).mpr
    ⟨['\t', ' '], ['\u3000'], by decide, by decide, by decide⟩

end DeclarationWatch.Api.Credentials
