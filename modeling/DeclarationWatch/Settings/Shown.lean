import DeclarationWatch.Settings.Model
import DeclarationWatch.Text.Quoted

namespace DeclarationWatch

-- Settings as they appear in logs. Secrets are not shown.
def redacted : String := "[REDACTED]"

def shownRecord (name : String) (fields : List (String × String)) : String :=
  let shown := fields.map fun field => field.1 ++ ": " ++ field.2
  name ++ " \x7b " ++ ", ".intercalate shown ++ " \x7d"

def shownOption : Option String → String
  | none => "None"
  | some text => "Some(" ++ Text.quoted text ++ ")"

def MovementSettings.debugText (settings : MovementSettings) : String :=
  shownRecord "GvmsConfig" [("base_url", Text.quoted settings.baseUrl),
    ("client_id", Text.quoted settings.clientId), ("client_secret", Text.quoted redacted),
    ("timeout_secs", toString settings.timeoutSeconds)]

def Features.debugText (features : Features) : String :=
  shownRecord "FeatureFlags" [("enable_gmr_polling", toString features.polling),
    ("enable_dev_endpoints", toString features.devEndpoints),
    ("dev_username", shownOption features.devUsername),
    ("dev_password", shownOption (features.devPassword.map fun _ => redacted))]

end DeclarationWatch
