import DeclarationWatch.Net.Url
import DeclarationWatch.Settings.Model

namespace DeclarationWatch.Settings

inductive Rule where
  | range (low : Int) (high : Option Int)
  | filled
  | url
  deriving Repr, DecidableEq

structure Violation where
  path : String
  rule : Rule
  deriving Repr, DecidableEq

def Rule.code : Rule → String
  | .range _ _ => "range"
  | .filled => "length"
  | .url => "url"

def Violation.text (violation : Violation) : String := violation.path ++ ": " ++ violation.rule.code

def isWithin (low : Int) (high : Option Int) (n : Int) : Bool := low ≤ n && high.all (n ≤ ·)

def checkNumber (path : String) (low : Int) (high : Option Int) (n : Int) : List Violation :=
  if isWithin low high n then [] else [⟨path, .range low high⟩]

def checkFilled (path value : String) : List Violation :=
  if value.isEmpty then [⟨path, .filled⟩] else []

def checkUrl (path value : String) : List Violation :=
  if (Net.Url.ofText? value).isSome then [] else [⟨path, .url⟩]

def violations (settings : Settings) : List Violation :=
  checkUrl "gvms.base_url" settings.movement.baseUrl ++
    checkNumber "gvms.timeout_secs" 1 none settings.movement.timeoutSeconds ++
    checkNumber "jobs_stop_timeout_secs" 1 none settings.stopTimeoutSeconds ++
    checkNumber "polling.expiry_days" 1 none settings.polling.expiryDays ++
    checkNumber "polling.max_poll_size" 1 (some 10000) settings.polling.maxPollSize ++
    checkFilled "polling.terminal_state" settings.polling.terminalState ++
    checkNumber "publisher.batch_ceiling" 1 (some 10) settings.publisher.config.batchCeiling ++
    checkNumber "publisher.max_attempts" 1 (some 20) settings.publisher.config.maxAttempts ++
    checkNumber "publisher.timeout_secs" 1 none settings.publisher.timeoutSeconds

end DeclarationWatch.Settings
