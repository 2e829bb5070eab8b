import DeclarationWatch.Settings.Layer
import DeclarationWatch.Settings.Model

namespace DeclarationWatch.Settings

-- What holds where nothing is set. An endpoint and the development credentials have no default.
def defaults : Layer := [
  (members ["database_url"], .text "postgresql://localhost/gmr_finder"),
  (members ["bind_address"], .text "0.0.0.0:8080"),
  (members ["store"], .text "postgres"),
  (members ["polling", "max_poll_size"], .integer 500),
  (members ["polling", "expiry_days"], .integer 30),
  (members ["polling", "terminal_state"], .text "COMPLETED"),
  (members ["gvms", "base_url"], .text "https://test-api.service.hmrc.gov.uk"),
  (members ["gvms", "client_id"], .text ""),
  (members ["gvms", "client_secret"], .text ""),
  (members ["gvms", "timeout_secs"], .integer 30),
  (members ["publisher", "max_attempts"], .integer 4),
  (members ["publisher", "backoff_ms"], .integer 1000),
  (members ["publisher", "batch_ceiling"], .integer 10),
  (members ["publisher", "timeout_secs"], .integer 30),
  (members ["jobs", pollJob], .text "0 */1 * * * *"),
  (members ["jobs_stop_timeout_secs"], .integer 30),
  (members ["features", "enable_gmr_polling"], .bool true),
  (members ["features", "enable_dev_endpoints"], .bool false)]

def optionalPaths : List (List String) :=
  [["publisher", "endpoint"], ["features", "dev_username"], ["features", "dev_password"]]

def variableName (names : List String) : String :=
  "__".intercalate (names.map fun name => String.ofList (name.toList.map Char.toUpper))

-- The variables that settings are read from, as they are usually spelled.
def variableNames : List String :=
  (defaults.map fun entry => entry.1.filterMap Step.name?).map variableName ++
    optionalPaths.map variableName

variable {α : Type}

def required (layer : Layer) (names : List String) (convert : Scalar → Option α) : Option α :=
  match layer.find (members names) with
  | .scalar value => convert value
  | _ => none

def optional (layer : Layer) (names : List String) (convert : Scalar → Option α) :
    Option (Option α) :=
  match layer.find (members names) with
  | .nothing => some none
  | .scalar value => (convert value).map some
  | .inside _ => none

def text (value : Scalar) : Option String := some value.asText

def storeNamed : String → Option StoreKind
  | "postgres" => some .postgres
  | "memory" => some .memory
  | _ => none

-- A store is given by its name, or as the name of the only setting inside.
def store? (layer : Layer) : Option StoreKind :=
  match layer.find (members ["store"]) with
  | .scalar (.text name) => storeNamed name
  | .inside entries =>
      match (entries.map fun entry => entry.1.head?).eraseDups with
      | [some (Step.member name)] => storeNamed name
      | _ => none
  | _ => none

-- Every name under the jobs is a job.
def jobs? (layer : Layer) : Option (Keyed String) :=
  match layer.find (members ["jobs"]) with
  | .inside entries => do
      let pairs ← entries.mapM fun
        | ([.member name], value) => some (name, value.asText)
        | _ => none
      some (Keyed.ofList pairs)
  | _ => none

def polling? (layer : Layer) : Option Policy := do
  some {
    maxPollSize := ← required layer ["polling", "max_poll_size"] Scalar.asInteger?
    expiryDays := ← required layer ["polling", "expiry_days"] Scalar.asInteger?
    terminalState := ← required layer ["polling", "terminal_state"] text }

def movement? (layer : Layer) : Option MovementSettings := do
  some {
    baseUrl := ← required layer ["gvms", "base_url"] text
    clientId := ← required layer ["gvms", "client_id"] text
    clientSecret := ← required layer ["gvms", "client_secret"] text
    timeoutSeconds := ← required layer ["gvms", "timeout_secs"] Scalar.asNatural? }

def publisher? (layer : Layer) : Option PublisherSettings := do
  some {
    endpoint := ← optional layer ["publisher", "endpoint"] text
    config := {
      maxAttempts := ← required layer ["publisher", "max_attempts"] Scalar.asNatural?
      backoffMillis := ← required layer ["publisher", "backoff_ms"] Scalar.asNatural?
      batchCeiling := ← required layer ["publisher", "batch_ceiling"] Scalar.asNatural? }
    timeoutSeconds := ← required layer ["publisher", "timeout_secs"] Scalar.asNatural? }

def features? (layer : Layer) : Option Features := do
  some {
    polling := ← required layer ["features", "enable_gmr_polling"] Scalar.asBool?
    devEndpoints := ← required layer ["features", "enable_dev_endpoints"] Scalar.asBool?
    devUsername := ← optional layer ["features", "dev_username"] text
    devPassword := ← optional layer ["features", "dev_password"] text }

def ofLayer? (layer : Layer) : Option Settings := do
  some {
    databaseUrl := ← required layer ["database_url"] text
    bindAddress := ← required layer ["bind_address"] text
    store := ← store? layer
    polling := ← polling? layer
    movement := ← movement? layer
    publisher := ← publisher? layer
    jobs := ← jobs? layer
    stopTimeoutSeconds := ← required layer ["jobs_stop_timeout_secs"] Scalar.asNatural?
    features := ← features? layer }

def ofEnvironment? (env : Environment) : Option Settings :=
  ofLayer? (defaults.overlaid env.entries)

end DeclarationWatch.Settings
