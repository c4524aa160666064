import DstTestNode.Nim.PeerDetails

open nim

namespace nim_test_node.service_discovery.env

inductive NodeRole where
  | role_bootstrap
  | role_advertiser
  | role_discoverer
  | role_hybrid
  deriving DecidableEq, Repr

/-- `$` of a role. -/
def NodeRole.name : NodeRole → String
  | .role_bootstrap => "RoleBootstrap"
  | .role_advertiser => "RoleAdvertiser"
  | .role_discoverer => "RoleDiscoverer"
  | .role_hybrid => "RoleHybrid"

def NodeRole.names : List (String × NodeRole) :=
  [NodeRole.role_bootstrap, .role_advertiser, .role_discoverer, .role_hybrid].map
    fun role => (role.name, role)

/-- Intervals are the values of chronos durations. -/
structure NodeConfig where
  node_index : Int
  muxer : String
  listen_port : UInt16
  listen_address : String
  role : NodeRole
  bootstrap_service : String
  advertise_services : List String
  discover_services : List String
  service_data : List UInt8
  lookup_interval : Int
  startup_jitter_ms : Int
  health_port : UInt16
  safety_param : Float
  ip_sim_coefficient : Float
  advert_expiry : Int
  xpr_publishing : Bool
  max_connections : Int
  max_bootstraps : Int
  deriving DecidableEq, Repr

/-- A part of `getNodeConfig`, which can raise, and can return an error. -/
abbrev Returning : Type → Type := ExceptT String (Except NimError)

/-- `valueOr: return err(error)`. -/
def value_or {α : Type} (result : Except String α) : Returning α := ExceptT.mk (.ok result)

def parse_int_env (environment : Environment) (name default : String) : Except String Int :=
  let raw := get_env environment name default
  (parse_int raw).mapError fun _ => "Invalid integer for " ++ name ++ ": " ++ raw

def parse_float_env (environment : Environment) (name default : String) : Except String Float :=
  let raw := get_env environment name default
  (parse_float raw).mapError fun _ => "Invalid float for " ++ name ++ ": " ++ raw

def parse_bool_env (environment : Environment) (name default : String) : Except String Bool :=
  let raw := to_lower_ascii (get_env environment name default)
  if raw ∈ ["1", "true", "yes", "y", "on"] then .ok true
  else if raw ∈ ["0", "false", "no", "n", "off"] then .ok false
  else .error ("Invalid boolean for " ++ name ++ ": " ++ raw)

def parse_service_list (raw : String) : List String :=
  ((split raw ',').map strip).filter fun service => 0 < service.length

def muxers : List String := ["quic", "yamux", "mplex"]

/-- The check of the muxer. -/
def known_muxer (environment : Environment) : Except String String :=
  let muxer := to_lower_ascii (get_env environment "MUXER" "yamux")
  if muxer ∉ muxers then .error ("Unknown muxer type: " ++ muxer) else .ok muxer

/-- The check of a port. -/
def port_env (environment : Environment) (name default : String) : Except String Int := do
  let port ← parse_int_env environment name default
  if port ≤ 0 ∨ port > 65535 then .error (name ++ " out of range: " ++ toString port)
  else .ok port

/-- The check of a number of seconds. -/
def positive_env (environment : Environment) (name default : String) : Except String Int := do
  let value ← parse_int_env environment name default
  if value ≤ 0 then .error (name ++ " must be > 0") else .ok value

/-- The check of a coefficient. -/
def nonnegative_env (environment : Environment) (name default : String) :
    Except String Float := do
  let value ← parse_float_env environment name default
  if value < 0.0 then .error (name ++ " must be >= 0") else .ok value

/-- The role, whose errors are all of one text. -/
def role_env (environment : Environment) : Except String NodeRole :=
  (parse_enum NodeRole.names (get_env environment "NODE_ROLE" "RoleBootstrap")).mapError fun _ =>
    "Unknown NODE_ROLE. Expected one of: RoleBootstrap, RoleAdvertiser, RoleDiscoverer, RoleHybrid"

/-- The check of a list of services that some roles require. -/
def services_env (environment : Environment) (name : String) (required : List NodeRole)
    (role : NodeRole) : Except String (List String) :=
  let services := parse_service_list (get_env environment name "")
  if role ∈ required ∧ services.length = 0 then .error (name ++ " is required for " ++ role.name)
  else .ok services

/-- The jitter before its check, the only product of two variables. -/
def jitter_env (environment : Environment) (node_index : Int) : Returning Int :=
  if exists_env environment "STARTUP_JITTER_MS" then
    value_or (parse_int_env environment "STARTUP_JITTER_MS" "0")
  else do
    let step ← value_or (parse_int_env environment "STARTUP_JITTER_STEP_MS" "10")
    int_mul node_index step

/-- The local variables of `getNodeConfig` that are read from the environment. -/
structure Settings where
  muxer : String
  listen_port : Int
  role : NodeRole
  health_port : Int
  startup_jitter_ms : Int
  lookup_interval_seconds : Int
  safety_param : Float
  ip_sim_coefficient : Float
  advert_expiry_seconds : Int
  xpr_publishing : Bool
  advertise_services : List String
  discover_services : List String
  max_connections : Int
  max_bootstraps : Int
  deriving DecidableEq, Repr

/-- The part of `getNodeConfig` that reads and checks the variables. -/
def read_settings (environment : Environment) (hostname : String) : Returning Settings := do
  let node_index := hostname_id hostname
  let muxer ← value_or (known_muxer environment)
  let listen_port ← value_or (port_env environment "PORT" "5000")
  let role ← value_or (role_env environment)
  let health_port ← value_or (port_env environment "HEALTH_PORT" "8645")
  let startup_jitter_ms ← jitter_env environment node_index
  value_or (if startup_jitter_ms < 0 then .error "STARTUP_JITTER_MS must be >= 0" else .ok ())
  let lookup_interval_seconds ← value_or (positive_env environment "LOOKUP_INTERVAL_SECONDS" "15")
  let safety_param ← value_or (nonnegative_env environment "SD_SAFETY_PARAM" "0.0")
  let ip_sim_coefficient ← value_or (nonnegative_env environment "SD_IP_SIM_COEFF" "0.0")
  let advert_expiry_seconds ← value_or (positive_env environment "SD_ADVERT_EXPIRY_SECONDS" "900")
  let xpr_publishing ← value_or (parse_bool_env environment "SD_XPR_PUBLISHING" "true")
  let advertise_services ← value_or
    (services_env environment "ADVERTISE_SERVICES" [.role_advertiser, .role_hybrid] role)
  let discover_services ← value_or
    (services_env environment "DISCOVER_SERVICES" [.role_discoverer, .role_hybrid] role)
  let max_connections ← value_or (parse_int_env environment "MAXCONNECTIONS" "200")
  let max_bootstraps ← value_or (parse_int_env environment "MAXBOOTSTRAPS" "1")
  return {
    muxer, listen_port, role, health_port, startup_jitter_ms, lookup_interval_seconds,
    safety_param, ip_sim_coefficient, advert_expiry_seconds, xpr_publishing, advertise_services,
    discover_services, max_connections, max_bootstraps }

def listen_address (muxer : String) (listen_port : Int) : String :=
  if muxer = "quic" then "/ip4/0.0.0.0/udp/" ++ toString listen_port ++ "/quic-v1"
  else "/ip4/0.0.0.0/tcp/" ++ toString listen_port

/-- `Port` of a number in range. -/
def port (number : Int) : UInt16 := UInt16.ofNat number.toNat

/-- The configuration of a host, with its two intervals. -/
def node_config (environment : Environment) (hostname : String) (settings : Settings)
    (lookup_interval advert_expiry : Int) : NodeConfig where
  node_index := hostname_id hostname
  muxer := settings.muxer
  listen_port := port settings.listen_port
  listen_address := listen_address settings.muxer settings.listen_port
  role := settings.role
  bootstrap_service := get_env environment "SERVICE" "service-discovery:5000"
  advertise_services := settings.advertise_services
  discover_services := settings.discover_services
  service_data := (get_env environment "SERVICE_DATA" "").toUTF8.toList
  lookup_interval := lookup_interval
  startup_jitter_ms := settings.startup_jitter_ms
  health_port := port settings.health_port
  safety_param := settings.safety_param
  ip_sim_coefficient := settings.ip_sim_coefficient
  advert_expiry := advert_expiry
  xpr_publishing := settings.xpr_publishing
  max_connections := settings.max_connections
  max_bootstraps := settings.max_bootstraps

/-- `getNodeConfig` on a host, with what `seconds` of chronos gives. -/
def get_node_config (seconds : Int → Except NimError Int) (environment : Environment)
    (hostname : String) : Except NimError (Except String NodeConfig) := ExceptT.run do
  let settings ← read_settings environment hostname
  let lookup_interval ← seconds settings.lookup_interval_seconds
  let advert_expiry ← seconds settings.advert_expiry_seconds
  return node_config environment hostname settings lookup_interval advert_expiry

variable {α β : Type}

@[simp] theorem run_value_or (result : Except String α) :
    (value_or result).run = .ok result := rfl

@[simp] theorem run_returned (a : α) : (pure a : Returning α).run = .ok (.ok a) := rfl

theorem run_bind_eq_ok {step : Returning α} {rest : α → Returning β} {b : β} :
    (step >>= rest).run = .ok (.ok b) ↔
      ∃ a, step.run = .ok (.ok a) ∧ (rest a).run = .ok (.ok b) := by
  rw [ExceptT.run_bind]
  rcases step.run with _ | _ | a <;> simp [bind, Except.bind, pure, Except.pure]

theorem run_bind_eq_error {step : Returning α} {rest : α → Returning β} {error : NimError} :
    (step >>= rest).run = .error error ↔
      step.run = .error error ∨ ∃ a, step.run = .ok (.ok a) ∧ (rest a).run = .error error := by
  rw [ExceptT.run_bind]
  rcases step.run with _ | _ | a <;> simp [bind, Except.bind, pure, Except.pure]

theorem run_lift_eq_ok {result : Except NimError α} {a : α} :
    (liftM result : Returning α).run = .ok (.ok a) ↔ result = .ok a := by
  show Except.map Except.ok result = _ ↔ _
  cases result <;> simp [Except.map]

theorem run_lift_eq_error {result : Except NimError α} {error : NimError} :
    (liftM result : Returning α).run = .error error ↔ result = .error error := by
  show Except.map Except.ok result = _ ↔ _
  cases result <;> simp [Except.map]

theorem known_muxer_eq_ok {environment : Environment} {muxer : String}
    (hmuxer : known_muxer environment = .ok muxer) : muxer ∈ muxers := by
  rw [known_muxer] at hmuxer
  split at hmuxer
  · cases hmuxer
  · next hknown =>
    cases hmuxer
    exact not_not.mp hknown

theorem check_eq_ok {result : Except String α} {bad : α → Prop} [DecidablePred bad]
    {message : α → String} {a : α} :
    (do let value ← result; if bad value then .error (message value) else .ok value) = .ok a ↔
      result = .ok a ∧ ¬ bad a := by
  cases result with
  | error error => simp [bind, Except.bind]
  | ok value =>
    simp only [bind, Except.bind]
    split
    · next hbad =>
      refine iff_of_false (by simp) ?_
      rintro ⟨hvalue, hgood⟩
      cases hvalue
      exact hgood hbad
    · next hgood =>
      refine (and_iff_left_of_imp ?_).symm
      rintro hvalue
      cases hvalue
      exact hgood

theorem port_env_eq_ok {environment : Environment} {name default : String} {port : Int}
    (hport : port_env environment name default = .ok port) : 1 ≤ port ∧ port ≤ 65535 := by
  have hgood := (check_eq_ok.mp hport).2
  omega

theorem positive_env_eq_ok {environment : Environment} {name default : String} {value : Int}
    (hvalue : positive_env environment name default = .ok value) : 0 < value := by
  have hgood := (check_eq_ok.mp hvalue).2
  omega

/-- Services are not empty, and have no blanks around them. -/
theorem mem_parse_service_list {raw service : String}
    (hservice : service ∈ parse_service_list raw) : service ≠ "" ∧ strip service = service := by
  obtain ⟨hmem, hlength⟩ := List.mem_filter.mp hservice
  obtain ⟨part, -, rfl⟩ := List.mem_map.mp hmem
  refine ⟨fun hempty => ?_, strip_strip part⟩
  simp [hempty] at hlength

theorem services_env_eq_ok {environment : Environment} {name : String} {required : List NodeRole}
    {role : NodeRole} {services : List String}
    (hservices : services_env environment name required role = .ok services) :
    services = parse_service_list (get_env environment name "") ∧
      (role ∈ required → services ≠ []) := by
  rw [services_env] at hservices
  split at hservices
  · cases hservices
  · next hpresent =>
    cases hservices
    exact ⟨rfl, fun hrole hempty => hpresent ⟨hrole, List.length_eq_zero_iff.mpr hempty⟩⟩

theorem int_mul_eq_error {left right : Int} {error : NimError} :
    int_mul left right = .error error ↔
      error = .overflow_defect ∧ ¬ (int_low ≤ left * right ∧ left * right ≤ int_high) := by
  rw [int_mul]
  split
  · next hfits => simp [hfits]
  · next hfits =>
    rw [Except.error.injEq, and_iff_left hfits]
    exact eq_comm

/-- The jitter step is read, and its product with the index is no `int`. -/
structure StepOverflows (environment : Environment) (node_index : Int) : Prop where
  unset : exists_env environment "STARTUP_JITTER_MS" = false
  overflows : ∃ step, parse_int_env environment "STARTUP_JITTER_STEP_MS" "10" = .ok step ∧
    ¬ (int_low ≤ node_index * step ∧ node_index * step ≤ int_high)

theorem jitter_env_eq_error {environment : Environment} {node_index : Int} {error : NimError} :
    (jitter_env environment node_index).run = .error error ↔
      error = .overflow_defect ∧ StepOverflows environment node_index := by
  rw [jitter_env]
  split
  · next hset =>
    refine iff_of_false (by simp) fun hoverflow => ?_
    rw [hoverflow.2.unset] at hset
    cases hset
  · next hset =>
    simp only [run_bind_eq_error, run_value_or, reduceCtorEq, false_or, run_lift_eq_error,
      int_mul_eq_error, Except.ok.injEq]
    constructor
    · rintro ⟨step, hstep, herror, hproduct⟩
      exact ⟨herror, by simpa using hset, step, hstep, hproduct⟩
    · rintro ⟨herror, -, step, hstep, hproduct⟩
      exact ⟨step, hstep, herror, hproduct⟩

end nim_test_node.service_discovery.env
