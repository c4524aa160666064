import DstTestNode.Nim.Bootstraps
import DstTestNode.Nim.ServiceDiscoveryEnv

open nim

namespace nim_test_node.service_discovery.env

/-- What every variable reads as, if it passes its check. -/
structure Reads (environment : Environment) (hostname : String) (settings : Settings) : Prop where
  muxer : known_muxer environment = .ok settings.muxer
  listen_port : port_env environment "PORT" "5000" = .ok settings.listen_port
  role : role_env environment = .ok settings.role
  health_port : port_env environment "HEALTH_PORT" "8645" = .ok settings.health_port
  jitter : (jitter_env environment (hostname_id hostname)).run =
    .ok (.ok settings.startup_jitter_ms)
  jitter_nonneg : 0 ≤ settings.startup_jitter_ms
  lookup_interval : positive_env environment "LOOKUP_INTERVAL_SECONDS" "15" =
    .ok settings.lookup_interval_seconds
  safety_param : nonnegative_env environment "SD_SAFETY_PARAM" "0.0" = .ok settings.safety_param
  ip_sim_coefficient : nonnegative_env environment "SD_IP_SIM_COEFF" "0.0" =
    .ok settings.ip_sim_coefficient
  advert_expiry : positive_env environment "SD_ADVERT_EXPIRY_SECONDS" "900" =
    .ok settings.advert_expiry_seconds
  xpr_publishing : parse_bool_env environment "SD_XPR_PUBLISHING" "true" =
    .ok settings.xpr_publishing
  advertise_services : services_env environment "ADVERTISE_SERVICES"
    [.role_advertiser, .role_hybrid] settings.role = .ok settings.advertise_services
  discover_services : services_env environment "DISCOVER_SERVICES"
    [.role_discoverer, .role_hybrid] settings.role = .ok settings.discover_services
  max_connections : parse_int_env environment "MAXCONNECTIONS" "200" =
    .ok settings.max_connections
  max_bootstraps : parse_int_env environment "MAXBOOTSTRAPS" "1" = .ok settings.max_bootstraps

/-- The checks before the jitter pass, and its product overflows. -/
structure JitterOverflows (environment : Environment) (hostname : String) : Prop where
  muxer : ∃ muxer, known_muxer environment = .ok muxer
  listen_port : ∃ port, port_env environment "PORT" "5000" = .ok port
  role : ∃ role, role_env environment = .ok role
  health_port : ∃ port, port_env environment "HEALTH_PORT" "8645" = .ok port
  step : StepOverflows environment (hostname_id hostname)

variable {environment : Environment} {hostname : String}

theorem nonneg_check_eq_ok {jitter : Int} {message : String} :
    (if jitter < 0 then Except.error message else .ok ()) = .ok () ↔ 0 ≤ jitter := by
  split
  · next hneg => exact iff_of_false (by simp) (not_le.mpr hneg)
  · next hnonneg => exact iff_of_true rfl (not_lt.mp hnonneg)

theorem read_settings_eq_ok {settings : Settings} :
    (read_settings environment hostname).run = .ok (.ok settings) ↔
      Reads environment hostname settings := by
  simp only [read_settings, run_bind_eq_ok, run_value_or, run_returned, Except.ok.injEq]
  constructor
  · rintro ⟨muxer, hmuxer, listen_port, hlisten, role, hrole, health_port, hhealth, jitter,
      hjitter, _, hnonneg, lookup, hlookup, safety, hsafety, ip_sim, hip_sim, expiry, hexpiry,
      xpr, hxpr, advertise, hadvertise, discover, hdiscover, connections, hconnections,
      bootstraps, hbootstraps, hsettings⟩
    cases hsettings
    exact ⟨hmuxer, hlisten, hrole, hhealth, hjitter, nonneg_check_eq_ok.mp hnonneg, hlookup,
      hsafety, hip_sim, hexpiry, hxpr, hadvertise, hdiscover, hconnections, hbootstraps⟩
  · intro hreads
    exact ⟨_, hreads.muxer, _, hreads.listen_port, _, hreads.role, _, hreads.health_port,
      _, hreads.jitter, _, nonneg_check_eq_ok.mpr hreads.jitter_nonneg, _,
      hreads.lookup_interval, _, hreads.safety_param, _, hreads.ip_sim_coefficient, _,
      hreads.advert_expiry, _, hreads.xpr_publishing, _, hreads.advertise_services, _,
      hreads.discover_services, _, hreads.max_connections, _, hreads.max_bootstraps, rfl⟩

theorem read_settings_eq_error {error : NimError} :
    (read_settings environment hostname).run = .error error ↔
      error = .overflow_defect ∧ JitterOverflows environment hostname := by
  simp only [read_settings, run_bind_eq_error, run_value_or, run_returned, reduceCtorEq, false_or,
    Except.ok.injEq, and_false, exists_false, or_false, jitter_env_eq_error]
  constructor
  · rintro ⟨muxer, hmuxer, listen_port, hlisten, role, hrole, health_port, hhealth, herror, hstep⟩
    exact ⟨herror, ⟨muxer, hmuxer⟩, ⟨listen_port, hlisten⟩, ⟨role, hrole⟩,
      ⟨health_port, hhealth⟩, hstep⟩
  · rintro ⟨herror, ⟨muxer, hmuxer⟩, ⟨listen_port, hlisten⟩, ⟨role, hrole⟩,
      ⟨health_port, hhealth⟩, hstep⟩
    exact ⟨muxer, hmuxer, listen_port, hlisten, role, hrole, health_port, hhealth, herror, hstep⟩

/-- What the consumers of a configuration require of it. -/
structure NodeConfig.Usable (config : NodeConfig) : Prop where
  listen_port : 1 ≤ config.listen_port.toNat ∧ config.listen_port.toNat ≤ 65535
  health_port : 1 ≤ config.health_port.toNat ∧ config.health_port.toNat ≤ 65535
  startup_jitter_ms : 0 ≤ config.startup_jitter_ms
  lookup_interval : 0 < config.lookup_interval
  advert_expiry : 0 < config.advert_expiry
  muxer : config.muxer ∈ ["quic", "yamux", "mplex"]
  advertise_services : config.role ∈ [.role_advertiser, .role_hybrid] →
    config.advertise_services ≠ []
  discover_services : config.role ∈ [.role_discoverer, .role_hybrid] →
    config.discover_services ≠ []
  services : ∀ service ∈ config.advertise_services ++ config.discover_services,
    service ≠ "" ∧ strip service = service
  max_bootstraps : config.role ≠ .role_bootstrap → 0 < config.max_bootstraps

/-- `seconds` of chronos counts nanoseconds in an `int64`. -/
def CountsNanoseconds (seconds : Int → Except NimError Int) : Prop :=
  ∀ value, seconds value = int_mul value 1000000000

variable {seconds : Int → Except NimError Int}

theorem get_node_config_eq_ok {config : NodeConfig} :
    get_node_config seconds environment hostname = .ok (.ok config) ↔
      ∃ settings, Reads environment hostname settings ∧
        ∃ lookup_interval, seconds settings.lookup_interval_seconds = .ok lookup_interval ∧
        ∃ advert_expiry, seconds settings.advert_expiry_seconds = .ok advert_expiry ∧
          config = node_config environment hostname settings lookup_interval advert_expiry := by
  simp only [get_node_config, run_bind_eq_ok, read_settings_eq_ok, run_lift_eq_ok, run_returned,
    Except.ok.injEq, eq_comm (a := config)]

theorem get_node_config_eq_error {error : NimError} :
    get_node_config seconds environment hostname = .error error ↔
      (error = .overflow_defect ∧ JitterOverflows environment hostname) ∨
      ∃ settings, Reads environment hostname settings ∧
        (seconds settings.lookup_interval_seconds = .error error ∨
          ∃ lookup_interval, seconds settings.lookup_interval_seconds = .ok lookup_interval ∧
            seconds settings.advert_expiry_seconds = .error error) := by
  simp only [get_node_config, run_bind_eq_error, read_settings_eq_ok, read_settings_eq_error,
    run_lift_eq_ok, run_lift_eq_error, run_returned, reduceCtorEq, and_false, exists_false,
    or_false]

/-- A number of seconds is positive in nanoseconds too, unless it overflows. -/
theorem CountsNanoseconds.eq_ok (hseconds : CountsNanoseconds seconds) {value duration : Int}
    (hpositive : 0 < value) (hduration : seconds value = .ok duration) : 0 < duration := by
  rw [hseconds, int_mul] at hduration
  split at hduration
  · cases hduration
    omega
  · cases hduration

theorem CountsNanoseconds.exists_ok_iff (hseconds : CountsNanoseconds seconds) {value : Int}
    (hpositive : 0 < value) :
    (∃ duration, seconds value = .ok duration) ↔ value * 1000000000 ≤ int_high := by
  rw [hseconds, int_mul]
  split
  · next hfits => exact iff_of_true ⟨_, rfl⟩ hfits.2
  · next hover =>
    refine iff_of_false (by simp) fun hhigh => hover ⟨?_, hhigh⟩
    simp only [int_low]
    omega

theorem CountsNanoseconds.intervals_ok_iff (hseconds : CountsNanoseconds seconds)
    {settings : Settings} (hreads : Reads environment hostname settings) :
    ((∃ lookup_interval, seconds settings.lookup_interval_seconds = .ok lookup_interval) ∧
      ∃ advert_expiry, seconds settings.advert_expiry_seconds = .ok advert_expiry) ↔
    settings.lookup_interval_seconds * 1000000000 ≤ int_high ∧
      settings.advert_expiry_seconds * 1000000000 ≤ int_high :=
  and_congr (hseconds.exists_ok_iff (positive_env_eq_ok hreads.lookup_interval))
    (hseconds.exists_ok_iff (positive_env_eq_ok hreads.advert_expiry))

theorem toNat_port {number : Int} (hlow : 1 ≤ number) (hhigh : number ≤ 65535) :
    1 ≤ (port number).toNat ∧ (port number).toNat ≤ 65535 := by
  rw [port, UInt16.toNat_ofNat_of_lt' (by simp [UInt16.size]; omega)]
  omega

/-- The checks leave only the number of bootstraps open. -/
theorem usable_node_config (hseconds : CountsNanoseconds seconds) {settings : Settings}
    (hreads : Reads environment hostname settings) {lookup_interval advert_expiry : Int}
    (hlookup : seconds settings.lookup_interval_seconds = .ok lookup_interval)
    (hexpiry : seconds settings.advert_expiry_seconds = .ok advert_expiry) :
    (node_config environment hostname settings lookup_interval advert_expiry).Usable ↔
      (settings.role ≠ .role_bootstrap → 0 < settings.max_bootstraps) := by
  refine ⟨fun husable => husable.max_bootstraps, fun hbootstraps => ?_⟩
  obtain ⟨hlisten_low, hlisten_high⟩ := port_env_eq_ok hreads.listen_port
  obtain ⟨hhealth_low, hhealth_high⟩ := port_env_eq_ok hreads.health_port
  obtain ⟨hadvertise, hadvertise_role⟩ := services_env_eq_ok hreads.advertise_services
  obtain ⟨hdiscover, hdiscover_role⟩ := services_env_eq_ok hreads.discover_services
  refine
    { listen_port := toNat_port hlisten_low hlisten_high
      health_port := toNat_port hhealth_low hhealth_high
      startup_jitter_ms := hreads.jitter_nonneg
      lookup_interval := hseconds.eq_ok (positive_env_eq_ok hreads.lookup_interval) hlookup
      advert_expiry := hseconds.eq_ok (positive_env_eq_ok hreads.advert_expiry) hexpiry
      muxer := known_muxer_eq_ok hreads.muxer
      advertise_services := hadvertise_role
      discover_services := hdiscover_role
      services := fun service hservice => ?_
      max_bootstraps := hbootstraps }
  simp only [node_config, hadvertise, hdiscover] at hservice
  rcases List.mem_append.mp hservice with hmem | hmem
  · exact mem_parse_service_list hmem
  · exact mem_parse_service_list hmem

/-- `getNodeConfig` returns when neither the jitter nor an interval overflows. -/
theorem get_node_config_returns_iff (hseconds : CountsNanoseconds seconds) :
    (∃ result, get_node_config seconds environment hostname = .ok result) ↔
      ¬ JitterOverflows environment hostname ∧
        ∀ settings, Reads environment hostname settings →
          settings.lookup_interval_seconds * 1000000000 ≤ int_high ∧
          settings.advert_expiry_seconds * 1000000000 ≤ int_high := by
  constructor
  · rintro ⟨result, hresult⟩
    have hnever : ∀ error, get_node_config seconds environment hostname ≠ .error error :=
      fun error herror => nomatch hresult.symm.trans herror
    simp only [ne_eq, get_node_config_eq_error, not_or, not_exists, not_and] at hnever
    refine ⟨(hnever .overflow_defect).1 rfl, fun settings hreads => ?_⟩
    rw [← hseconds.intervals_ok_iff hreads]
    cases hlookup : seconds settings.lookup_interval_seconds with
    | error error => exact absurd hlookup ((hnever error).2 settings hreads).1
    | ok lookup_interval =>
      cases hexpiry : seconds settings.advert_expiry_seconds with
      | error error =>
        exact absurd hexpiry (((hnever error).2 settings hreads).2 lookup_interval hlookup)
      | ok advert_expiry => exact ⟨⟨lookup_interval, rfl⟩, ⟨advert_expiry, rfl⟩⟩
  · rintro ⟨hjitter, hfits⟩
    cases hresult : get_node_config seconds environment hostname with
    | ok result => exact ⟨result, rfl⟩
    | error error =>
      rcases get_node_config_eq_error.mp hresult with ⟨-, hover⟩ | ⟨settings, hreads, hraised⟩
      · exact absurd hover hjitter
      · obtain ⟨⟨_, hlookup⟩, ⟨_, hexpiry⟩⟩ :=
          (hseconds.intervals_ok_iff hreads).mpr (hfits settings hreads)
        rcases hraised with hraised | ⟨_, -, hraised⟩
        · cases hlookup.symm.trans hraised
        · cases hexpiry.symm.trans hraised

/-- `getNodeConfig` neither raises nor accepts a configuration that is not
usable, exactly when the jitter fits, both intervals fit in nanoseconds, and a
node that needs bootstraps may connect to one. -/
theorem accepted_usable (hseconds : CountsNanoseconds seconds) (environment : Environment)
    (hostname : String) :
    ((∃ result, get_node_config seconds environment hostname = .ok result) ∧
      ∀ config, get_node_config seconds environment hostname = .ok (.ok config) →
        config.Usable) ↔
    ¬ JitterOverflows environment hostname ∧
      ∀ settings, Reads environment hostname settings →
        settings.lookup_interval_seconds * 1000000000 ≤ int_high ∧
        settings.advert_expiry_seconds * 1000000000 ≤ int_high ∧
        (settings.role ≠ .role_bootstrap → 0 < settings.max_bootstraps) := by
  rw [get_node_config_returns_iff hseconds]
  constructor
  · rintro ⟨⟨hjitter, hfits⟩, husable⟩
    refine ⟨hjitter, fun settings hreads => ?_⟩
    obtain ⟨⟨_, hlookup⟩, ⟨_, hexpiry⟩⟩ :=
      (hseconds.intervals_ok_iff hreads).mpr (hfits settings hreads)
    have hconfig := husable _
      (get_node_config_eq_ok.mpr ⟨settings, hreads, _, hlookup, _, hexpiry, rfl⟩)
    exact ⟨(hfits settings hreads).1, (hfits settings hreads).2,
      (usable_node_config hseconds hreads hlookup hexpiry).mp hconfig⟩
  · rintro ⟨hjitter, hsettings⟩
    refine ⟨⟨hjitter, fun settings hreads => ?_⟩, fun config hconfig => ?_⟩
    · obtain ⟨hlookup, hexpiry, -⟩ := hsettings settings hreads
      exact ⟨hlookup, hexpiry⟩
    · obtain ⟨settings, hreads, lookup_interval, hlookup, advert_expiry, hexpiry, rfl⟩ :=
        get_node_config_eq_ok.mp hconfig
      exact (usable_node_config hseconds hreads hlookup hexpiry).mpr (hsettings settings hreads).2.2

/-- The variables read in one way only. -/
theorem Reads.unique {settings settings' : Settings} (hreads : Reads environment hostname settings)
    (hreads' : Reads environment hostname settings') : settings = settings' := by
  have hrun := (read_settings_eq_ok.mpr hreads).symm.trans (read_settings_eq_ok.mpr hreads')
  simpa only [Except.ok.injEq] using hrun

theorem Reads.not_jitterOverflows {settings : Settings}
    (hreads : Reads environment hostname settings) : ¬ JitterOverflows environment hostname :=
  fun hover => nomatch (read_settings_eq_ok.mpr hreads).symm.trans
    (read_settings_eq_error.mpr ⟨rfl, hover⟩)

/-- No other variable depends on the number of bootstraps. -/
theorem Reads.insert_max_bootstraps {settings : Settings} {raw : String} {max_bootstraps : Int}
    (hreads : Reads environment hostname settings) (hraw : parse_int raw = .ok max_bootstraps) :
    Reads (environment.insert "MAXBOOTSTRAPS" raw) hostname
      { settings with max_bootstraps := max_bootstraps } := by
  have hother : ∀ {name} default, name ≠ "MAXBOOTSTRAPS" →
      get_env (environment.insert "MAXBOOTSTRAPS" raw) name default =
        get_env environment name default :=
    fun default hname => get_env_insert_of_ne environment hname raw default
  have hint : ∀ {name} default, name ≠ "MAXBOOTSTRAPS" →
      parse_int_env (environment.insert "MAXBOOTSTRAPS" raw) name default =
        parse_int_env environment name default :=
    fun default hname => by simp only [parse_int_env, hother default hname]
  have hfloat : ∀ {name} default, name ≠ "MAXBOOTSTRAPS" →
      parse_float_env (environment.insert "MAXBOOTSTRAPS" raw) name default =
        parse_float_env environment name default :=
    fun default hname => by simp only [parse_float_env, hother default hname]
  constructor
  · rw [known_muxer, hother _ (by simp)]
    exact hreads.muxer
  · rw [port_env, hint _ (by simp)]
    exact hreads.listen_port
  · rw [role_env, hother _ (by simp)]
    exact hreads.role
  · rw [port_env, hint _ (by simp)]
    exact hreads.health_port
  · rw [jitter_env, exists_env_insert_of_ne _ (by simp), hint _ (by simp), hint _ (by simp)]
    exact hreads.jitter
  · exact hreads.jitter_nonneg
  · rw [positive_env, hint _ (by simp)]
    exact hreads.lookup_interval
  · rw [nonnegative_env, hfloat _ (by simp)]
    exact hreads.safety_param
  · rw [nonnegative_env, hfloat _ (by simp)]
    exact hreads.ip_sim_coefficient
  · rw [positive_env, hint _ (by simp)]
    exact hreads.advert_expiry
  · rw [parse_bool_env, hother _ (by simp)]
    exact hreads.xpr_publishing
  · rw [services_env, hother _ (by simp)]
    exact hreads.advertise_services
  · rw [services_env, hother _ (by simp)]
    exact hreads.discover_services
  · rw [hint _ (by simp)]
    exact hreads.max_connections
  · simp only [parse_int_env, get_env_insert, hraw, Except.mapError]

/-- A discoverer of one service. -/
def discoverer : Environment :=
  ((∅ : Environment).insert "NODE_ROLE" "RoleDiscoverer").insert "DISCOVER_SERVICES" "chat"

/-- What it reads on the host `pod-1`. -/
def discoverer_settings : Settings where
  muxer := "yamux"
  listen_port := 5000
  role := .role_discoverer
  health_port := 8645
  startup_jitter_ms := 10
  lookup_interval_seconds := 15
  safety_param := 0.0
  ip_sim_coefficient := 0.0
  advert_expiry_seconds := 900
  xpr_publishing := true
  advertise_services := []
  discover_services := ["chat"]
  max_connections := 200
  max_bootstraps := 1

theorem reads_discoverer : Reads discoverer "pod-1" discoverer_settings :=
  read_settings_eq_ok.mp (by decide)

/-- With the default of one bootstrap the discoverer is usable. -/
theorem accepted_usable_discoverer : ∃ config,
    get_node_config (fun value => int_mul value 1000000000) discoverer "pod-1" =
      .ok (.ok config) ∧ config.Usable := by
  have hconfig : get_node_config (fun value => int_mul value 1000000000) discoverer "pod-1" =
      .ok (.ok _) := get_node_config_eq_ok.mpr ⟨_, reads_discoverer, _, rfl, _, rfl, rfl⟩
  have hsound := (accepted_usable (fun _ => rfl) discoverer "pod-1").mpr
    ⟨reads_discoverer.not_jitterOverflows, fun settings hreads => by
      obtain rfl := reads_discoverer.unique hreads
      simp [discoverer_settings, int_high]⟩
  exact ⟨_, hconfig, hsound.2 _ hconfig⟩

/-- With none it is accepted, and the connection it needs is refused. -/
theorem accepted_without_bootstraps : ∃ config,
    get_node_config (fun value => int_mul value 1000000000)
      (discoverer.insert "MAXBOOTSTRAPS" "0") "pod-1" = .ok (.ok config) ∧
    config.role = .role_discoverer ∧ ¬ config.Usable ∧
    ∀ (PeerId Address : Type) (addrs_res : Except String (List Address))
      (outcome : Nat → Nat → Except String PeerId),
      helpers.connect_to_bootstraps config.bootstrap_service config.max_bootstraps addrs_res
        outcome = (.error "maxConnections must be greater than 0", []) := by
  have hzero : parse_int "0" = .ok 0 := by decide
  have hreads := reads_discoverer.insert_max_bootstraps hzero
  refine ⟨_, get_node_config_eq_ok.mpr ⟨_, hreads, _, rfl, _, rfl, rfl⟩, rfl,
    fun husable => ?_, fun _ _ _ _ => rfl⟩
  exact absurd (husable.max_bootstraps nofun) (lt_irrefl 0)

end nim_test_node.service_discovery.env
